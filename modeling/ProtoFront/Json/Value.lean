/-!
# JSON values and their text

`JsonValue` is what structured output is made of. Objects keep their members in order, and the
only numbers are natural numbers. `JsonValue.pretty` writes a value with one item on a line, two
blanks deeper than what holds it.
-/

namespace ProtoFront

/-- A value of structured output. -/
inductive JsonValue where
  | null
  | bool (value : Bool)
  | number (value : Nat)
  | string (value : String)
  | array (items : List JsonValue)
  | object (members : List (String × JsonValue))
  deriving Repr, Inhabited

namespace JsonValue

/-- A hexadecimal digit, in lower case. -/
def hexDigit (n : Nat) : Char := ("0123456789abcdef".toList).getD n '0'

/-- How a character is written inside a string: quotes, backslashes and control characters are
escaped, all else stands for itself. -/
def escape (c : Char) : List Char :=
  match c with
  | '"' => ['\\', '"']
  | '\\' => ['\\', '\\']
  | '\n' => ['\\', 'n']
  | '\r' => ['\\', 'r']
  | '\t' => ['\\', 't']
  | '\x08' => ['\\', 'b']
  | '\x0c' => ['\\', 'f']
  | c =>
    if c.toNat < 32 then ['\\', 'u', '0', '0', hexDigit (c.toNat / 16), hexDigit (c.toNat % 16)]
    else [c]

/-- A string between quotes. -/
def quote (text : String) : String :=
  String.ofList ('"' :: text.toList.flatMap escape ++ ['"'])

/-- The start of a line at some depth. -/
def lineStart (depth : Nat) : String := "\n".pushn ' ' (2 * depth)

/-- Items between brackets, each on a line of its own; nothing between the brackets if there is no
item. -/
def block (opening closing : String) (depth : Nat) : List String → String
  | [] => opening ++ closing
  | items =>
    opening ++ ",".intercalate (items.map (lineStart (depth + 1) ++ ·)) ++ lineStart depth
      ++ closing

mutual

/-- A value at some depth. -/
def prettyAt (depth : Nat) : JsonValue → String
  | null => "null"
  | bool true => "true"
  | bool false => "false"
  | number value => toString value
  | string value => quote value
  | array items => block "[" "]" depth (prettyItems (depth + 1) items)
  | object members => block "\x7b" "\x7d" depth (prettyMembers (depth + 1) members)

/-- The items of an array. -/
def prettyItems (depth : Nat) : List JsonValue → List String
  | [] => []
  | item :: rest => prettyAt depth item :: prettyItems depth rest

/-- The members of an object. -/
def prettyMembers (depth : Nat) : List (String × JsonValue) → List String
  | [] => []
  | (key, value) :: rest =>
    (quote key ++ ": " ++ prettyAt depth value) :: prettyMembers depth rest

end

/-- A value over several lines. -/
def pretty (value : JsonValue) : String := value.prettyAt 0

end JsonValue

end ProtoFront
