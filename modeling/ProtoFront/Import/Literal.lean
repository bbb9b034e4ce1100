/-!
# The text of a string literal

A string literal stands between quotes and may hold escapes. `Literal.unquote` gives the text that
it means. It accepts any text: a quote that is missing at the end, an escape without digits and a
backslash at the very end are taken as they stand.
-/

namespace ProtoFront

namespace Literal

/-- The character that a letter after a backslash means. -/
def simpleEscape? : Char → Option Char
  | 'n' => some '\n'
  | 't' => some '\t'
  | 'r' => some '\r'
  | 'a' => some '\x07'
  | 'b' => some '\x08'
  | 'f' => some '\x0c'
  | 'v' => some '\x0b'
  | _ => none

/-- The value of a digit, in any base up to sixteen. -/
def digitValue (c : Char) : Nat :=
  if c.isDigit then c.toNat - '0'.toNat
  else if 'a' ≤ c ∧ c ≤ 'f' then c.toNat - 'a'.toNat + 10
  else if 'A' ≤ c ∧ c ≤ 'F' then c.toNat - 'A'.toNat + 10
  else 16

/-- The digits of a base at the front of a text, at most so many. -/
def leadingDigits (base limit : Nat) (cs : List Char) : List Char :=
  (cs.take limit).takeWhile fun c => digitValue c < base

/-- The character with the number that the digits write. -/
def charOfDigits (base : Nat) (digits : List Char) : Char :=
  Char.ofNat (digits.foldl (fun value digit => value * base + digitValue digit) 0)

/-- The character that an escape means, and how many characters behind the first it takes up. `c`
follows the backslash. Up to two hexadecimal digits follow an `x`; an octal escape has up to three
digits; any other character means itself. -/
def escape (c : Char) (rest : List Char) : Char × Nat :=
  match simpleEscape? c with
  | some meant => (meant, 0)
  | none =>
    if c == 'x' || c == 'X' then
      let digits := leadingDigits 16 2 rest
      (charOfDigits 16 digits, digits.length)
    else if digitValue c < 8 then
      let digits := leadingDigits 8 2 rest
      (charOfDigits 8 (c :: digits), digits.length)
    else (c, 0)

/-- A text with its escapes replaced by what they mean. -/
def unescape : List Char → List Char
  | [] => []
  | ['\\'] => ['\\']
  | '\\' :: c :: rest =>
    let (meant, length) := escape c rest
    meant :: unescape (rest.drop length)
  | c :: rest => c :: unescape rest
termination_by cs => cs.length
decreasing_by all_goals simp only [List.length_drop, List.length_cons]; omega

/-- The text between the quotes. -/
def content (literal : List Char) : List Char :=
  match literal with
  | [] => []
  | quote :: body =>
    if quote == '"' || quote == '\'' then
      if body.getLast? == some quote then body.dropLast else body
    else literal

/-- The text that a literal means. -/
def unquote (literal : String) : String := String.ofList (unescape (content literal.toList))

end Literal

end ProtoFront
