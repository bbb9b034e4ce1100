import ProtoFront.Text.Printable

/-!
# Text between quotes

How a report shows a text exactly: between double quotes, with double quotes, backslashes and
characters that are not printable escaped. A single quote ends nothing there and stands as it is.
-/

namespace ProtoFront

namespace Text

/-- How a character is shown between quotes. -/
def quotedChar (c : Char) : List Char :=
  match c with
  | '"' => ['\\', '"']
  | '\\' => ['\\', '\\']
  | '\n' => ['\\', 'n']
  | '\r' => ['\\', 'r']
  | '\t' => ['\\', 't']
  | '\x00' => ['\\', '0']
  | c =>
    if isPrintable c then [c] else "\\u\x7b".toList ++ Nat.toDigits 16 c.toNat ++ ['\x7d']

/-- A text between quotes. -/
def quoted (text : String) : String :=
  String.ofList ('"' :: text.toList.flatMap quotedChar ++ ['"'])

/-- Texts between quotes, in square brackets. -/
def quotedList (texts : List String) : String :=
  "[" ++ ", ".intercalate (texts.map quoted) ++ "]"

end Text

end ProtoFront
