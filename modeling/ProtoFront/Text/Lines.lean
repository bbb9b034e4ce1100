/-!
# Lines and blanks of shown text

What counts as the end of a line, and as blank, when a source is shown to a reader. This is wider
than in the grammar, where only a line feed ends a line: here every line terminator of Unicode
does, and a carriage return with a line feed is one terminator.
-/

namespace ProtoFront

namespace Text

/-- The characters of Unicode's property `White_Space`, as ranges. -/
def whiteRanges : List (Nat × Nat) :=
  [(0x09, 0x0d), (0x20, 0x20), (0x85, 0x85), (0xa0, 0xa0), (0x1680, 0x1680), (0x2000, 0x200a),
    (0x2028, 0x2029), (0x202f, 0x202f), (0x205f, 0x205f), (0x3000, 0x3000)]

/-- Whether a character is blank. -/
def isWhite (c : Char) : Bool :=
  whiteRanges.any fun range => range.1 ≤ c.toNat && c.toNat ≤ range.2

/-- Every blank of ASCII is one. -/
theorem isWhite_of_isWhitespace {c : Char} (blank : c.isWhitespace) : isWhite c := by
  simp only [Char.isWhitespace, Bool.or_eq_true, decide_eq_true_eq] at blank
  rcases blank with ((rfl | rfl) | rfl) | rfl <;> decide

/-- Whether a character ends a line. -/
def isTerminator (c : Char) : Bool :=
  c == '\n' || c == '\r' || c == '\x0b' || c == '\x0c' || c == '\u0085' || c == '\u2028'
    || c == '\u2029'

/-- The lines of a text, each with its terminator. A text that ends with a terminator has no line
behind it, and the empty text has no line at all. -/
def splitLines : List Char → List (List Char)
  | [] => []
  | '\r' :: '\n' :: rest => ['\r', '\n'] :: splitLines rest
  | c :: rest =>
    if isTerminator c then [c] :: splitLines rest
    else
      match splitLines rest with
      | [] => [[c]]
      | line :: lines => (c :: line) :: lines

/-- The lines, put together, are the text. -/
theorem flatten_splitLines (text : List Char) : (splitLines text).flatten = text := by
  fun_induction splitLines text <;> simp_all

/-- A text without the blanks at its end. -/
def trimEnd (text : List Char) : List Char := (text.reverse.dropWhile isWhite).reverse

end Text

end ProtoFront
