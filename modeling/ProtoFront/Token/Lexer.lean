import ProtoFront.Token.Buffer

/-!
# From characters to tokens

A source is cut into pieces, first piece first (`pieces`): at each place the longest piece of any
class is taken. Blanks are pieces without a kind. Characters that begin no token become `invalid`
pieces: a block comment that is never closed takes all that is left, a string that is never closed
takes its quote and as much of a string's body as follows, and anything else takes one character.

`extent` says how far a piece reaches beyond its first character. So a piece is never empty, and
the pieces, put together again, are the source. `place` then counts bytes and line breaks to give
every piece its position, and `tokenize` adds the line table and the end marker.
-/

namespace ProtoFront

namespace Lexer

/-! ## Classes of characters -/

/-- Blanks separate tokens: space, tab, carriage return, line feed, form feed. -/
def isBlank (c : Char) : Bool :=
  c == ' ' || c == '\t' || c == '\r' || c == '\n' || c == '\x0c'

def isHexDigit (c : Char) : Bool :=
  c.isDigit || ('a' ≤ c && c ≤ 'f') || ('A' ≤ c && c ≤ 'F')

/-- Words start with an ASCII letter or an underscore. -/
def isWordStart (c : Char) : Bool := c.isAlpha || c == '_'

def isWordChar (c : Char) : Bool := c.isAlphanum || c == '_'

/-- The number of leading characters in a class. -/
def runLength (inClass : Char → Bool) (cs : List Char) : Nat := (cs.takeWhile inClass).length

/-! ## How far each class of piece reaches -/

/-- A complete exponent: a letter `e`, perhaps a sign, at least one digit. -/
def exponentLength : List Char → Nat
  | letter :: rest =>
    if letter == 'e' || letter == 'E' then
      match rest with
      | [] => 0
      | sign :: digits =>
        if sign == '+' || sign == '-' then
          match runLength Char.isDigit digits with
          | 0 => 0
          | n + 1 => n + 3
        else
          match runLength Char.isDigit rest with
          | 0 => 0
          | n + 1 => n + 2
    else 0
  | [] => 0

/-- The marker `x` and at least one hexadecimal digit, after a leading zero. -/
def hexLength : List Char → Nat
  | marker :: digits =>
    if marker == 'x' || marker == 'X' then
      match runLength isHexDigit digits with
      | 0 => 0
      | n + 1 => n + 2
    else 0
  | [] => 0

/-- A number that starts with the digit `first`. A point or an exponent makes it a float. -/
def numberExtent (first : Char) (cs : List Char) : TokenKind × Nat :=
  match if first == '0' then hexLength cs else 0 with
  | n + 1 => (.intLiteral, n + 1)
  | 0 =>
    let whole := runLength Char.isDigit cs
    match cs.drop whole with
    | '.' :: rest =>
      let fraction := runLength Char.isDigit rest
      (.floatLiteral, whole + 1 + fraction + exponentLength (rest.drop fraction))
    | rest =>
      match exponentLength rest with
      | 0 => (.intLiteral, whole)
      | n + 1 => (.floatLiteral, whole + (n + 1))

/-- A dot, or a float that starts with its point. -/
def dotExtent (cs : List Char) : TokenKind × Nat :=
  match runLength Char.isDigit cs with
  | 0 => (.dot, 0)
  | n + 1 => (.floatLiteral, n + 1 + exponentLength (cs.drop (n + 1)))

/-- The longest run of string contents: no quote, no line feed, and a backslash only together with
the character that it escapes. -/
def contentLength (quote : Char) : List Char → Nat
  | [] => 0
  | '\\' :: escaped :: rest => if escaped == '\n' then 0 else contentLength quote rest + 2
  | c :: rest =>
    if c == quote || c == '\\' || c == '\n' then 0 else contentLength quote rest + 1

/-- A string after its opening quote; without the closing quote it is invalid. -/
def stringExtent (quote : Char) (cs : List Char) : TokenKind × Nat :=
  let content := contentLength quote cs
  if (cs.drop content).head? == some quote then (.stringLiteral, content + 1)
  else (.invalid, content)

/-- The characters up to the end of a block comment, the end included. -/
def commentLength? : List Char → Option Nat
  | [] => none
  | '*' :: '/' :: _ => some 2
  | _ :: rest => (commentLength? rest).map (· + 1)

/-- A slash, or one of the two comments that start with it. -/
def slashExtent : List Char → TokenKind × Nat
  | '/' :: rest => (.lineComment, runLength (· != '\n') rest + 1)
  | '*' :: rest =>
    match commentLength? rest with
    | some n => (.blockComment, n + 1)
    | none => (.invalid, rest.length + 1)
  | _ => (.slash, 0)

/-- The kinds of single characters. -/
def punctuation? (c : Char) : Option TokenKind :=
  [TokenKind.semicolon, .comma, .equals, .colon, .minus, .plus, .opener .brace, .opener .paren,
    .opener .square, .opener .angle, .closer .brace, .closer .paren, .closer .square,
    .closer .angle].find? (·.spelling? == some c.toString)

/-- The kind of the piece that starts with `c`, none for a blank, and the number of characters of
`cs` that belong to it. -/
def extent (c : Char) (cs : List Char) : Option TokenKind × Nat :=
  if isBlank c then (none, 0)
  else if isWordStart c then
    let n := runLength isWordChar cs
    (some (.ofWord (String.ofList (c :: cs.take n))), n)
  else if c.isDigit then (numberExtent c cs).map some id
  else if c == '.' then (dotExtent cs).map some id
  else if c == '"' || c == '\'' then (stringExtent c cs).map some id
  else if c == '/' then (slashExtent cs).map some id
  else (some ((punctuation? c).getD .invalid), 0)

/-! ## Pieces -/

/-- A stretch of source, with its kind unless it is blank. -/
structure Piece where
  kind? : Option TokenKind
  text : List Char
  deriving DecidableEq, Repr

/-- The source cut into pieces. -/
def pieces : List Char → List Piece
  | [] => []
  | c :: cs =>
    let (kind?, n) := extent c cs
    ⟨kind?, c :: cs.take n⟩ :: pieces (cs.drop n)
termination_by cs => cs.length
decreasing_by simp only [List.length_drop, List.length_cons]; omega

/-! ## Positions -/

/-- A zero-based line, and the bytes since the last line break. -/
structure Place where
  line : Nat
  column : Nat
  deriving DecidableEq, Repr

/-- The place after one more character. -/
def Place.next (place : Place) (c : Char) : Place :=
  if c == '\n' then ⟨place.line + 1, 0⟩ else ⟨place.line, place.column + c.utf8Size⟩

/-- The tokens among the pieces, the first of which stands at `place`. -/
def tokensFrom (keepComments : Bool) (place : Place) : List Piece → List Token
  | [] => []
  | piece :: rest =>
    let following := tokensFrom keepComments (piece.text.foldl Place.next place) rest
    match piece.kind? with
    | none => following
    | some kind =>
      if kind.isComment && !keepComments then following
      else ⟨kind, place.line, place.column, byteLength piece.text⟩ :: following

/-- The table of the lines from byte `start` on. A line ends at a line feed; its length leaves out
one carriage return at its end. There is always a last line, perhaps empty. -/
def linesFrom (start : Nat) (cs : List Char) : List Line :=
  let content := cs.takeWhile (· != '\n')
  let bytes := byteLength content
  let line : Line := ⟨start, if content.getLast? == some '\r' then bytes - 1 else bytes⟩
  match _found : cs.dropWhile (· != '\n') with
  | [] => [line]
  | _ :: rest => line :: linesFrom (start + bytes + 1) rest
termination_by cs.length
decreasing_by
  have shorter := (List.dropWhile_suffix (l := cs) (· != '\n')).length_le
  rw [_found] at shorter
  simp only [List.length_cons] at shorter
  omega

/-- The end marker stands behind the last line. -/
def endToken (lines : List Line) : Token :=
  ⟨.eof, lines.length - 1, (lines.getLast?.map Line.length).getD 0, 0⟩

end Lexer

/-- The buffer of a source. Comments become tokens only when they are to be kept. -/
def tokenize (source : String) (keepComments : Bool) : TokenBuffer :=
  let lines := Lexer.linesFrom 0 source.toList
  let tokens := Lexer.tokensFrom keepComments ⟨0, 0⟩ (Lexer.pieces source.toList)
  ⟨source, (tokens ++ [Lexer.endToken lines]).toArray, lines.toArray⟩

end ProtoFront
