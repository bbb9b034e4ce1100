import ProtoFront.Token.Buffer

/-!
# What the parser reads

The parser stands at a position in the buffer. It sees the kind of the token there
(`TokenBuffer.kindAt`) and of those behind it (`TokenBuffer.peek`), and goes on from one token to
the next one (`TokenBuffer.advance`). It never stands at a comment (`TokenBuffer.skipComments`),
and never goes past an end marker.

A `Lexeme` is a token with all that the grammar asks of it: its kind, its place for the layout, and
which word with a meaning in some places only it spells, if any. The tokens at which the parser
comes to stand are the significant ones (`TokenBuffer.significant`). A `Cursor` is the list of
lexemes not read yet, together with the number that stands for the end of the input.
-/

namespace ProtoFront

/-- Identifiers that mean something in one place of the grammar and are names everywhere else. -/
inductive ContextWord where
  | wordPublic
  | wordWeak
  | wordReturns
  | wordStream
  | wordTo
  | wordMax
  deriving DecidableEq, Repr, Inhabited

namespace ContextWord

/-- The word itself. -/
def spelling : ContextWord → String
  | wordPublic => "public"
  | wordWeak => "weak"
  | wordReturns => "returns"
  | wordStream => "stream"
  | wordTo => "to"
  | wordMax => "max"

/-- All of the words. -/
def all : List ContextWord := [wordPublic, wordWeak, wordReturns, wordStream, wordTo, wordMax]

/-- The word that a text spells. -/
def ofText? (text : String) : Option ContextWord := all.find? (·.spelling == text)

end ContextWord

/-- A token as the grammar sees it. -/
structure Lexeme where
  /-- the number of the token in its buffer -/
  index : Nat
  kind : TokenKind
  line : Nat
  column : Nat
  word? : Option ContextWord
  deriving DecidableEq, Repr, Inhabited

/-- The lexeme of a token. Only plain identifiers can be words of their context. -/
def TokenBuffer.lexeme (buffer : TokenBuffer) (token : Token) (index : Nat) : Lexeme :=
  { index
    kind := token.kind
    line := token.line
    column := token.column
    word? := if token.kind = .identifier then ContextWord.ofText? (buffer.text index) else none }

namespace TokenBuffer

variable (buffer : TokenBuffer)

/-! ## Positions -/

theorem kindAt_eq_of_token? {buffer : TokenBuffer} {position : Nat} {token : Token}
    (h : buffer.token? position = some token) : buffer.kindAt position = token.kind := by
  rw [kindAt, h]

theorem lt_size_of_kindAt_ne_eof {buffer : TokenBuffer} {position : Nat}
    (h : buffer.kindAt position ≠ .eof) : position < buffer.size := by
  rw [kindAt] at h
  split at h
  case h_1 token htoken => exact (Array.getElem?_eq_some_iff.mp htoken).1
  case h_2 => exact absurd rfl h

theorem kindAt_ne_eof_of_isComment {buffer : TokenBuffer} {position : Nat}
    (h : (buffer.kindAt position).isComment = true) : buffer.kindAt position ≠ .eof := by
  intro ends
  rw [ends] at h
  cases h

/-- The first position from here on that holds no comment. -/
@[semireducible]
def skipComments (position : Nat) : Nat :=
  if h : (buffer.kindAt position).isComment = true then skipComments (position + 1)
  else position
termination_by buffer.size - position
decreasing_by
  have inside := lt_size_of_kindAt_ne_eof (kindAt_ne_eof_of_isComment h)
  omega

/-- The position of the next token that is no comment. At the end of the input nothing happens. -/
def advance (position : Nat) : Nat :=
  if buffer.kindAt position = .eof then position else buffer.skipComments (position + 1)

/-- The kind of the `n`th token behind a position, comments not counted. -/
def peek (position : Nat) : Nat → TokenKind
  | 0 => buffer.kindAt position
  | n + 1 =>
    if buffer.kindAt position = .eof then .eof
    else peek (buffer.skipComments (position + 1)) n

theorem le_skipComments (position : Nat) : position ≤ buffer.skipComments position := by
  fun_induction skipComments with
  | case1 _ _ ih => exact Nat.le_of_succ_le ih
  | case2 => exact Nat.le_refl _

theorem lt_advance {buffer : TokenBuffer} {position : Nat} (h : buffer.kindAt position ≠ .eof) :
    position < buffer.advance position := by
  rw [advance, if_neg h]
  exact buffer.le_skipComments (position + 1)

/-- The tokens at which a parser stands that begins at a position and always goes on to the next
one, until the end of the input. -/
@[semireducible]
def lexemesFrom (position : Nat) : List Lexeme :=
  match _ : buffer.token? position with
  | none => []
  | some token =>
    if _ : token.kind = .eof then []
    else buffer.lexeme token position :: lexemesFrom (buffer.advance position)
termination_by buffer.size - position
decreasing_by
  have htoken : buffer.token? position = some token := ‹_›
  have there : buffer.kindAt position ≠ .eof := by rwa [kindAt_eq_of_token? htoken]
  exact Nat.sub_lt_sub_left (lt_size_of_kindAt_ne_eof there) (lt_advance there)

/-- The tokens in front of the first end marker, without the comments. -/
def significant : List Lexeme := buffer.lexemesFrom (buffer.skipComments 0)

end TokenBuffer

/-- The number of the first end marker, or the number after the last token. -/
def TokenBuffer.endIndex (buffer : TokenBuffer) : Nat :=
  buffer.tokens.toList.findIdx fun token => token.kind == .eof

/-- Where a construct begins: its first token, and where that stands in the layout. -/
structure Origin where
  token : Nat
  line : Nat
  column : Nat
  deriving DecidableEq, Repr, Inhabited

/-- The lexemes still to be read. -/
structure Cursor where
  rest : List Lexeme
  endIndex : Nat
  deriving DecidableEq, Repr, Inhabited

/-- A cursor in front of everything. -/
def TokenBuffer.cursor (buffer : TokenBuffer) : Cursor := ⟨buffer.significant, buffer.endIndex⟩

namespace Cursor

variable (cursor : Cursor)

/-- The kind of the next token. -/
def kind : TokenKind :=
  match cursor.rest with
  | [] => .eof
  | next :: _ => next.kind

/-- The kind of the token after the next one. -/
def following : TokenKind :=
  match cursor.rest with
  | _ :: next :: _ => next.kind
  | _ => .eof

/-- The number of the next token. -/
def position : Nat :=
  match cursor.rest with
  | [] => cursor.endIndex
  | next :: _ => next.index

/-- The word that the next token spells. -/
def word? : Option ContextWord := cursor.rest.head?.bind Lexeme.word?

/-- The beginning of a construct that starts with the next token. Nothing is ever skipped from the
end of the input on, so the place of the end does not matter. -/
def origin : Origin :=
  match cursor.rest with
  | [] => ⟨cursor.endIndex, 0, 0⟩
  | next :: _ => ⟨next.index, next.line, next.column⟩

end Cursor

end ProtoFront
