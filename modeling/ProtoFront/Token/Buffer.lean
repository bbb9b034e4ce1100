import ProtoFront.Text.Slice
import ProtoFront.Token.Kind

/-!
# Token buffers

A `TokenBuffer` holds a source, its tokens and its line table. A token knows its kind and its
place only; its text is read back from the source through the line table. Buffers may also be put
together by hand, so an index, a line or a byte range may lead nowhere: reading then gives the end
of the input, no offset, or no text.
-/

namespace ProtoFront

/-- A token: its kind, its zero-based line, its byte column in that line, its length in bytes. -/
structure Token where
  kind : TokenKind
  line : Nat
  column : Nat
  length : Nat
  deriving DecidableEq, Repr, Inhabited

/-- A line of the source: the byte where it starts, and its length without the line break. -/
structure Line where
  start : Nat
  length : Nat
  deriving DecidableEq, Repr, Inhabited

/-- A source with its tokens and its line table. -/
structure TokenBuffer where
  source : String
  tokens : Array Token
  lines : Array Line
  deriving Inhabited

namespace TokenBuffer

variable (buffer : TokenBuffer)

/-- The number of tokens, the end marker included. -/
def size : Nat := buffer.tokens.size

/-- The token at `index`, if there is one. -/
def token? (index : Nat) : Option Token := buffer.tokens[index]?

/-- The kind of the token at `index`; past the last token the input has ended. -/
def kindAt (index : Nat) : TokenKind :=
  match buffer.token? index with
  | some token => token.kind
  | none => .eof

/-- The byte at which the token starts, when the token and its line exist. -/
def offset? (index : Nat) : Option Nat := do
  let token ← buffer.token? index
  let line ← buffer.lines[token.line]?
  return line.start + token.column

/-- The bytes that the token covers. A token that is nowhere lies at the end of the source. -/
def span (index : Nat) : Nat × Nat :=
  match buffer.token? index, buffer.offset? index with
  | some token, some start => (start, start + token.length)
  | _, _ => (buffer.source.utf8ByteSize, buffer.source.utf8ByteSize)

/-- The text of the token, empty when the token or its bytes are not in the source. -/
def text (index : Nat) : String :=
  match buffer.token? index, buffer.offset? index with
  | some token, some start => (slice? buffer.source start (start + token.length)).getD ""
  | _, _ => ""

/-- The zero-based line and column of the token. -/
def lineColumn? (index : Nat) : Option (Nat × Nat) :=
  (buffer.token? index).map fun token => (token.line, token.column)

end TokenBuffer

end ProtoFront
