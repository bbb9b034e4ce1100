import ProtoFront.Token.Buffer

/-!
# Diagnostics

Reading a file never fails. Where the grammar expects something else than what it finds, a
`Diagnostic` says what was expected, what was found, and at which token.
-/

namespace ProtoFront

/-- Something that the grammar can ask for. -/
inductive Expectation where
  | token (kind : TokenKind)
  | identifier
  | fieldStart
  | typeName
  | mapKeyType
  | value
  | topLevelStatement
  | enumValue
  | textFieldName
  /-- a word with a meaning in this place only, such as `returns` -/
  | contextual (word : String)
  deriving DecidableEq, Repr, Inhabited

namespace Expectation

/-- How a report speaks of the expectation. -/
def describe : Expectation → String
  | token kind => kind.describe
  | identifier => "identifier"
  | fieldStart => "field"
  | typeName => "type"
  | mapKeyType => "map key type"
  | value => "value"
  | topLevelStatement => "top-level statement"
  | enumValue => "enum value"
  | textFieldName => "text field name"
  | contextual word => "'" ++ word ++ "'"

/-- The alternatives in one phrase. -/
def describeAll : List Expectation → String
  | [] => "something else"
  | [only] => only.describe
  | [first, second] => first.describe ++ " or " ++ second.describe
  | many =>
    let texts := many.map describe
    "one of " ++ String.join (texts.dropLast.map (· ++ ", ")) ++ "or " ++ texts.getLastD ""

end Expectation

/-- A place where the input is not what the grammar expects. -/
structure Diagnostic where
  expected : List Expectation
  found : TokenKind
  /-- the number of the token that was found -/
  token : Nat
  deriving DecidableEq, Repr, Inhabited

namespace Diagnostic

/-- What was expected. -/
def label (diagnostic : Diagnostic) : String :=
  "expected " ++ Expectation.describeAll diagnostic.expected

/-- What was expected and what was found. -/
def message (diagnostic : Diagnostic) : String :=
  diagnostic.label ++ ", found " ++ diagnostic.found.describe

/-- Whether the input ended inside a statement or a body. -/
def isPrematureEnd (diagnostic : Diagnostic) : Bool := diagnostic.found == .eof

/-- The line and column of the token, counted from one. A token past the buffer is taken to stand
behind the last line. -/
def location (diagnostic : Diagnostic) (buffer : TokenBuffer) : Nat × Nat :=
  match buffer.lineColumn? diagnostic.token with
  | some (line, column) => (line + 1, column + 1)
  | none => (max buffer.lines.size 1, (buffer.lines.back?.map Line.length).getD 0 + 1)

/-- The line and column, as far as they can be shown: they are shown as numbers of 32 bits, also
when counted from one. In a source of less than four gigabytes every place can be shown. -/
def location? (diagnostic : Diagnostic) (buffer : TokenBuffer) : Option (Nat × Nat) :=
  let (line, column) := diagnostic.location buffer
  if line < UInt32.size ∧ column < UInt32.size then some (line, column) else none

/-- What is shown is the place, and it fits. -/
theorem location?_eq_some_iff {diagnostic : Diagnostic} {buffer : TokenBuffer}
    {place : Nat × Nat} :
    diagnostic.location? buffer = some place ↔
      diagnostic.location buffer = place ∧ place.1 < UInt32.size ∧ place.2 < UInt32.size := by
  rw [location?]
  grind

/-- The diagnostic on one line, behind its file and place. -/
def plainLine (diagnostic : Diagnostic) (buffer : TokenBuffer) (file : String) : String :=
  let (line, column) := diagnostic.location buffer
  file ++ ":" ++ toString line ++ ":" ++ toString column ++ ": " ++ diagnostic.message ++ "\n"

/-- A line for every diagnostic. -/
def plainReport (diagnostics : List Diagnostic) (buffer : TokenBuffer) (file : String) : String :=
  String.join (diagnostics.map (·.plainLine buffer file))

/-- A line for every diagnostic, if every place can be shown. -/
def plainReport? (diagnostics : List Diagnostic) (buffer : TokenBuffer) (file : String) :
    Option String :=
  if diagnostics.all fun diagnostic => (diagnostic.location? buffer).isSome then
    some (plainReport diagnostics buffer file)
  else none

end Diagnostic

end ProtoFront
