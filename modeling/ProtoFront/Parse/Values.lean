import ProtoFront.Parse.Recovery

/-!
# Values

The value of an option is a scalar, a text message between braces or angles, or a list of values.
A text message is made of fields, and each field has a name and a value. Separators between fields
may be left out; a `terminator` node then stands where one would be.
-/

namespace ProtoFront

namespace ParseState

/-! ## Scalars -/

/-- Reports that there is no value. -/
def missingValue (s : ParseState) : ParseState := (s.report [.value]).markEnclosing

/-- A value. Scalars are plain leaves, and a sign is a leaf of its own. -/
def value (s : ParseState) : ParseState :=
  match s.kind with
  | .stringLiteral => s.takeRun (· == .stringLiteral)
  | .intLiteral | .floatLiteral | .identifier | .keyword _ | .scalar _ => s.take
  | .minus | .plus =>
    if s.following.isNumber || s.following == .identifier then s.take.take else s.missingValue
  | .opener .brace => s.pushGoal (.textMessage .brace)
  | .opener .angle => s.pushGoal (.textMessage .angle)
  | .opener .square => s.pushGoal .textList
  | _ => s.missingValue

/-! ## Text messages -/

/-- The opening bracket of a text message. -/
def textMessage (pair : Bracket) (entry : Pending) (s : ParseState) : ParseState :=
  s.take.resume entry (.textMessageBody pair)

/-- What ends the skip over something that is no field. -/
def endsTextJunk (pair : Bracket) (kind : TokenKind) : Bool :=
  kind == .closer pair || kind == .comma || kind == .semicolon

/-- Whether a kind may begin a text field: a name, or a name in square brackets. -/
def startsTextField (kind : TokenKind) : Bool := kind.isIdentifierLike || kind == .opener .square

/-- Whether a kind divides text fields. -/
def isTextSeparator (kind : TokenKind) : Bool := kind == .comma || kind == .semicolon

/-- Closes a text message. -/
def closeTextMessage (entry : Pending) (s : ParseState) : ParseState :=
  s.close entry (some .textMessage)

/-- Skips something in a text message that is no field, and the separator behind it. If nothing
can be skipped, the next token is a closer that belongs to a construct outside: the message ends
without a closer of its own. Messages that end one after the other at such a token report it only
once. -/
def textMessageJunk (pair : Bracket) (entry : Pending) (s : ParseState) : ParseState :=
  let before := s.position
  let skipped :=
    if s.reportedHere then s.skipTo (endsTextJunk pair)
    else ((s.report [.textFieldName]).recoverTo (endsTextJunk pair)).1
  let separated := if isTextSeparator skipped.kind then skipped.discard else skipped
  if separated.position = before then separated.closeTextMessage entry.broken
  else separated.resume entry.broken (.textMessageBody pair)

/-- The next field of a text message, or its end. -/
def textMessageBody (pair : Bracket) (entry : Pending) (s : ParseState) : ParseState :=
  if s.kind = .closer pair then s.take.closeTextMessage entry
  else if s.kind = .eof then
    (s.report [.token (.closer pair)]).closeTextMessage entry.broken
  else if startsTextField s.kind then
    (s.resume entry (.textMessageBody pair)).pushGoal .textField
  else s.textMessageJunk pair entry

/-! ## Text fields -/

/-- Whether a kind may stand in a name between square brackets: the name of an extension, or of a
type behind a host. -/
def isExtensionNamePart (kind : TokenKind) : Bool :=
  kind.isIdentifierLike || kind == .dot || kind == .slash

/-- Whether a kind begins a scalar value. -/
def startsScalar (kind : TokenKind) : Bool :=
  kind.isLiteral || kind.isIdentifierLike || kind == .minus || kind == .plus

/-- The goal of a value that is no scalar. -/
def compositeGoal? : TokenKind → Option Goal
  | .opener .brace => some (.textMessage .brace)
  | .opener .angle => some (.textMessage .angle)
  | .opener .square => some .textList
  | _ => none

/-- Closes a text field. -/
def closeTextField (entry : Pending) (s : ParseState) : ParseState :=
  s.close entry (some .textField)

/-- The value of a text field. Before a scalar a colon is due: if it is missing, that is reported,
and the value is read all the same. -/
def textFieldValue (entry : Pending) (s : ParseState) : ParseState :=
  let colon := s.kind == .colon
  let named := if colon then s.take else s
  match compositeGoal? named.kind with
  | some goal => (named.resume entry .textFieldEnd).pushGoal goal
  | none =>
    if colon then (named.resume entry .textFieldEnd).pushGoal .value
    else
      let reported := named.report [.token .colon]
      if startsScalar named.kind then
        (reported.resume entry.broken .textFieldEnd).pushGoal .value
      else reported.closeTextField entry.broken

/-- A text field: a name, plain or in square brackets, and a value. -/
def textField (entry : Pending) (s : ParseState) : ParseState :=
  if s.kind = .opener .square then
    (s.take.takeRun isExtensionNamePart).expect (.closer .square) (closeTextField entry.broken)
      (textFieldValue entry)
  else s.take.textFieldValue entry

/-- Closes a field and takes its separator. If a field follows without one, a terminator stands in
its place. -/
def textFieldEnd (entry : Pending) (s : ParseState) : ParseState :=
  let closed := s.closeTextField entry
  if isTextSeparator closed.kind then closed.take
  else if startsTextField closed.kind then closed.addSynthetic .terminator false
  else closed

end ParseState

end ProtoFront
