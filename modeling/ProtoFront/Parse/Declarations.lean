import ProtoFront.Parse.Recovery

/-!
# Declarations with a body

Messages, enums, services, oneofs, extensions of messages, and rpcs, with the statements between
their braces. Whatever goes wrong, a declaration that opens a scope ends with one `scopeClose`: the
brace that closes it, or a node without a token when that brace, or the whole body, is missing.
-/

namespace ProtoFront

/-- What may stand in a body. -/
def BodyKind.expected : BodyKind → List Expectation
  | scope .message => [.token (.keyword .kwOption), .token (.keyword .kwReserved), .fieldStart]
  | scope .enum => [.token (.keyword .kwOption), .token (.keyword .kwReserved), .enumValue]
  | scope .service => [.token (.keyword .kwOption), .token (.keyword .kwRpc)]
  | scope .oneof => [.token (.keyword .kwOption), .fieldStart]
  | extend => [.fieldStart]
  | rpc => [.token (.keyword .kwOption)]

namespace ParseState

/-! ## Scopes -/

/-- A scope that never reached its body is closed all the same. -/
def failScope (kind : ScopeKind) (entry : Pending) (s : ParseState) : ParseState :=
  ((s.recoverStatement entry.origin).addSynthetic .scopeClose true).close entry.broken
    (some (.scope kind))

/-- Goes on with a body, and closes the declaration behind it. -/
def enterBody (kind : BodyKind) (entry : Pending) (s : ParseState) : ParseState :=
  (s.resume entry (.declarationEnd kind.declaration)).resume entry (.body kind)

/-- The word that begins a scope, its name and its opening brace. -/
def scope (kind : ScopeKind) (entry : Pending) (s : ParseState) : ParseState :=
  let fail := failScope kind entry
  let opened := s.take
  opened.require opened.kind.isIdentifierLike [.identifier] fail fun s =>
  (s.takeAs .name).expect (.opener .brace) fail (enterBody (.scope kind) entry)

/-! ## Extensions of messages -/

/-- The word `extend`, then the name of the type. -/
def extend (entry : Pending) (s : ParseState) : ParseState :=
  let opened := s.take
  opened.require (startsType opened.kind) [.typeName] (failStatement entry .extend) fun s =>
  (s.resume entry .extendAfterName).pushGoal (.qualifiedName (some (.reference .extendeeType)))

/-- The opening brace of an extension. -/
def extendAfterName (entry : Pending) (s : ParseState) : ParseState :=
  if entry.failed then s.failStatement entry .extend
  else s.expect (.opener .brace) (failStatement entry .extend) (enterBody .extend entry)

/-! ## Bodies -/

/-- The statement that the next tokens begin, if the body may hold it. The words for declarations
inside a message are fields unless a name follows. -/
def statement? (body : BodyKind) (next following : TokenKind) : Option Goal :=
  let named := following.isIdentifierLike
  match body, next with
  | .extend, .keyword .kwOption => some .field
  | _, .keyword .kwOption => some .option
  | .scope .message, .keyword .kwReserved => some (.ranges .reserved)
  | .scope .message, .keyword .kwExtensions => some (.ranges .extensions)
  | .scope .message, .keyword .kwMessage => some (if named then .scope .message else .field)
  | .scope .message, .keyword .kwEnum => some (if named then .scope .enum else .field)
  | .scope .message, .keyword .kwOneof => some (if named then .scope .oneof else .field)
  | .scope .message, .keyword .kwExtend =>
    some (if startsType following then .extend else .field)
  | .scope .message, kind | .scope .oneof, kind | .extend, kind =>
    if startsType kind then some .field else none
  | .scope .enum, .keyword .kwReserved => some (.ranges .reserved)
  | .scope .enum, kind => if kind.isIdentifierLike then some .enumValue else none
  | .scope .service, .keyword .kwRpc => some .rpc
  | .scope .service, _ => none
  | .rpc, _ => none

/-- Skips a token that begins no statement of the body, and what the layout says goes with it. The
token itself is always skipped, so a body gets on. -/
def bodyJunk (body : BodyKind) (again : Goal) (entry : Pending) (s : ParseState) : ParseState :=
  let origin := s.cursor.origin
  let reported := if s.reportedHere then s else s.report body.expected
  let skipped := if reported.kind.isOpener then reported.skipGroup else reported.discard
  (skipped.recoverStatement origin).resume entry.broken again

/-- The next statement of a body, which then goes on with the goal `again`. -/
def bodyStatement (body : BodyKind) (again : Goal) (entry : Pending) (s : ParseState) :
    ParseState :=
  if s.kind = .semicolon then s.take.resume entry again
  else
    match statement? body s.kind s.following with
    | some goal => (s.resume entry again).pushGoal goal
    | none => s.bodyJunk body again entry

/-- The next statement of a body between braces, or its end. -/
def body (kind : BodyKind) (entry : Pending) (s : ParseState) : ParseState :=
  match s.kind with
  | .eof =>
    let reported := s.report [.token (.closer .brace)]
    (match kind.closeTag? with
      | some tag => reported.addSynthetic tag true
      | none => reported).markEnclosing
  | .closer .brace =>
    let closed := s.addLeaf kind.closeTag? false
    if entry.failed then closed.markEnclosing else closed
  | _ => s.bodyStatement kind (.body kind) entry

/-- The next statement of a body without braces, which ends with the input. -/
def fragmentBody (kind : ScopeKind) (entry : Pending) (s : ParseState) : ParseState :=
  if s.kind = .eof then s else s.bodyStatement (.scope kind) (.fragmentBody kind) entry

/-! ## Rpcs -/

/-- The type that an rpc takes or gives, perhaps behind the word `stream`. -/
def rpcType (after : Goal) (kind : ReferenceKind) (entry : Pending) (s : ParseState) :
    ParseState :=
  let marked := if s.atWord .wordStream && startsType s.following then s.take else s
  marked.require (startsType marked.kind) [.typeName] (failStatement entry .rpc) fun s =>
  (s.resume entry after).pushGoal (.qualifiedName (some (.reference kind)))

/-- The word `rpc`, a name, and the type that it takes in parentheses. -/
def rpc (entry : Pending) (s : ParseState) : ParseState :=
  let fail := failStatement entry .rpc
  let opened := s.take
  opened.require opened.kind.isIdentifierLike [.identifier] fail fun s =>
  (s.takeAs .name).expect (.opener .paren) fail (rpcType .rpcAfterInput .rpcInputType entry)

/-- The word `returns`, and the type that the rpc gives in parentheses. -/
def rpcAfterInput (entry : Pending) (s : ParseState) : ParseState :=
  let fail := failStatement entry .rpc
  if entry.failed then fail s
  else
    s.expect (.closer .paren) fail fun s =>
    s.require (s.atWord .wordReturns) [.contextual ContextWord.wordReturns.spelling] fail fun s =>
    s.take.expect (.opener .paren) fail (rpcType .rpcAfterOutput .rpcOutputType entry)

/-- A semicolon, or a body of options. -/
def rpcAfterOutput (entry : Pending) (s : ParseState) : ParseState :=
  let fail := failStatement entry .rpc
  if entry.failed then fail s
  else
    s.expect (.closer .paren) fail fun s =>
    match s.kind with
    | .semicolon => s.take.close entry (some (.declaration .rpc))
    | .opener .brace => s.take.enterBody .rpc entry
    | _ => fail (s.report [.token .semicolon, .token (.opener .brace)])

end ParseState

end ProtoFront
