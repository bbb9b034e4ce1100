import ProtoFront.Parse.Recovery

/-!
# Names

Two sorts of names have parts. A qualified name is identifiers with dots between them, perhaps
with a dot in front. The name of an option may besides have parts in parentheses, each a qualified
name of its own.
-/

namespace ProtoFront

namespace ParseState

/-! ## Qualified names -/

/-- Takes the first part of a name and goes on if a dot follows. -/
def qualifiedNameFirst (tag? : Option NodeKind) (entry : Pending) (s : ParseState) : ParseState :=
  if s.kind.isIdentifierLike then
    let named := s.take
    if named.kind = .dot then
      (named.resume entry (.qualifiedNameEnd tag?)).pushGoal .qualifiedNameRest
    else named.close entry tag?
  else (s.report [.identifier]).close entry.broken tag?

/-- A name. A lone identifier is a leaf of the kind that is asked for; a longer name is a node of
that kind over its parts. -/
def qualifiedName (tag? : Option NodeKind) (entry : Pending) (s : ParseState) : ParseState :=
  if s.kind = .dot then s.take.qualifiedNameFirst tag? entry
  else if s.kind.isIdentifierLike && s.following != .dot then s.addLeaf tag? false
  else s.qualifiedNameFirst tag? entry

/-- A dot and a further part of a name. -/
def qualifiedNameRest (s : ParseState) : ParseState :=
  let dotted := s.take
  if dotted.kind.isIdentifierLike then
    let named := dotted.take
    if named.kind = .dot then named.pushGoal .qualifiedNameRest else named
  else (dotted.report [.identifier]).markEnclosing

/-! ## Names of options -/

/-- The name of an option is one node over its parts. -/
def optionName (entry : Pending) (s : ParseState) : ParseState :=
  (s.resume entry .optionNameEnd).pushGoal .optionNamePart

/-- Another part follows if there is a dot. -/
def optionNameDot (s : ParseState) : ParseState :=
  if s.kind = .dot then s.take.pushGoal .optionNamePart else s

/-- An identifier, or the beginning of a part in parentheses. -/
def optionNamePart (s : ParseState) : ParseState :=
  if s.kind.isIdentifierLike then s.take.optionNameDot
  else if s.kind = .opener .paren then
    let opened := s.take
    if startsType opened.kind then
      (opened.pushGoal .optionNameExtensionEnd).pushGoal (.qualifiedName none)
    else (opened.report [.typeName]).markEnclosing
  else (s.report [.identifier, .token (.opener .paren)]).markEnclosing

/-- The closing parenthesis of a part. -/
def optionNameExtensionEnd (entry : Pending) (s : ParseState) : ParseState :=
  if entry.failed then s.markEnclosing
  else s.expect (.closer .paren) markEnclosing optionNameDot

end ParseState

end ProtoFront
