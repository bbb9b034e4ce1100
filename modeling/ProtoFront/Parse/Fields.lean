import ProtoFront.Parse.Recovery

/-!
# Fields, enum values and ranges

The statements inside bodies that declare one thing, and the statements that set numbers aside.
All end with a semicolon, most after an optional list of options.
-/

namespace ProtoFront

namespace ParseState

/-- The end of a statement, perhaps behind a list of options. -/
def optionsOrEnd (kind : DeclarationKind) (entry : Pending) (s : ParseState) : ParseState :=
  match s.kind with
  | .opener .square => (s.resume entry (.statementEnd kind)).pushGoal .optionList
  | .semicolon => s.take.close entry (some (.declaration kind))
  | _ => (s.report [.token .semicolon, .token (.opener .square)]).failStatement entry kind

/-! ## Fields -/

/-- Name and number of a field. Any word may be the name. -/
def fieldNameAndNumber (kind : DeclarationKind) (entry : Pending) (s : ParseState) : ParseState :=
  let fail := failStatement entry kind
  s.require s.kind.isIdentifierLike [.identifier] fail fun s =>
  (s.takeAs .name).expect .equals fail fun s =>
  s.expect .intLiteral fail (optionsOrEnd kind entry)

/-- A broken map field is skipped past its closing angle first, where the layout would stop. -/
def failMapField (entry : Pending) (s : ParseState) : ParseState :=
  let skipped := s.skipTo fun kind => kind == .closer .angle || kind == .semicolon
  let closed := if skipped.kind = .closer .angle then skipped.discard else skipped
  closed.failStatement entry .mapField

/-- The word `map`, an angle, the type of the keys and the type of the values. -/
def mapField (entry : Pending) (s : ParseState) : ParseState :=
  let fail := failMapField entry
  let opened := s.take.take
  opened.require opened.kind.isMapKeyType [.mapKeyType] fail fun s =>
  (s.takeAs (.reference .mapKeyType)).expect .comma fail fun s =>
  s.require (startsType s.kind) [.typeName] fail fun s =>
  (s.resume entry .mapFieldAfterValue).pushGoal (.qualifiedName (some (.reference .mapValueType)))

/-- The closing angle of a map type, then name and number. -/
def mapFieldAfterValue (entry : Pending) (s : ParseState) : ParseState :=
  if entry.failed then s.failMapField entry
  else s.expect (.closer .angle) (failMapField entry) (fieldNameAndNumber .mapField entry)

/-- A field. A modifier is one only if the name of a type follows it. -/
def field (entry : Pending) (s : ParseState) : ParseState :=
  let modified := if s.kind.isFieldModifier && startsType s.following then s.take else s
  if modified.kind = .keyword .kwMap ∧ modified.following = .opener .angle then
    modified.mapField entry
  else
    modified.require (startsType modified.kind) [.typeName] (failStatement entry .field) fun s =>
    (s.resume entry .fieldAfterType).pushGoal (.qualifiedName (some (.reference .fieldType)))

/-- The type of a field has been read. -/
def fieldAfterType (entry : Pending) (s : ParseState) : ParseState :=
  if entry.failed then s.failStatement entry .field else s.fieldNameAndNumber .field entry

/-! ## Enum values -/

/-- Name and number of an enum value; the number may be negative. -/
def enumValue (entry : Pending) (s : ParseState) : ParseState :=
  let fail := failStatement entry .enumValue
  s.require s.kind.isIdentifierLike [.identifier] fail fun s =>
  (s.takeAs .name).expect .equals fail fun s =>
  (if s.kind = .minus then s.take else s).expect .intLiteral fail (optionsOrEnd .enumValue entry)

/-! ## Ranges -/

/-- An integer, perhaps negative. -/
def signedInteger (s : ParseState) (fail ok : ParseState → ParseState) : ParseState :=
  (if s.kind = .minus then s.take else s).expect .intLiteral fail ok

/-- One number, or two with the word `to` between them, the second perhaps the word `max`. Only a
complete range becomes a node. -/
def range (s : ParseState) (fail ok : ParseState → ParseState) : ParseState :=
  let token := s.position
  let start := s.nodes.size
  let done (s : ParseState) : ParseState := ok (s.addParent (some token) start (some .range) false)
  s.signedInteger fail fun s =>
    if s.atWord .wordTo then
      let upper := s.take
      if upper.atWord .wordMax then done upper.take
      else if upper.kind = .minus ∨ upper.kind = .intLiteral then upper.signedInteger fail done
      else fail (upper.report [.token .intLiteral, .contextual ContextWord.wordMax.spelling])
    else done s

/-- A comma and a further item, or the end of the statement. Only `extensions` takes options. -/
def rangesGoOn (kind : RangesKind) (entry : Pending) (s : ParseState) : ParseState :=
  if s.kind = .comma then s.take.resume entry (.rangesItem kind)
  else
    match kind with
    | .extensions => s.optionsOrEnd .extensions entry
    | .reserved => s.endStatement entry .reserved

/-- One item: a range, or in a `reserved` statement a name, quoted or bare. -/
def rangesItem (kind : RangesKind) (entry : Pending) (s : ParseState) : ParseState :=
  let fail := failStatement entry kind.declaration
  let onward := rangesGoOn kind entry
  match kind, s.kind with
  | _, .intLiteral | _, .minus => s.range fail onward
  | .reserved, .stringLiteral | .reserved, .identifier | .reserved, .keyword _
  | .reserved, .scalar _ => onward s.take
  | .reserved, _ => fail (s.report [.token .intLiteral, .token .stringLiteral, .identifier])
  | .extensions, _ => fail (s.report [.token .intLiteral])

/-- The word that begins the statement, then its first item. -/
def ranges (kind : RangesKind) (entry : Pending) (s : ParseState) : ParseState :=
  s.take.resume entry (.rangesItem kind)

end ParseState

end ProtoFront
