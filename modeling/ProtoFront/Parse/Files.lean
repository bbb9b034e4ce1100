import ProtoFront.Parse.Recovery

/-!
# The statements of a file
-/

namespace ProtoFront

namespace ParseState

/-- The statement that a token begins at the top of a file. -/
def topLevel? : TokenKind → Option Goal
  | .keyword .kwSyntax | .keyword .kwEdition => some .syntaxLevel
  | .keyword .kwImport => some .importing
  | .keyword .kwPackage => some .package
  | .keyword .kwOption => some .option
  | .keyword .kwMessage => some (.scope .message)
  | .keyword .kwEnum => some (.scope .enum)
  | .keyword .kwService => some (.scope .service)
  | .keyword .kwExtend => some .extend
  | _ => none

/-- The next statement of a file. What begins no statement is skipped token by token. -/
def file (entry : Pending) (s : ParseState) : ParseState :=
  match topLevel? s.kind with
  | some goal => (s.resume entry .file).pushGoal goal
  | none =>
    match s.kind with
    | .eof => s
    | .semicolon => s.take.resume entry .file
    | _ =>
      let reported := if s.reportedHere then s else s.report [.topLevelStatement]
      reported.discard.resume entry .file

/-- The level of the language: `syntax` or `edition`, an equals sign, a string. -/
def syntaxLevel (entry : Pending) (s : ParseState) : ParseState :=
  let kind : DeclarationKind :=
    if s.kind = .keyword .kwEdition then .edition else .syntaxLevel
  let fail := failStatement entry kind
  s.take.expect .equals fail fun s =>
  s.expectStrings fail (endStatement entry kind)

/-- An import: the word `import`, perhaps `public` or `weak`, and a string. -/
def importing (entry : Pending) (s : ParseState) : ParseState :=
  let opened := s.take
  let modified :=
    if (opened.atWord .wordPublic || opened.atWord .wordWeak)
      && opened.following == .stringLiteral then opened.take
    else opened
  modified.expectStrings (failStatement entry .importing) (endStatement entry .importing)

/-- The word `package`, then a name. -/
def package (entry : Pending) (s : ParseState) : ParseState :=
  let opened := s.take
  opened.require opened.kind.isIdentifierLike [.identifier] (failStatement entry .package) fun s =>
  (s.resume entry .packageEnd).pushGoal (.qualifiedName (some .name))

end ParseState

end ProtoFront
