import ProtoFront.Parse.State

/-!
# Recovery

After a mismatch the parser skips tokens until it can go on. Skipped tokens become leaves marked
as errors, so no token is lost. How far a skip reaches depends on the lexemes alone: each of
`groupExtent`, `extentTo` and `statementExtent` is a number of lexemes, and skipping makes leaves
of that many.

Brackets are respected: a group is skipped whole, so what is nested in it ends no skip.

A fresh recovery tells the guard where it ended (`ParseState.resync`). A construct that fails
because a part of it has already failed, and been reported, skips without telling the guard.
-/

namespace ProtoFront

/-! ## How far a skip reaches -/

/-- Closes the innermost open bracket of a pair together with all that is open inside it, if there
is one. The innermost bracket comes first. -/
def closeThrough? (pair : Bracket) (inner : List Bracket) : Option (List Bracket) :=
  match inner.dropWhile (· != pair) with
  | [] => none
  | _ :: outer => some outer

/-- The lexemes of a bracketed group, through the closer of its opener; `inner` holds the brackets
that are open so far. A closer that belongs to no open bracket ends the group and is not part of
it. -/
def groupExtent (inner : List Bracket) : List Lexeme → Nat
  | [] => 0
  | next :: rest =>
    match next.kind with
    | .opener pair => groupExtent (pair :: inner) rest + 1
    | .closer pair =>
      match closeThrough? pair inner with
      | none => 0
      | some [] => 1
      | some outer => groupExtent outer rest + 1
    | _ => if inner.isEmpty then 1 else groupExtent inner rest + 1

/-- The lexemes in front of the first that is to stop the skip, or of the first closer whose opener
was not skipped, or of the end. -/
def extentTo (stop : TokenKind → Bool) : List Lexeme → Nat
  | [] => 0
  | next :: rest =>
    if stop next.kind then 0
    else
      match next.kind with
      | .opener pair =>
        let inside := groupExtent [pair] rest
        extentTo stop (rest.drop inside) + inside + 1
      | .closer _ => 0
      | _ => extentTo stop rest + 1
termination_by lexemes => lexemes.length
decreasing_by all_goals simp only [List.length_drop, List.length_cons]; omega

/-- Whether the layout says that a lexeme belongs to something new: it stands on another line, and
not to the right of where the statement began. -/
def Lexeme.startsAfresh (lexeme : Lexeme) (origin : Origin) : Bool :=
  lexeme.line != origin.line && lexeme.column ≤ origin.column

/-- The lexemes that probably belong to the statement which began at `origin`, up to a semicolon,
a closing brace or a closing angle. -/
def statementExtent (origin : Origin) : List Lexeme → Nat
  | [] => 0
  | next :: rest =>
    match next.kind with
    | .closer .brace | .closer .angle | .semicolon => 0
    | .opener pair =>
      if next.startsAfresh origin then 0
      else
        let inside := groupExtent [pair] rest
        statementExtent origin (rest.drop inside) + inside + 1
    | _ => if next.startsAfresh origin then 0 else statementExtent origin rest + 1
termination_by lexemes => lexemes.length
decreasing_by all_goals simp only [List.length_drop, List.length_cons]; omega

namespace ParseState

/-! ## Skips without the guard -/

/-- Skips a bracketed group that starts with the next token. -/
def skipGroup (s : ParseState) : ParseState := discardMany (groupExtent [] s.cursor.rest) s

/-- Skips up to a token of certain kinds. -/
def skipTo (s : ParseState) (stop : TokenKind → Bool) : ParseState :=
  discardMany (extentTo stop s.cursor.rest) s

/-- Skips what is probably the rest of the statement that began at `origin`, and the semicolon
behind it. -/
def skipStatement (s : ParseState) (origin : Origin) : ParseState :=
  let skipped := discardMany (statementExtent origin s.cursor.rest) s
  if skipped.kind = .semicolon then skipped.take else skipped

/-! ## Skips that tell the guard -/

/-- Tells the guard of a recovery that began at the token `start`. -/
def resync (s : ParseState) (start : Nat) : ParseState × Resync :=
  let (guard, outcome) := s.guard.note start s.position
  ({ s with guard, events := s.events.push (.resynced outcome s.position guard.repeats) }, outcome)

/-- A recovery up to a token of certain kinds. -/
def recoverTo (s : ParseState) (stop : TokenKind → Bool) : ParseState × Resync :=
  let start := s.position
  (s.skipTo stop).resync start

/-- A recovery behind the statement that began at `origin`. -/
def recoverStatement (s : ParseState) (origin : Origin) : ParseState :=
  let start := s.position
  ((s.skipStatement origin).resync start).1

/-! ## Failing -/

/-- Skips the rest of a statement that is broken, and closes it with a mark. -/
def failStatement (entry : Pending) (kind : DeclarationKind) (s : ParseState) : ParseState :=
  let skipped :=
    if entry.failed then s.skipStatement entry.origin else s.recoverStatement entry.origin
  skipped.close entry.broken (some (.declaration kind))

/-- Goes on if a test is passed, else reports what was expected and fails. -/
def require (s : ParseState) (test : Bool) (expected : List Expectation)
    (fail ok : ParseState → ParseState) : ParseState :=
  if test then ok s else fail (s.report expected)

/-- Takes a token of one kind and goes on, or reports it missing and fails. -/
def expect (s : ParseState) (kind : TokenKind) (fail ok : ParseState → ParseState) :
    ParseState :=
  s.require (s.kind == kind) [.token kind] fail fun s => ok s.take

/-- Takes one string or several in a row and goes on, or reports the string missing and fails. -/
def expectStrings (s : ParseState) (fail ok : ParseState → ParseState) : ParseState :=
  s.require (s.kind == .stringLiteral) [.token .stringLiteral] fail fun s =>
    ok (s.takeRun (· == .stringLiteral))

/-- Takes the semicolon that ends a statement and closes the statement, or fails. -/
def endStatement (entry : Pending) (kind : DeclarationKind) (s : ParseState) : ParseState :=
  s.expect .semicolon (failStatement entry kind) fun s =>
    s.close entry (some (.declaration kind))

end ParseState

end ProtoFront
