import ProtoFront.Proofs.Parse.Frames
import ProtoFront.Proofs.Tree.Decoding

/-!
# Reading one import statement

What the parser reads without a report becomes leaves, one after the other, and nothing else
changes (`ParseState.reading`). So an import statement becomes the leaves of its lexemes and a node
over them (`ParseState.importing_reading`), and a file that is nothing but an import statement
becomes one tree (`ParseState.run_importing`).
-/

namespace ProtoFront

/-- The leaf that a lexeme becomes. -/
def Lexeme.leaf (lexeme : Lexeme) : Node := ⟨some lexeme.index, 1, false, none⟩

namespace Forest

/-- The trees of lexemes that have become leaves. -/
def leaves : List Lexeme → Forest
  | [] => nil
  | lexeme :: rest => cons ⟨some lexeme.index, false, none⟩ nil (leaves rest)

theorem encode_leaves (lexemes : List Lexeme) :
    (leaves lexemes).encode = lexemes.map Lexeme.leaf := by
  induction lexemes with
  | nil => rfl
  | cons lexeme rest ih =>
    rw [leaves, encode, ih]
    rfl

theorem tokens_leaves (lexemes : List Lexeme) :
    (leaves lexemes).trees.filterMap (fun below => below.1.token?) =
      lexemes.map Lexeme.index := by
  induction lexemes with
  | nil => rfl
  | cons lexeme rest ih => rw [leaves, trees, List.filterMap_cons, ih, List.map_cons]

end Forest

namespace ParseState

variable {s : ParseState} {entry : Pending} {next : Lexeme} {read more rest : List Lexeme}

/-- The state when some lexemes have become leaves and others are left. -/
def reading (s : ParseState) (read rest : List Lexeme) : ParseState :=
  { s with
    cursor := { s.cursor with rest }
    nodes := s.nodes ++ (read.map Lexeme.leaf).toArray }

theorem take_reading :
    (s.reading read (next :: rest)).take = s.reading (read ++ [next]) rest := by
  simp [take, addLeaf, reading, Lexeme.leaf]

theorem takeMany_reading : takeMany more.length (s.reading read (more ++ rest)) =
    s.reading (read ++ more) rest := by
  induction more generalizing read with
  | nil => rw [List.append_nil]; rfl
  | cons next more ih =>
    rw [List.length_cons, takeMany, List.cons_append, take_reading, ih, List.append_assoc,
      List.singleton_append]

theorem takeRun_reading {member : TokenKind → Bool}
    (passes : ∀ lexeme ∈ more, member lexeme.kind = true) (stops : member next.kind = false) :
    (s.reading read (more ++ next :: rest)).takeRun member =
      s.reading (read ++ more) (next :: rest) := by
  have hrun : ((s.reading read (more ++ next :: rest)).cursor.rest.takeWhile
      fun lexeme => member lexeme.kind) = more := by
    change (more ++ next :: rest).takeWhile _ = more
    rw [List.takeWhile_append_of_pos passes, List.takeWhile_cons_of_neg (by simp [stops]),
      List.append_nil]
  rw [takeRun, hrun, takeMany_reading]

/-- The lexemes of an import statement: the word `import`, perhaps a modifier, strings, and a
semicolon. -/
structure ImportLexemes where
  word : Lexeme
  modifier? : Option Lexeme
  strings : List Lexeme
  semicolon : Lexeme
  isImport : word.kind = .keyword .kwImport
  isModifier : ∀ lexeme ∈ modifier?, lexeme.word? = some .wordPublic ∨ lexeme.word? = some .wordWeak
  areStrings : ∀ lexeme ∈ strings, lexeme.kind = .stringLiteral ∧ lexeme.word? = none
  notEmpty : strings ≠ []
  isSemicolon : semicolon.kind = .semicolon

def ImportLexemes.all (lexemes : ImportLexemes) : List Lexeme :=
  lexemes.word :: (lexemes.modifier?.toList ++ lexemes.strings ++ [lexemes.semicolon])

/-- The modifier is taken where there is one. -/
theorem takeModifier_reading (lexemes : ImportLexemes) (s : ParseState) :
    let opened := s.reading [lexemes.word]
      (lexemes.modifier?.toList ++ (lexemes.strings ++ [lexemes.semicolon]))
    (if (opened.atWord .wordPublic || opened.atWord .wordWeak)
      && opened.following == .stringLiteral then opened.take else opened) =
      s.reading (lexemes.word :: lexemes.modifier?.toList)
        (lexemes.strings ++ [lexemes.semicolon]) := by
  obtain ⟨first, later, hstrings⟩ := List.exists_cons_of_ne_nil lexemes.notEmpty
  obtain ⟨hkind, hword⟩ := lexemes.areStrings first (by rw [hstrings]; exact List.mem_cons_self)
  rw [hstrings]
  cases hmodifier : lexemes.modifier? with
  | none => simp [atWord, Cursor.word?, reading, hword]
  | some modifier =>
    have ahead : (s.reading [lexemes.word]
        (modifier :: (first :: later ++ [lexemes.semicolon]))).following = .stringLiteral := hkind
    have modifies : ∀ word, modifier.word? = some word → (s.reading [lexemes.word]
        (modifier :: (first :: later ++ [lexemes.semicolon]))).atWord word = true :=
      fun word hword => beq_iff_eq.mpr hword
    dsimp only [Option.toList_some, List.singleton_append]
    rw [ahead, take_reading, if_pos]
    · rfl
    · rcases lexemes.isModifier modifier hmodifier with hpublic | hweak
      · rw [modifies _ hpublic]
        rfl
      · rw [modifies _ hweak, Bool.or_true]
        rfl

/-- An import statement is read whole, and closed. -/
theorem importing_reading (lexemes : ImportLexemes) (s : ParseState) :
    (s.reading [] lexemes.all).importing entry =
      (s.reading lexemes.all []).close entry (some (.declaration .importing)) := by
  have opened : (s.reading [] lexemes.all).take = s.reading [lexemes.word]
      (lexemes.modifier?.toList ++ (lexemes.strings ++ [lexemes.semicolon])) := by
    rw [ImportLexemes.all, take_reading, List.append_assoc, List.nil_append]
  have atString : (s.reading (lexemes.word :: lexemes.modifier?.toList)
      (lexemes.strings ++ [lexemes.semicolon])).kind = .stringLiteral := by
    obtain ⟨first, later, hstrings⟩ := List.exists_cons_of_ne_nil lexemes.notEmpty
    have hfirst := lexemes.areStrings first (by rw [hstrings]; exact List.mem_cons_self)
    rw [hstrings]
    exact hfirst.1
  have taken : (s.reading (lexemes.word :: lexemes.modifier?.toList)
      (lexemes.strings ++ [lexemes.semicolon])).takeRun (· == .stringLiteral) =
      s.reading (lexemes.word :: lexemes.modifier?.toList ++ lexemes.strings)
        [lexemes.semicolon] :=
    takeRun_reading
      (fun lexeme hlexeme => beq_iff_eq.mpr (lexemes.areStrings lexeme hlexeme).1)
      (by rw [lexemes.isSemicolon]; rfl)
  have atSemicolon : (s.reading (lexemes.word :: lexemes.modifier?.toList ++ lexemes.strings)
      [lexemes.semicolon]).kind = .semicolon := lexemes.isSemicolon
  simp only [importing, opened, takeModifier_reading lexemes s]
  rw [expectStrings, require, if_pos (beq_iff_eq.mpr atString), taken, endStatement, expect,
    require, if_pos (beq_iff_eq.mpr atSemicolon), take_reading]
  rfl

/-! ## A file of one statement -/

theorem run_of_ended {fuel : Nat} (h : s.pending = []) : s.run fuel = s := by
  cases fuel with
  | zero => rfl
  | succ fuel => rw [run, if_pos (by simpa using h)]

/-- The tree of an import statement. -/
def ImportLexemes.forest (lexemes : ImportLexemes) : Forest :=
  .tree ⟨some lexemes.word.index, false, some (.declaration .importing)⟩ (Forest.leaves lexemes.all)

/-- A file that is one import statement is read in three steps: the statement is met, it is read,
and behind it is the end. -/
theorem run_importing (lexemes : ImportLexemes) (endIndex syncLimit : Nat) :
    let final := (initial ⟨lexemes.all, endIndex⟩ .file syncLimit).run
      (stepBound lexemes.all.length)
    final.nodes.toList = lexemes.forest.encode ∧ final.diagnostics = #[] := by
  let fresh : ParseState := ⟨⟨lexemes.all, endIndex⟩, #[], [], #[], ⟨syncLimit, none, 0⟩, #[]⟩
  let file : Pending := ⟨.file, fresh.cursor.origin, 0, false⟩
  let statement : Pending := ⟨.importing, fresh.cursor.origin, 0, false⟩
  let waiting : ParseState := { fresh with pending := [file] }
  let closed : ParseState :=
    { waiting with cursor := ⟨[], endIndex⟩, nodes := lexemes.forest.encode.toArray }
  have met : waiting.step = { fresh with pending := [statement, file] } := by
    have hstatement : topLevel? fresh.kind = some .importing := congrArg topLevel? lexemes.isImport
    change fresh.file file = _
    rw [ParseState.file, hstatement]
    rfl
  have taken : ({ fresh with pending := [statement, file] } : ParseState).step = closed := by
    have whole : waiting.reading [] lexemes.all = waiting := by simp [reading, waiting, fresh]
    have nodes : (waiting.reading lexemes.all []).nodes =
        (Forest.leaves lexemes.all).encode.toArray := by
      simp [reading, waiting, fresh, Forest.encode_leaves]
    have size : (Forest.leaves lexemes.all).encode.toArray.size =
        (Forest.leaves lexemes.all).size := by
      rw [List.size_toArray, Forest.length_encode]
    have read : (Forest.leaves lexemes.all).size ≠ 0 := by
      simp [ImportLexemes.all, Forest.leaves, Forest.size]
    change waiting.importing statement = _
    rw [← whole, importing_reading, close, addParent, nodes, size, if_neg Bool.false_ne_true,
      if_neg read.symm, List.push_toArray]
    rfl
  have ended : closed.step = { closed with pending := [] } := rfl
  have steps : stepBound lexemes.all.length = 16 * lexemes.all.length + 13 + 1 + 1 + 1 := by
    rw [stepBound]
    omega
  dsimp only
  change (run _ waiting).nodes.toList = _ ∧ (run _ waiting).diagnostics = _
  rw [steps, run_succ, met, run_succ, taken, run_succ, ended, run_of_ended rfl]
  exact ⟨rfl, rfl⟩

end ParseState

end ProtoFront
