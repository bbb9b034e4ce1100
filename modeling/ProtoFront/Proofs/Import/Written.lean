import ProtoFront.Import.Statement
import ProtoFront.Proofs.Import.Quoted
import ProtoFront.Proofs.Parse.Importing
import ProtoFront.Proofs.Token.Lexemes
import ProtoFront.Proofs.Tree.Decoding

/-!
# Imports that have been written

The path of an import may be written as several strings, each between quotes of its own, and every
text can be written so (`WrittenImport`). From there the way back to the path leads through all
stages. The lexer cuts the source into words and literals (`WrittenImport.keptPieces_source`); the
parser makes one statement of them and reports nothing (`WrittenImport.parseTokens_source`); and
what is read from the tree of the statement are its modifier and the texts of its strings, one
behind the other (`WrittenImport.imports_source`).
-/

namespace ProtoFront

open Lexer

/-! ## Writing -/

/-- What may stand behind the word `import`. -/
inductive ImportModifier where
  | publicly
  | weakly
  deriving DecidableEq, Repr

def ImportModifier.word : ImportModifier → ContextWord
  | publicly => .wordPublic
  | weakly => .wordWeak

/-- An import whose path is to be written in parts. -/
structure WrittenImport where
  modifier? : Option ImportModifier
  parts : List Quoted
  deriving DecidableEq, Repr

namespace WrittenImport

variable (written : WrittenImport)

/-- The import as a source. -/
def source : String :=
  "import " ++ (written.modifier?.elim "" fun modifier => modifier.word.spelling ++ " ") ++
    " ".intercalate (written.parts.map Quoted.literal) ++ ";"

/-- The import as a statement, of which the first token is the first of the source. -/
def statement : ImportStatement where
  path := String.join (written.parts.map Quoted.text)
  isPublic := written.modifier? == some .publicly
  isWeak := written.modifier? == some .weakly
  token? := some 0

end WrittenImport

/-! ## Cutting the source into pieces -/

def ImportModifier.piece (modifier : ImportModifier) : Piece :=
  ⟨some .identifier, modifier.word.spelling.toList⟩

def Quoted.piece (part : Quoted) : Piece := ⟨some .stringLiteral, part.literal.toList⟩

/-- The pieces between the word and the semicolon. -/
def WrittenImport.pieces (written : WrittenImport) : List Piece :=
  written.modifier?.toList.map ImportModifier.piece ++ written.parts.map Quoted.piece

section

variable {rest : List Char}

/-- The pieces of a text that become tokens. -/
def keptOf (cs : List Char) : List Piece := (Lexer.pieces cs).filter (Piece.isKept false)

theorem keptOf_import : keptOf ("import ".toList ++ rest) =
    ⟨some (.keyword .kwImport), "import".toList⟩ :: keptOf rest := by
  have hword : TokenKind.ofWord (String.ofList "import".toList) = .keyword .kwImport := by
    decide +kernel
  change keptOf ("import".toList ++ ' ' :: rest) = _
  rw [keptOf, pieces_word rfl rfl, hword]
  rfl

theorem keptOf_modifier (modifier : ImportModifier) :
    keptOf (modifier.word.spelling.toList ++ ' ' :: rest) = modifier.piece :: keptOf rest := by
  have hword : isWord modifier.word.spelling.toList = true ∧
      TokenKind.ofWord (String.ofList modifier.word.spelling.toList) = .identifier := by
    cases modifier <;> decide +kernel
  rw [keptOf, pieces_word hword.1 rfl, hword.2]
  rfl

theorem keptOf_literal (part : Quoted) :
    keptOf (part.literal.toList ++ rest) = part.piece :: keptOf rest := by
  rw [keptOf, part.pieces_literal]
  rfl

theorem keptOf_blank : keptOf (' ' :: rest) = keptOf rest := by
  rw [keptOf, pieces_cons]
  rfl

theorem keptOf_semicolon : keptOf [';'] = [⟨some .semicolon, [';']⟩] := by
  rw [keptOf, pieces_cons]
  decide +kernel

theorem keptOf_literals (first : Quoted) (more : List Quoted) (rest : List Char) :
    keptOf ((" ".intercalate ((first :: more).map Quoted.literal)).toList ++ rest) =
      (first :: more).map Quoted.piece ++ keptOf rest := by
  induction more generalizing first with
  | nil =>
    rw [List.map_singleton, String.intercalate_singleton, keptOf_literal]
    rfl
  | cons second more ih =>
    rw [List.map_cons, List.map_cons, String.intercalate_cons_cons, String.toList_append,
      String.toList_append, List.append_assoc, List.append_assoc, keptOf_literal,
      List.map_cons, List.cons_append, ← ih, List.map_cons]
    exact congrArg _ keptOf_blank

end

/-- The word, the modifier, the parts and the semicolon are all that becomes tokens. -/
theorem WrittenImport.keptPieces_source (written : WrittenImport) (h : written.parts ≠ []) :
    keptPieces written.source = ⟨some (.keyword .kwImport), "import".toList⟩ ::
      (written.pieces ++ [⟨some .semicolon, [';']⟩]) := by
  obtain ⟨modifier?, parts⟩ := written
  obtain ⟨first, more, rfl⟩ := List.exists_cons_of_ne_nil h
  have literals := keptOf_literals first more [';']
  rw [keptOf_semicolon] at literals
  change keptOf _ = _
  rw [source, String.toList_append, String.toList_append, String.toList_append, List.append_assoc,
    List.append_assoc, keptOf_import]
  cases modifier? with
  | none => exact congrArg _ literals
  | some modifier =>
    rw [Option.elim_some, String.toList_append, List.append_assoc]
    refine congrArg _ ((keptOf_modifier modifier).trans ?_)
    exact congrArg _ literals

section

variable {buffer : TokenBuffer} {lexeme : Lexeme}

theorem TokenBuffer.Made.literal {part : Quoted} (made : buffer.Made lexeme part.piece) :
    lexeme.kind = .stringLiteral ∧ lexeme.word? = none ∧
      buffer.text lexeme.index = part.literal := by
  have hkind : lexeme.kind = .stringLiteral := (Option.some.inj made.kind).symm
  refine ⟨hkind, ?_, made.text.trans String.ofList_toList⟩
  rw [word?_eq_ofText? made.mem, hkind]
  rfl

theorem TokenBuffer.Made.modifier {modifier : ImportModifier}
    (made : buffer.Made lexeme modifier.piece) : lexeme.kind = .identifier ∧
      lexeme.word? = some modifier.word ∧
      buffer.text lexeme.index = modifier.word.spelling := by
  have hkind : lexeme.kind = .identifier := (Option.some.inj made.kind).symm
  have htext := made.text.trans String.ofList_toList
  exact ⟨hkind, (word?_eq_some made.mem).mpr ⟨hkind, htext⟩, htext⟩

end

/-! ## Reading the tree -/

/-- The import statement that a tree stands for: what its leaves add, one after the other. -/
def Label.importStatement (label : Label) (children : Forest) (buffer : TokenBuffer) :
    ImportStatement :=
  (children.trees.filterMap fun below => below.1.token?).foldl
    (fun statement token => statement.withToken buffer token) ⟨"", false, false, label.token?⟩

namespace ParseTree

variable {tree : ParseTree} {forest children : Forest} {label : Label} {start : Nat}

/-- The roots of a forest are those of its trees. -/
theorem Shows.map_node? (h : tree.Shows start forest) : (forest.rootIds start).map tree.node? =
    forest.trees.map fun below => some (below.1.node below.2.size) := by
  induction forest generalizing start with
  | nil => rfl
  | cons label children rest _ ih =>
    obtain ⟨-, hnode, hrest⟩ := h
    rw [Forest.rootIds, Forest.trees, List.map_cons, List.map_cons, hnode, ih hrest]

theorem Shows.importAt_eq (h : tree.Shows start children)
    (hnode : tree.node? (start + children.size) = some (label.node children.size))
    (buffer : TokenBuffer) : tree.importAt buffer (start + children.size) =
      label.importStatement children buffer := by
  have tokens : (children.rootIds start).filterMap (fun child =>
      (tree.node? child).bind Node.token?) =
      children.trees.filterMap fun below => below.1.token? := by
    have hmap := congrArg (List.filterMap fun node? => node?.bind Node.token?) h.map_node?
    rwa [List.filterMap_map, List.filterMap_map] at hmap
  rw [importAt, h.children_eq hnode, List.reverse_reverse, tokens, hnode]
  rfl

/-- The imports of a file are its trees that stand for one and are not marked. -/
theorem Shows.imports_eq (h : tree.Shows 0 forest) (hsize : tree.size = forest.size)
    (buffer : TokenBuffer) : tree.imports buffer = (forest.trees.filter fun below =>
      below.1.kind? == some (.declaration .importing) && !below.1.failed).map fun below =>
        below.1.importStatement below.2 buffer := by
  rw [imports, soundRoots, h.roots_eq hsize, List.reverse_reverse]
  clear hsize
  generalize 0 = start at h
  induction forest generalizing start with
  | nil => rfl
  | cons label children rest _ ih =>
    obtain ⟨hchildren, hnode, hrest⟩ := h
    rw [Forest.rootIds, Forest.trees]
    cases hsound : label.kind? == some (.declaration .importing) && !label.failed with
    | false =>
      rw [List.filter_cons_of_neg (by simp [hnode, Label.node, hsound]),
        List.filter_cons_of_neg (by simp [hsound])]
      exact ih _ hrest
    | true =>
      rw [List.filter_cons_of_pos (by simp [hnode, Label.node, hsound]),
        List.filter_cons_of_pos (by simp [hsound]), List.map_cons, List.map_cons,
        hchildren.importAt_eq hnode, ih _ hrest]

end ParseTree

/-! ## Reading the statement -/

namespace ImportStatement

variable {buffer : TokenBuffer} {lexeme : Lexeme} {lexemes : List Lexeme}

/-- A literal is another part of the path. -/
theorem withToken_literal {part : Quoted} (made : buffer.Made lexeme part.piece)
    (statement : ImportStatement) : statement.withToken buffer lexeme.index =
      { statement with path := statement.path ++ part.text } := by
  obtain ⟨hkind, -, htext⟩ := made.literal
  rw [withToken, TokenBuffer.kindAt_index made.mem, hkind, htext, part.unquote_literal]

theorem withToken_modifier {modifier : ImportModifier} (made : buffer.Made lexeme modifier.piece)
    (path : String) (token? : Option Nat) :
    (⟨path, false, false, token?⟩ : ImportStatement).withToken buffer lexeme.index =
      ⟨path, some modifier == some .publicly, some modifier == some .weakly, token?⟩ := by
  obtain ⟨hkind, -, htext⟩ := made.modifier
  rw [withToken, TokenBuffer.kindAt_index made.mem, hkind, htext]
  cases modifier <;> rfl

/-- Other tokens add nothing. -/
theorem withToken_other {piece : Piece} (made : buffer.Made lexeme piece)
    (string : piece.kind? ≠ some .stringLiteral) (word : piece.kind? ≠ some .identifier)
    (statement : ImportStatement) : statement.withToken buffer lexeme.index = statement := by
  have hkind : some (buffer.kindAt lexeme.index) = piece.kind? := by
    rw [made.kind, TokenBuffer.kindAt_index made.mem]
  rw [withToken]
  split
  case h_1 h => exact absurd (hkind.symm.trans (congrArg some h)) string
  case h_2 h => exact absurd (hkind.symm.trans (congrArg some h)) word
  case h_3 => rfl

/-- A modifier is noted, if there is one. -/
theorem foldl_modifier {lexeme? : Option Lexeme} {modifier? : Option ImportModifier}
    (made : Option.Rel buffer.Made lexeme? (modifier?.map ImportModifier.piece)) (path : String)
    (token? : Option Nat) : (lexeme?.toList.map Lexeme.index).foldl
        (fun statement token => statement.withToken buffer token) ⟨path, false, false, token?⟩ =
      (⟨path, modifier? == some .publicly, modifier? == some .weakly, token?⟩ :
        ImportStatement) := by
  cases modifier? with
  | none =>
    cases made
    rfl
  | some modifier =>
    cases made with
    | some made => exact withToken_modifier made path token?

/-- Literals in a row are one path. -/
theorem foldl_literals {parts : List Quoted}
    (made : List.Forall₂ buffer.Made lexemes (parts.map Quoted.piece))
    (statement : ImportStatement) :
    (lexemes.map Lexeme.index).foldl (fun statement token => statement.withToken buffer token)
        statement =
      { statement with path := statement.path ++ String.join (parts.map Quoted.text) } := by
  induction parts generalizing lexemes statement with
  | nil =>
    obtain rfl := List.forall₂_nil_right_iff.mp made
    simp
  | cons part parts ih =>
    rw [List.map_cons] at made
    obtain ⟨lexeme, rest, hfirst, hrest, rfl⟩ := List.forall₂_cons_right_iff.mp made
    rw [List.map_cons, List.foldl_cons, withToken_literal hfirst, ih hrest, List.map_cons,
      String.join_cons, String.append_assoc]

end ImportStatement

/-! ## From the path to the source and back -/

theorem exists_of_forall₂_append {α β : Type} {related : α → β → Prop} {whole : List α}
    {front back : List β} (h : List.Forall₂ related whole (front ++ back)) :
    ∃ before after, whole = before ++ after ∧ List.Forall₂ related before front ∧
      List.Forall₂ related after back :=
  ⟨_, _, (List.take_append_drop front.length whole).symm, List.forall₂_take_append _ _ _ h,
    List.forall₂_drop_append _ _ _ h⟩

theorem exists_option_of_forall₂ {α β : Type} {related : α → β → Prop} {whole : List α}
    {other? : Option β} (h : List.Forall₂ related whole other?.toList) :
    ∃ one? : Option α, whole = one?.toList ∧ Option.Rel related one? other? := by
  cases other? with
  | none => exact ⟨none, List.forall₂_nil_right_iff.mp h, .none⟩
  | some other =>
    obtain ⟨one, rest, hone, hrest, rfl⟩ := List.forall₂_cons_right_iff.mp h
    obtain rfl := List.forall₂_nil_right_iff.mp hrest
    exact ⟨some one, rfl, .some hone⟩

namespace WrittenImport

variable {written : WrittenImport} {lexemes : ParseState.ImportLexemes} {buffer : TokenBuffer}

/-- The lexemes of a statement have been made of what was written. -/
structure Gives (written : WrittenImport) (buffer : TokenBuffer)
    (lexemes : ParseState.ImportLexemes) : Prop where
  word : buffer.Made lexemes.word ⟨some (.keyword .kwImport), "import".toList⟩
  modifier : Option.Rel buffer.Made lexemes.modifier? (written.modifier?.map ImportModifier.piece)
  strings : List.Forall₂ buffer.Made lexemes.strings (written.parts.map Quoted.piece)
  semicolon : buffer.Made lexemes.semicolon ⟨some .semicolon, [';']⟩

/-- The significant tokens are those of an import statement. -/
theorem exists_lexemes (h : written.parts ≠ []) : ∃ lexemes : ParseState.ImportLexemes,
    (tokenize written.source false).significant = lexemes.all ∧
      written.Gives (tokenize written.source false) lexemes := by
  have made := forall₂_significant written.source
  rw [written.keptPieces_source h, pieces, ← Option.toList_map] at made
  obtain ⟨word, rest, hword, hrest, hall⟩ := List.forall₂_cons_right_iff.mp made
  obtain ⟨front, last, rfl, hfront, hlast⟩ := exists_of_forall₂_append hrest
  obtain ⟨modifiers, strings, rfl, hmodifiers, hstrings⟩ := exists_of_forall₂_append hfront
  obtain ⟨modifier?, rfl, hmodifier⟩ := exists_option_of_forall₂ hmodifiers
  obtain ⟨semicolon, none, hsemicolon, hnone, rfl⟩ := List.forall₂_cons_right_iff.mp hlast
  obtain rfl := List.forall₂_nil_right_iff.mp hnone
  refine ⟨⟨word, modifier?, strings, semicolon, (Option.some.inj hword.kind).symm, ?_, ?_, ?_,
    (Option.some.inj hsemicolon.kind).symm⟩, hall, hword, hmodifier, hstrings, hsemicolon⟩
  · rintro lexeme rfl
    rcases hwritten : written.modifier? with _ | modifier
    · rw [hwritten] at hmodifier
      cases hmodifier
    · rw [hwritten] at hmodifier
      cases hmodifier with
      | some made => cases modifier with
        | publicly => exact .inl made.modifier.2.1
        | weakly => exact .inr made.modifier.2.1
  · have literals := (List.forall₂_map_right_iff.mp hstrings).imp fun _ _ made =>
      And.intro (And.intro made.literal.1 made.literal.2.1) made
    exact ((List.forall₂_and_left _ _).mp literals).1
  · rintro rfl
    exact h (List.map_eq_nil_iff.mp (List.forall₂_nil_left_iff.mp hstrings))

/-- The tree of a statement that was written stands for it. -/
theorem Gives.importStatement_eq (gives : written.Gives buffer lexemes)
    (first : lexemes.word.index = 0) :
    Label.importStatement ⟨some lexemes.word.index, false, some (.declaration .importing)⟩
      (.leaves lexemes.all) buffer = written.statement := by
  rw [Label.importStatement, Forest.tokens_leaves, ParseState.ImportLexemes.all, first]
  -- the word and the semicolon add nothing
  rw [List.map_cons, List.foldl_cons, ImportStatement.withToken_other gives.word (by simp)
    (by simp), List.map_append, List.foldl_append, List.map_singleton, List.foldl_cons,
    List.foldl_nil, ImportStatement.withToken_other gives.semicolon (by simp) (by simp)]
  rw [List.map_append, List.foldl_append, ImportStatement.foldl_modifier gives.modifier,
    ImportStatement.foldl_literals gives.strings, String.empty_append]
  rfl

/-- The first lexeme of a source is its first token. -/
theorem index_word (hlexemes : (tokenize written.source false).significant = lexemes.all) :
    lexemes.word.index = 0 := by
  have counted := index_significant written.source
  rw [hlexemes, ParseState.ImportLexemes.all, List.map_cons] at counted
  have hfirst := congrArg List.head? counted
  rw [List.head?_range] at hfirst
  split at hfirst
  · cases hfirst
  · exact Option.some.inj hfirst

/-- What a parse of the source makes: the tree of one statement, and no report. -/
theorem parseTokens_source (syncLimit : Nat)
    (hlexemes : (tokenize written.source false).significant = lexemes.all) :
    ((tokenize written.source false).parseTokens .file syncLimit).tree.nodes.toList =
        lexemes.forest.encode ∧
      ((tokenize written.source false).parseTokens .file syncLimit).diagnostics = [] := by
  obtain ⟨hnodes, hdiagnostics⟩ :=
    ParseState.run_importing lexemes (tokenize written.source false).endIndex syncLimit
  rw [← hlexemes] at hnodes hdiagnostics
  exact ⟨hnodes, congrArg Array.toList hdiagnostics⟩

/-- An import whose path has been written in parts is the only import of its source. Its path is
what the parts were written for, it is public or weak if that was written, and nothing is
reported. -/
theorem imports_source (written : WrittenImport) (h : written.parts ≠ []) (syncLimit : Nat) :
    ∃ parsed, (tokenize written.source false).parse .file syncLimit = .ok parsed ∧
      parsed.diagnostics = [] ∧
      parsed.tree.imports (tokenize written.source false) = [written.statement] := by
  obtain ⟨lexemes, hlexemes, gives⟩ := exists_lexemes h
  obtain ⟨hnodes, hdiagnostics⟩ := parseTokens_source syncLimit hlexemes
  refine ⟨(tokenize written.source false).parseTokens .file syncLimit, ?_, hdiagnostics, ?_⟩
  · rw [TokenBuffer.parse, if_neg (by simp [tokenize])]
  · rw [(ParseTree.shows_of_toList hnodes).imports_eq (ParseTree.size_of_toList hnodes),
      ParseState.ImportLexemes.forest, Forest.tree, Forest.trees, Forest.trees,
      List.filter_cons_of_pos rfl, List.filter_nil, List.map_singleton,
      gives.importStatement_eq (index_word hlexemes)]

/-- Parts that end with a backslash or begin with what would go on with an escape, that hold either
quote and a line feed, and that hold other controls and longer characters. -/
def escapes : WrittenImport :=
  ⟨some .publicly, [⟨.double, "it's \"a\"\\"⟩, ⟨.single, "x41\n\\101'\\"⟩, ⟨.double, ""⟩,
    ⟨.double, "\r\t\x00é🦀"⟩]⟩

theorem imports_source_escapes : escapes.parts ≠ [] ∧ ∃ parsed,
    (tokenize escapes.source false).parse .file defaultSyncLimit = .ok parsed ∧
      parsed.diagnostics = [] ∧ parsed.tree.imports (tokenize escapes.source false) =
        [⟨"it's \"a\"\\x41\n\\101'\\\r\t\x00é🦀", true, false, some 0⟩] := by
  have hparts : escapes.parts ≠ [] := List.cons_ne_nil _ _
  have hstatement : escapes.statement =
      ⟨"it's \"a\"\\x41\n\\101'\\\r\t\x00é🦀", true, false, some 0⟩ := by
    decide +kernel
  exact ⟨hparts, hstatement ▸ imports_source escapes hparts defaultSyncLimit⟩

example : (⟨some .weakly, [⟨.single, "a'b"⟩, ⟨.double, "a'b\\"⟩]⟩ : WrittenImport).source =
    "import weak 'a\\'b' \"a'b\\\\\";" := by
  decide +kernel

end WrittenImport

end ProtoFront
