import ProtoFront.Proofs.Likeness.Bodies
import ProtoFront.Proofs.Likeness.Comments
import ProtoFront.Proofs.Likeness.Sequences

/-!
# A body in its place

A body that is parsed on its own means the same as between the braces of a declaration. If nothing
is reported about it alone, nothing is reported about the declaration, and the nodes of the body
stand in the tree of the declaration, only that the word, the name and the brace in front of it are
counted as well (`parse_embed`).
-/

namespace ProtoFront

open Lexer ParseState

variable {buffer : TokenBuffer} {kind : ScopeKind} {front copy : List Lexeme} {block : List Node}
variable {word name brace close : Lexeme} {token : Nat → Nat} {source : String}

/-! ## Between the braces -/

/-- A closing brace with nothing behind it ends the body, the declaration and the file. -/
theorem ParseState.leads_of_close {s : ParseState} {origin : Origin}
    (hrest : s.cursor.rest = [close]) (hclose : close.kind = .closer .brace)
    (hpending : s.pending = [⟨.body (.scope kind), origin, 0, false⟩,
      ⟨.declarationEnd (.scope kind), origin, 0, false⟩, ⟨.file, origin, 0, false⟩]) :
    ∃ final, s.Leads final ∧ final.pending = [] ∧ final.diagnostics = s.diagnostics ∧
      final.nodes.toList = s.nodes.toList ++ [⟨some close.index, 1, false, some .scopeClose⟩,
        ⟨some origin.token, s.nodes.size + 2, false, some (.declaration (.scope kind))⟩] := by
  obtain ⟨⟨rest, endIndex⟩, nodes, pending, diagnostics, guard, events⟩ := s
  dsimp only at hrest hpending
  subst hrest hpending
  refine ⟨_, .of_step (.of_step (.step _)), ?_, ?_, ?_⟩
  all_goals
    simp [step, pursue, body, file, topLevel?, ParseState.kind, Cursor.kind, hclose, addLeaf,
      BodyKind.closeTag?, ParseState.close, addParent]

/-- The statements of a body between braces. -/
theorem TokenBuffer.parseTokens_scope
    (rest : buffer.significant = word :: name :: brace :: (copy ++ [close]))
    (hword : word.kind = .keyword kind.word)
    (opens : topLevel? (.keyword kind.word) = some (.scope kind))
    (hname : name.kind.isIdentifierLike = true) (hbrace : brace.kind = .opener .brace)
    (hclose : close.kind = .closer .brace) (same : List.Forall₂ (Lexeme.Matches token) front copy)
    (carries : Carries (statement? (.scope kind)) front block) (syncLimit : Nat) :
    (buffer.parseTokens .file syncLimit).diagnostics = [] ∧
      (buffer.parseTokens .file syncLimit).tree.nodes.toList =
        [⟨some word.index, 1, false, none⟩, ⟨some name.index, 1, false, some .name⟩,
          ⟨some brace.index, 1, false, none⟩] ++ block.map (Node.rename token) ++
        [⟨some close.index, 1, false, some .scopeClose⟩, ⟨some word.index, block.length + 5, false,
          some (.declaration (.scope kind))⟩] := by
  have opening := step_step_initial kind buffer.cursor rest hword opens hname hbrace syncLimit
  have leads : (initial buffer.cursor .file syncLimit).Leads
      (initial buffer.cursor .file syncLimit).step.step := .of_step (.step _)
  generalize (initial buffer.cursor .file syncLimit).step.step = opened at opening leads
  have within : opened.Among (statement? (.scope kind)) := by
    rw [opening]
    exact ⟨_, _, rfl, rfl⟩
  obtain ⟨t, leads', pending, hrest, diagnostics, nodes⟩ :=
    carries token opened copy [close] within (by rw [opening]) same
  rw [opening] at pending diagnostics nodes
  obtain ⟨final, leads'', ended, hdiagnostics, hnodes⟩ := leads_of_close hrest hclose pending
  rw [parseTokens_eq_of_leads (leads.trans (leads'.trans leads'')) ended]
  refine ⟨congrArg Array.toList (hdiagnostics.trans diagnostics), ?_⟩
  have hsize : t.nodes.size = block.length + 3 := by
    rw [← Array.length_toList, nodes, List.length_append, List.length_map]
    exact Nat.add_comm 3 block.length
  have horigin : buffer.cursor.origin.token = word.index := by
    rw [Cursor.origin, show buffer.cursor.rest = _ from rest]
  rw [hnodes, nodes, hsize, horigin]

/-! ## The tokens of a declaration -/

/-- The line that opens a scope: its word, its name and a brace. -/
def ScopeKind.opening (kind : ScopeKind) (name : String) : String :=
  kind.word.spelling ++ " " ++ name ++ " \x7b"

theorem map_kind_opening (kind : ScopeKind) {name : String} (hname : isWord name.toList = true) :
    (plainTokens (kind.opening name)).map Token.kind =
      [.keyword kind.word, .ofWord name, .opener .brace] := by
  have hword : isWord kind.word.spelling.toList = true := by cases kind <;> rfl
  have hkind : TokenKind.ofWord kind.word.spelling = .keyword kind.word := by
    cases kind <;> decide +kernel
  have hplain := TokenKind.isComment_of_isIdentifierLike (isIdentifierLike_ofWord name)
  have hsource : (kind.opening name).toList = kind.word.spelling.toList ++
      ' ' :: (name.toList ++ ' ' :: ['\x7b']) := by
    simp [ScopeKind.opening, String.toList_append]
  have hbrace : extent '\x7b' [] = (some (.opener .brace), 0) := by decide +kernel
  rw [map_kind_plainTokens, hsource, pieces_word hword rfl, pieces_word hname rfl, pieces_cons,
    String.ofList_toList, String.ofList_toList, hkind, hbrace]
  simp [pieces, hplain, show (TokenKind.keyword kind.word).isComment = false from rfl,
    show (TokenKind.opener .brace).isComment = false from rfl]

/-- The line that opens a scope has three tokens. -/
theorem exists_significant_opening (kind : ScopeKind) {name : String}
    (hname : isWord name.toList = true) :
    ∃ word id brace, (tokenize (kind.opening name) false).significant = [word, id, brace] ∧
      word.kind = .keyword kind.word ∧ word.index = 0 ∧ id.kind.isIdentifierLike = true ∧
      id.index = 1 ∧ brace.kind = .opener .brace ∧ brace.index = 2 := by
  obtain ⟨word, tokens, hword, hkind, htokens⟩ :=
    List.map_eq_cons_iff.mp (map_kind_opening kind hname)
  obtain ⟨id, tokens', rfl, hid, htokens'⟩ := List.map_eq_cons_iff.mp htokens
  obtain ⟨brace, tokens'', rfl, hbrace, hnil⟩ := List.map_eq_cons_iff.mp htokens'
  obtain rfl := List.map_eq_nil_iff.mp hnil
  rw [significant_tokenize, hword]
  refine ⟨_, _, _, rfl, hkind, rfl, ?_, rfl, hbrace, rfl⟩
  show id.kind.isIdentifierLike = true
  rw [hid]
  exact isIdentifierLike_ofWord name

/-- A closing brace is a token. -/
theorem exists_significant_close : ∃ close, (tokenize "\x7d" false).significant = [close] ∧
    close.kind = .closer .brace ∧ close.index = 0 := by
  have hbrace : extent '\x7d' [] = (some (.closer .brace), 0) := by decide +kernel
  have hkinds : (plainTokens "\x7d").map Token.kind = [.closer .brace] := by
    rw [map_kind_plainTokens, show "\x7d".toList = ['\x7d'] from rfl, pieces_cons, hbrace]
    simp [pieces, TokenKind.isComment]
  obtain ⟨close, tokens, hclose, hkind, hnil⟩ := List.map_eq_cons_iff.mp hkinds
  obtain rfl := List.map_eq_nil_iff.mp hnil
  rw [significant_tokenize, hclose]
  exact ⟨_, rfl, hkind, rfl⟩

/-- The tokens of a declaration that is written around a body. -/
theorem exists_significant_embed (kind : ScopeKind) {name : String}
    (hname : isWord name.toList = true)
    (valid : ∀ piece ∈ pieces source.toList, piece.kind? ≠ some .invalid) :
    ∃ word id brace copy close,
      (tokenize (kind.opening name ++ "\n" ++ (source ++ "\n" ++ "\x7d")) false).significant =
        word :: id :: brace :: (copy ++ [close]) ∧
      word.kind = .keyword kind.word ∧ word.index = 0 ∧ id.kind.isIdentifierLike = true ∧
      id.index = 1 ∧ brace.kind = .opener .brace ∧ brace.index = 2 ∧
      List.Forall₂ (Lexeme.Matches (· + 3)) (tokenize source false).significant copy ∧
      close.kind = .closer .brace ∧ close.index = (tokenize source false).endIndex + 3 := by
  have hkinds := map_kind_opening kind hname
  have hlength : (plainTokens (kind.opening name)).length = 3 := by
    rw [← List.length_map Token.kind, hkinds]
    rfl
  have hvalid : ∀ piece ∈ pieces (kind.opening name).toList, piece.kind? ≠ some .invalid := by
    refine valid_pieces fun token htoken hinvalid => ?_
    have hmem : token.kind ∈ (plainTokens (kind.opening name)).map Token.kind :=
      List.mem_map_of_mem htoken
    have hword := isIdentifierLike_ofWord name
    rw [hkinds, hinvalid] at hmem
    simp at hmem
    rw [← hmem] at hword
    cases hword
  obtain ⟨word, id, brace, hopening, tokens⟩ := exists_significant_opening kind hname
  obtain ⟨close, hclose, hkind, hindex⟩ := exists_significant_close
  obtain ⟨hword, hzero, hid, hone, hbrace, htwo⟩ := tokens
  have joined : (tokenize (kind.opening name ++ "\n" ++ (source ++ "\n" ++ "\x7d"))
      false).significant = _ := significant_join hvalid #[]
  rw [significant_join valid #[], hopening, hclose, List.map_append, hlength] at joined
  refine ⟨word, id, brace, _, _, joined, hword, hzero, hid, hone, hbrace, htwo, ?_, hkind, ?_⟩
  · rw [List.forall₂_map_right_iff]
    exact List.forall₂_same.mpr fun _ _ => ⟨rfl, rfl, rfl⟩
  · rw [endIndex_tokenize]
    show close.index + _ + 3 = _
    rw [hindex, Nat.zero_add]

/-! ## In place -/

/-- A body about which nothing is reported means the same in its place: between the braces of a
declaration with any name there is nothing to report either, and the tree of the declaration is made
of its word, its name and a brace, the nodes of the body with their tokens counted on, and the other
brace, which closes the scope. -/
theorem parse_embed (fragment : Fragment) (kind : ScopeKind)
    (body : fragment.goal = .fragmentBody kind) (name source : String)
    (hname : isWord name.toList = true) (limit limit' : Nat) (inner : ParsedFile)
    (hinner : (tokenize source false).parse fragment limit = .ok inner)
    (clean : inner.diagnostics = []) :
    ∃ outer, (tokenize (kind.word.spelling ++ " " ++ name ++ " \x7b" ++ "\n" ++ source ++ "\n" ++
        "\x7d") false).parse .file limit' = .ok outer ∧ outer.diagnostics = [] ∧
      outer.tree.nodes = #[⟨some 0, 1, false, none⟩, ⟨some 1, 1, false, some .name⟩,
          ⟨some 2, 1, false, none⟩] ++ inner.tree.nodes.map (Node.rename (· + 3)) ++
        #[⟨some ((tokenize source false).endIndex + 3), 1, false, some .scopeClose⟩,
          ⟨some 0, inner.tree.nodes.size + 5, false, some (.declaration (.scope kind))⟩] := by
  rw [TokenBuffer.parse_eq_ok _ _ _ (tokens_tokenize_ne source false)] at hinner
  obtain rfl := Except.ok.inj hinner
  have opens : topLevel? (.keyword kind.word) = some (.scope kind) := by
    cases fragment <;> cases body <;> rfl
  obtain ⟨word, id, brace, copy, close, rest, hword, hzero, hid, hone, hbrace, htwo, same, hclose,
    hindex⟩ := exists_significant_embed kind hname (valid_of_clean clean)
  have carries := TokenBuffer.carries_of_clean_body body clean
  obtain ⟨unreported, nodes⟩ :=
    TokenBuffer.parseTokens_scope rest hword opens hid hbrace hclose same carries limit'
  have hsource : kind.word.spelling ++ " " ++ name ++ " \x7b" ++ "\n" ++ source ++ "\n" ++ "\x7d" =
      kind.opening name ++ "\n" ++ (source ++ "\n" ++ "\x7d") := by
    simp [ScopeKind.opening, String.append_assoc]
  rw [hsource]
  refine ⟨_, TokenBuffer.parse_eq_ok _ _ _ (tokens_tokenize_ne _ false), unreported, ?_⟩
  rw [← Array.toList_inj, nodes, hzero, hone, htwo, hindex]
  simp

theorem parse_embed_mapField : isWord "M".toList = true ∧
    ∃ inner, (tokenize "map<int32, T> f = 1 [(o) = \x7ba: [1]\x7d]; enum E \x7b\x7d" false).parse
        .messageBody 0 = .ok inner ∧ inner.diagnostics = [] ∧
      ∃ outer, (tokenize ("message" ++ " " ++ "M" ++ " \x7b" ++ "\n" ++
          "map<int32, T> f = 1 [(o) = \x7ba: [1]\x7d]; enum E \x7b\x7d" ++ "\n" ++ "\x7d")
          false).parse .file 10 = .ok outer ∧ outer.diagnostics = [] ∧
        outer.tree.nodes.size = inner.tree.nodes.size + 5 := by
  let source := "map<int32, T> f = 1 [(o) = \x7ba: [1]\x7d]; enum E \x7b\x7d"
  have clean : ((tokenize source false).parseTokens .messageBody 0).diagnostics = [] := by
    decide +kernel
  have parsed :=
    (tokenize source false).parse_eq_ok .messageBody 0 (tokens_tokenize_ne source false)
  obtain ⟨outer, houter, unreported, nodes⟩ :=
    parse_embed .messageBody .message rfl "M" source rfl 0 10 _ parsed clean
  refine ⟨rfl, _, parsed, clean, outer, houter, unreported, ?_⟩
  rw [nodes]
  simp only [Array.size_append, Array.size_map, List.size_toArray, List.length_cons,
    List.length_nil]
  omega

end ProtoFront
