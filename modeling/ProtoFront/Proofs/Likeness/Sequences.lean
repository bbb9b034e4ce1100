import ProtoFront.Proofs.Grammar.Refusals
import ProtoFront.Proofs.Likeness.Blocks
import ProtoFront.Proofs.Token.Lexemes

/-!
# One source behind another

Where nothing is wrong with a source, a second one may follow on the next line, whatever is wrong
with that one: the statements of the first are read as before, and then the second is parsed as if
there were nothing in front of it.
-/

namespace ProtoFront

open Lexer ParseState

variable {first second : String} {front : List Lexeme} {nodes : List Node}

/-! ## The tokens -/

section

variable (valid : ∀ piece ∈ pieces first.toList, piece.kind? ≠ some .invalid)
include valid

/-- The significant tokens of the first source, and then those of the second one, further down. -/
theorem significant_join (made : Array Node) :
    (tokenize (first ++ "\n" ++ second) false).significant = (tokenize first false).significant ++
      (tokenize second false).significant.map
        (Likeness.shifted made (· + (plainTokens first).length) (fun _ _ => Nat.add_right_cancel)
          (lineCount first)).lexeme := by
  have shift : ((plainTokens second).map (Token.down (lineCount first))).zipIdx
      (plainTokens first).length = (plainTokens second).zipIdx.map fun entry =>
        (entry.1.down (lineCount first), entry.2 + (plainTokens first).length) := by
    rw [List.zipIdx_map, List.zipIdx_eq_map_add, List.map_map]
    exact List.map_congr_left fun entry _ => congrArg (Prod.mk _) (Nat.add_comm _ _)
  rw [significant_tokenize, significant_tokenize, significant_tokenize, plainTokens_join valid,
    List.zipIdx_append, Nat.zero_add, shift, List.map_append, List.map_map, List.map_map]
  congr 1
  · refine List.map_congr_left fun entry hentry => ?_
    have htoken := List.mem_zipIdx_iff_getElem?.mp hentry
    have htext := text_join_left second (not_isOpenComment valid)
      (List.getElem?_eq_some_iff.mp htoken).1
    simp only [TokenBuffer.lexeme, htext]
  · refine List.map_congr_left fun entry hentry => ?_
    have htext : (tokenize (first ++ "\n" ++ second) false).text
        (entry.2 + (plainTokens first).length) = _ :=
      text_join_right second false (not_isOpenComment valid) entry.2
    simp only [Function.comp_apply, TokenBuffer.lexeme, htext]
    rfl

theorem endIndex_join : (tokenize (first ++ "\n" ++ second) false).endIndex =
    (tokenize second false).endIndex + (plainTokens first).length := by
  rw [endIndex_tokenize, endIndex_tokenize, plainTokens_join valid, List.length_append,
    List.length_map, Nat.add_comm]

end

/-! ## The parse -/

/-- A buffer that goes on behind a clean file is parsed as that file and then as what comes behind
it. -/
theorem TokenBuffer.parseTokens_behind {clean other joined : TokenBuffer} {token : Nat → Nat}
    (injective : Function.Injective token) {lines syncLimit : Nat}
    (unreported : (clean.parseTokens .file syncLimit).diagnostics = [])
    (rest : joined.significant = clean.significant ++ other.significant.map (Likeness.shifted
      (clean.parseTokens .file syncLimit).tree.nodes token injective lines).lexeme)
    (ends : joined.endIndex = token other.endIndex) :
    (joined.parseTokens .file syncLimit).tree.nodes =
        (clean.parseTokens .file syncLimit).tree.nodes ++
          (other.parseTokens .file syncLimit).tree.nodes.map (Node.rename token) ∧
      (joined.parseTokens .file syncLimit).diagnostics =
        (other.parseTokens .file syncLimit).diagnostics.map (Diagnostic.rename token) := by
  have same : List.Forall₂ (Lexeme.Matches id) clean.significant clean.significant :=
    List.forall₂_same.mpr fun _ _ => ⟨rfl, rfl, rfl⟩
  have sound := joined.sound_initial .file syncLimit
  obtain ⟨t, leads, pending, hrest, diagnostics, nodes⟩ := carries_of_clean unreported id
    (initial joined.cursor .file syncLimit) _ _ (between_initial _ _).among rest same
  have hends : t.cursor.endIndex = token other.endIndex :=
    (leads.reads sound ⟨List.suffix_refl _, rfl⟩).endIndex.trans ends
  have hnodes : t.nodes = (clean.parseTokens .file syncLimit).tree.nodes := by
    rw [← Array.toList_inj, nodes, Node.rename_id, List.map_id]
    rfl
  -- from here on the parse is like that of the second buffer
  have start := alike_initial .file syncLimit hrest hends hnodes diagnostics pending rfl rfl
  have alike := start.run (other.sound_initial .file syncLimit) trivial
    (stepBound other.significant.length)
  have ended := (other.sound_initial .file syncLimit).pending_run _
    (price_initial_le other.cursor .file syncLimit)
  have ended' := alike.stack.eq_below ended
  rw [parseTokens_eq_of_leads (leads.trans (.run t _)) ended']
  dsimp only
  rw [Likeness.nodes_shifted_iff.mp alike.nodes, Likeness.reports_shifted_iff.mp alike.reports,
    Array.toList_map]
  exact ⟨rfl, rfl⟩

theorem valid_of_clean {fragment : Fragment} {syncLimit : Nat}
    (clean : ((tokenize first false).parseTokens fragment syncLimit).diagnostics = []) :
    ∀ piece ∈ pieces first.toList, piece.kind? ≠ some .invalid := by
  refine valid_pieces fun token htoken => ?_
  obtain ⟨index, hindex⟩ := List.mem_iff_getElem?.mp htoken
  have hentry : (token, index) ∈ (plainTokens first).zipIdx :=
    List.mem_zipIdx_iff_getElem?.mpr hindex
  have hlexeme :
      (tokenize first false).lexeme token index ∈ (tokenize first false).significant := by
    rw [significant_tokenize]
    exact List.mem_map_of_mem hentry
  exact TokenBuffer.kind_ne_invalid clean hlexeme

/-- A diagnostic of the second source is located as in a source of its own, further down. -/
theorem location_join (valid : ∀ piece ∈ pieces first.toList, piece.kind? ≠ some .invalid)
    (diagnostic : Diagnostic) :
    (diagnostic.rename (· + (plainTokens first).length)).location
        (tokenize (first ++ "\n" ++ second) false) =
      ((diagnostic.location (tokenize second false)).1 + lineCount first,
        (diagnostic.location (tokenize second false)).2) := by
  have htoken : (tokenize (first ++ "\n" ++ second) false).token?
      (diagnostic.token + (plainTokens first).length) = _ :=
    token?_join second false (not_isOpenComment valid) diagnostic.token
  have hcount : (tokenize (first ++ "\n" ++ second) false).lines.size =
      lineCount first + (tokenize second false).lines.size := lineCount_join
  have hpos : 0 < (tokenize second false).lines.size := lineCount_pos second
  rw [Diagnostic.location, Diagnostic.location, TokenBuffer.lineColumn?, TokenBuffer.lineColumn?,
    Diagnostic.rename, htoken]
  rcases (tokenize second false).token? diagnostic.token with _ | token
  · dsimp only [Option.map_none]
    rw [hcount, lastLength_join, Nat.max_eq_left (by omega), Nat.max_eq_left hpos]
    exact congrArg (·, _) (Nat.add_comm _ _)
  · exact congrArg (·, _) (Nat.add_right_comm _ _ _)

theorem countP_tokens (source : String) :
    ((tokenize source false).tokens.toList.countP fun token => token.kind != .eof) =
      (plainTokens source).length := by
  have there : (plainTokens source).countP (fun token => token.kind != .eof) =
      (plainTokens source).length :=
    List.countP_eq_length.mpr fun token htoken =>
      bne_iff_ne.mpr (kind_of_mem_plainTokens htoken).1
  rw [toList_tokens_tokenize, List.countP_append, there]
  rfl

/-- Parsing composes at statements: if nothing is reported about a source, a second source on the
next line is parsed behind it as it is alone. The tree is that of the first source and then that of
the second one, and what is reported is what is reported about the second one. Only the tokens have
other numbers, as many higher as the first source has tokens, and what is reported is as many lines
further down as the first source has lines. -/
theorem parseSource_join (first second : String)
    (clean : (parseSource first).2.diagnostics = []) :
    let joined := parseSource (first ++ "\n" ++ second)
    let count := (parseSource first).1.tokens.toList.countP fun token => token.kind != .eof
    let lines := (parseSource first).1.lines.size
    joined.2.tree.nodes = (parseSource first).2.tree.nodes ++
        (parseSource second).2.tree.nodes.map (Node.rename (· + count)) ∧
      joined.2.diagnostics =
        (parseSource second).2.diagnostics.map (Diagnostic.rename (· + count)) ∧
      ∀ diagnostic : Diagnostic,
        (diagnostic.rename (· + count)).location joined.1 =
          ((diagnostic.location (parseSource second).1).1 + lines,
            (diagnostic.location (parseSource second).1).2) := by
  intro joined count lines
  have valid := valid_of_clean clean
  have hcount : count = (plainTokens first).length := countP_tokens first
  rw [hcount]
  obtain ⟨nodes, diagnostics⟩ := TokenBuffer.parseTokens_behind (fun _ _ => Nat.add_right_cancel)
    clean (significant_join valid _) (endIndex_join valid)
  exact ⟨nodes, diagnostics, location_join valid⟩

theorem parseSource_join_package : (parseSource "package a;").2.diagnostics = [] ∧
    (parseSource "message A").2.diagnostics ≠ [] ∧
      (parseSource ("package a;" ++ "\n" ++ "message A")).2.diagnostics =
        (parseSource "message A").2.diagnostics.map (Diagnostic.rename (· + 3)) := by
  have clean : (parseSource "package a;").2.diagnostics = [] := by decide +kernel
  have broken : (parseSource "message A").2.diagnostics ≠ [] := by decide +kernel
  have count : ((parseSource "package a;").1.tokens.toList.countP
      fun token => token.kind != .eof) = 3 := by decide +kernel
  obtain ⟨-, diagnostics, -⟩ := parseSource_join "package a;" "message A" clean
  rw [count] at diagnostics
  exact ⟨clean, broken, diagnostics⟩

end ProtoFront
