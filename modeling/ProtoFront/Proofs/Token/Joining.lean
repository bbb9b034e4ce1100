import ProtoFront.Proofs.Token.Lexemes

/-!
# Cutting a source behind a line break

A source may be cut behind any of its line breaks, and both parts may be read for themselves: the
tokens of the whole are those of the first part and those of the second, as many lines further down
as the first part has. It does not matter what is wrong with either of them, strings that are not
closed and backslashes at the end of the line included. Only a block comment must not be open at the
line break (`tokenize_join`).
-/

namespace ProtoFront

namespace Lexer

variable {source : String} {keepComments : Bool} {token : Token}

theorem exists_piece_of_mem (h : token ∈ sourceTokens keepComments source) :
    ∃ piece ∈ pieces source.toList, Covers source.toList token piece := by
  obtain ⟨index, hindex, rfl⟩ := List.mem_iff_getElem.mp h
  obtain ⟨hlength, covers⟩ := List.forall₂_iff_get.mp (covers_sourceTokens keepComments source)
  have hpiece := hlength ▸ hindex
  exact ⟨_, (List.mem_filter.mp (List.getElem_mem hpiece)).1, covers index hindex hpiece⟩

/-- Only the last token is an end marker. -/
theorem filter_tokens (keepComments : Bool) (source : String) :
    ((tokenize source keepComments).tokens.toList.filter fun token => token.kind != .eof) =
      sourceTokens keepComments source := by
  rw [toList_tokens, List.filter_append, List.filter_eq_self.mpr]
  · exact List.append_nil _
  · intro token htoken
    obtain ⟨piece, hpiece, covers⟩ := exists_piece_of_mem htoken
    exact bne_iff_ne.mpr fun heof => kind?_ne_eof hpiece (heof ▸ covers.kind)

end Lexer

open Lexer

/-- Behind a line break a source is read as if it began there. The tokens are those of the part in
front of it, without its end marker, and those of the part behind it, as many lines further down as
the first part has lines, with the same texts. The lines are those of both parts, too. All that is
asked is that no block comment is open at the line break. -/
theorem tokenize_join (first second : String) (keepComments : Bool)
    (closed : ∀ index, (tokenize first true).kindAt index = .invalid →
      ¬['/', '*'] <+: ((tokenize first true).text index).toList) :
    let joined := tokenize (first ++ "\n" ++ second) keepComments
    let front := tokenize first keepComments
    let back := tokenize second keepComments
    let fronts := front.tokens.toList.filter fun token => token.kind != .eof
    joined.tokens.toList = fronts ++ back.tokens.toList.map (Token.down front.lines.size) ∧
      (∀ index < fronts.length, joined.text index = front.text index) ∧
      (∀ index, joined.text (index + fronts.length) = back.text index) ∧
      joined.lines.toList = front.lines.toList ++ back.lines.toList.map fun line =>
        { line with start := line.start + (first.utf8ByteSize + 1) } := by
  intro joined front back fronts
  have unopened : ∀ piece ∈ pieces first.toList, ¬piece.IsOpenComment := by
    rintro piece hpiece ⟨hkind, hslash⟩
    have kept : piece.isKept true = true := by rw [Piece.isKept, hkind]; rfl
    obtain ⟨index, hindex⟩ := List.mem_iff_getElem?.mp (List.mem_filter.mpr ⟨hpiece, kept⟩)
    obtain ⟨token, hget, covers⟩ := exists_covers hindex
    have htoken := token?_tokenize hget
    refine closed index ?_ ?_
    · rw [TokenBuffer.kindAt, htoken]
      exact Option.some.inj (covers.kind.symm.trans hkind)
    · rwa [TokenBuffer.text_of_covers rfl htoken covers, String.toList_ofList]
  have hfronts : fronts = sourceTokens keepComments first := filter_tokens keepComments first
  rw [hfronts]
  exact ⟨tokens_join second keepComments unopened,
    fun index hindex => text_join_left second unopened hindex,
    text_join_right second keepComments unopened, lines_join first second keepComments⟩

/-- A string that is not closed, with a backslash in front of the line break. -/
theorem tokenize_join_openString :
    (∀ index, (tokenize "a \"b\\" true).kindAt index = .invalid →
      ¬['/', '*'] <+: ((tokenize "a \"b\\" true).text index).toList) ∧
      (tokenize ("a \"b\\" ++ "\n" ++ "\" c") false).tokens.toList =
        [⟨.identifier, 0, 0, 1⟩, ⟨.invalid, 0, 2, 2⟩, ⟨.invalid, 0, 4, 1⟩,
          ⟨.invalid, 1, 0, 3⟩, ⟨.eof, 1, 3, 0⟩] := by
  have size : (tokenize "a \"b\\" true).tokens.size = 4 := by decide +kernel
  have inside : ∀ index < 4, (tokenize "a \"b\\" true).kindAt index = .invalid →
      ¬['/', '*'] <+: ((tokenize "a \"b\\" true).text index).toList := by decide +kernel
  have closed : ∀ index, (tokenize "a \"b\\" true).kindAt index = .invalid →
      ¬['/', '*'] <+: ((tokenize "a \"b\\" true).text index).toList := by
    intro index hkind
    refine inside index ?_ hkind
    by_contra houtside
    have hnone : (tokenize "a \"b\\" true).token? index = none :=
      Array.getElem?_eq_none (by omega)
    rw [TokenBuffer.kindAt, hnone] at hkind
    cases hkind
  refine ⟨closed, (tokenize_join "a \"b\\" "\" c" false closed).1.trans ?_⟩
  decide +kernel

end ProtoFront
