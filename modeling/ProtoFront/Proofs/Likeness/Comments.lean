import Mathlib.Data.Nat.Nth
import ProtoFront.Proofs.Parse.Positions

/-!
# Comments are transparent

A buffer that has been rid of its comments is parsed as before. Only the numbers of the tokens
change: the `n`th token that is left is the `n`th one before that is no comment.

A cursor steps over the comments and so goes from one of these tokens to the next one
(`TokenBuffer.advance_plainIndex`). Therefore the two parsers stand at corresponding tokens after
every step.
-/

namespace ProtoFront

namespace TokenBuffer

variable (buffer : TokenBuffer)

/-- Whether there is no comment at a place. Behind the last token there is none. -/
def IsPlainAt (index : Nat) : Prop := (buffer.kindAt index).isComment = false

instance : DecidablePred buffer.IsPlainAt := fun _ => inferInstanceAs (Decidable (_ = _))

/-- Where the token with a number among those that are no comments stands. -/
noncomputable def plainIndex (n : Nat) : Nat := Nat.nth buffer.IsPlainAt n

variable {buffer}

theorem infinite_isPlainAt : (Set.ofPred buffer.IsPlainAt).Infinite := by
  refine Set.infinite_of_forall_exists_gt fun bound => ⟨buffer.size + bound + 1, ?_, by omega⟩
  show (buffer.kindAt _).isComment = false
  rw [kindAt, token?, Array.getElem?_eq_none (by rw [size]; omega)]
  rfl

theorem injective_plainIndex : Function.Injective buffer.plainIndex :=
  Nat.nth_injective infinite_isPlainAt

theorem plainIndex_count {index : Nat} (h : buffer.IsPlainAt index) :
    buffer.plainIndex (Nat.count buffer.IsPlainAt index) = index :=
  Nat.nth_count h

/-- The tokens in front of some place that are no comments, numbered among each other. -/
theorem filter_zipIdx_front {front : List Token} (h : front <+: buffer.tokens.toList) :
    (front.filter fun token => !token.kind.isComment).length =
        Nat.count buffer.IsPlainAt front.length ∧
      front.zipIdx.filter (fun entry => !entry.1.kind.isComment) =
        (front.filter fun token => !token.kind.isComment).zipIdx.map
          (Prod.map id buffer.plainIndex) := by
  induction front using List.reverseRecOn with
  | nil => exact ⟨rfl, rfl⟩
  | append_singleton front token ih =>
    obtain ⟨hlength, hfilter⟩ := ih ((List.prefix_append front [token]).trans h)
    have htoken : buffer.kindAt front.length = token.kind := by
      obtain ⟨rest, hrest⟩ := h
      rw [kindAt, token?, ← Array.getElem?_toList, ← hrest]
      simp
    have hplain : buffer.IsPlainAt front.length ↔ (!token.kind.isComment) = true := by
      rw [IsPlainAt, htoken, Bool.not_eq_true']
    rw [List.zipIdx_append, List.filter_append, List.filter_append, List.length_append,
      List.length_append, List.length_singleton, Nat.count_succ, hlength, hfilter,
      List.zipIdx_append, List.map_append, hlength]
    by_cases plain : buffer.IsPlainAt front.length
    · have hkept := hplain.mp plain
      simp [plain, hkept, plainIndex_count plain]
    · have hleft : ¬(!token.kind.isComment) = true := fun kept => plain (hplain.mpr kept)
      simp [plain, hleft]

theorem toList_tokens_withoutComments : buffer.withoutComments.tokens.toList =
    buffer.tokens.toList.filter fun token => !token.kind.isComment :=
  Array.toList_filter

/-- The tokens that are left are those at the places of the plain ones. -/
theorem token?_withoutComments (n : Nat) :
    buffer.withoutComments.token? n = buffer.token? (buffer.plainIndex n) := by
  obtain ⟨hlength, hfilter⟩ := filter_zipIdx_front (List.prefix_refl buffer.tokens.toList)
  rw [← toList_tokens_withoutComments] at hlength hfilter
  rcases hn : buffer.withoutComments.tokens.toList[n]? with _ | token
  · -- there are no more plain tokens than the buffer has tokens
    have hcount : Nat.count buffer.IsPlainAt buffer.tokens.toList.length ≤ n := by
      rw [← hlength]
      exact List.getElem?_eq_none_iff.mp hn
    have hle := (Nat.count_le_iff_le_nth infinite_isPlainAt).mp hcount
    rw [token?, token?, ← Array.getElem?_toList, hn, ← Array.getElem?_toList]
    exact (List.getElem?_eq_none hle).symm
  · have hmem : Prod.map id buffer.plainIndex (token, n) ∈
        buffer.withoutComments.tokens.toList.zipIdx.map (Prod.map id buffer.plainIndex) :=
      List.mem_map_of_mem (List.mem_zipIdx_iff_getElem?.mpr hn)
    rw [← hfilter, List.mem_filter, List.mem_zipIdx_iff_getElem?] at hmem
    rw [token?, token?, ← Array.getElem?_toList, hn, ← Array.getElem?_toList]
    exact hmem.1.symm

theorem text_withoutComments (n : Nat) :
    buffer.withoutComments.text n = buffer.text (buffer.plainIndex n) := by
  rw [text, text, offset?, offset?, token?_withoutComments]
  rfl

theorem lexeme_withoutComments (token : Token) (n : Nat) :
    buffer.lexeme token (buffer.plainIndex n) =
      (Likeness.shifted #[] buffer.plainIndex injective_plainIndex 0).lexeme
        (buffer.withoutComments.lexeme token n) := by
  rw [lexeme, ← text_withoutComments]
  rfl

/-! ## Stepping over comments -/

theorem kindAt_withoutComments (n : Nat) :
    buffer.withoutComments.kindAt n = buffer.kindAt (buffer.plainIndex n) := by
  rw [kindAt, kindAt, token?_withoutComments]

theorem isPlainAt_withoutComments (n : Nat) : buffer.withoutComments.IsPlainAt n := by
  rw [IsPlainAt, kindAt_withoutComments]
  exact Nat.nth_mem_of_infinite infinite_isPlainAt n

/-- A cursor passes over no token but comments. -/
theorem skipComments_eq (position : Nat) :
    buffer.skipComments position = buffer.plainIndex (Nat.count buffer.IsPlainAt position) := by
  fun_induction skipComments with
  | case1 position hcomment ih =>
    have passed : ¬buffer.IsPlainAt position := by
      rw [IsPlainAt, hcomment]
      exact Bool.noConfusion
    rw [ih, Nat.count_succ, if_neg passed, Nat.add_zero]
  | case2 position plain => exact (plainIndex_count (Bool.eq_false_iff.mpr plain)).symm

theorem skipComments_withoutComments (n : Nat) : buffer.withoutComments.skipComments n = n :=
  skipComments_of_plain (isPlainAt_withoutComments n)

/-- With the comments or without them, the next token is the next one. -/
theorem advance_plainIndex (n : Nat) : buffer.advance (buffer.plainIndex n) =
    buffer.plainIndex (buffer.withoutComments.advance n) := by
  have kind := buffer.kindAt_withoutComments n
  by_cases ends : buffer.withoutComments.kindAt n = .eof
  · rw [advance_of_eof ends, advance_of_eof (kind ▸ ends)]
  · rw [advance_of_ne_eof ends, advance_of_ne_eof (kind ▸ ends), skipComments_eq,
      skipComments_withoutComments]
    exact congrArg _ (Nat.count_nth_succ_of_infinite infinite_isPlainAt n)

theorem peek_plainIndex (n ahead : Nat) :
    buffer.peek (buffer.plainIndex n) ahead = buffer.withoutComments.peek n ahead := by
  induction ahead generalizing n with
  | zero => exact (kindAt_withoutComments n).symm
  | succ ahead ih => rw [peek_succ, peek_succ, advance_plainIndex, ih]

theorem lexemesFrom_plainIndex (n : Nat) : buffer.lexemesFrom (buffer.plainIndex n) =
    (buffer.withoutComments.lexemesFrom n).map
      (Likeness.shifted #[] buffer.plainIndex injective_plainIndex 0).lexeme := by
  have token := buffer.token?_withoutComments
  fun_induction lexemesFrom buffer.withoutComments n with
  | case1 n htoken =>
    refine lexemesFrom_of_eof ?_
    rw [kindAt, ← token, htoken]
  | case2 n last htoken ends =>
    refine lexemesFrom_of_eof ?_
    rw [← kindAt_withoutComments, kindAt_eq_of_token? htoken, ends]
  | case3 n next htoken there ih =>
    rw [lexemesFrom_of_token? ((token n).symm.trans htoken) there, List.map_cons,
      advance_plainIndex, ih, lexeme_withoutComments]

/-- The parser reads the same tokens under other numbers. -/
theorem significant_withoutComments : buffer.significant =
    buffer.withoutComments.significant.map
      (Likeness.shifted #[] buffer.plainIndex injective_plainIndex 0).lexeme := by
  rw [significant, skipComments_eq, Nat.count_zero, lexemesFrom_plainIndex, significant,
    skipComments_withoutComments]

theorem endIndex_withoutComments :
    buffer.endIndex = buffer.plainIndex buffer.withoutComments.endIndex := by
  have ends := buffer.withoutComments.kindAt_endIndex
  rw [kindAt_withoutComments] at ends
  refine endIndex_eq ends fun index hindex => ?_
  by_cases plain : buffer.IsPlainAt index
  · -- it is the place of a token in front of the end of the other buffer
    rw [← plainIndex_count plain] at hindex ⊢
    rw [← kindAt_withoutComments]
    exact kindAt_ne_eof_of_lt List.nil_suffix
      ((Nat.nth_lt_nth infinite_isPlainAt).mp hindex)
  · exact kindAt_ne_eof_of_isComment (Bool.not_eq_false _ ▸ plain)

end TokenBuffer

/-- Whether the comments of a source are kept makes no difference to its parse, except that the
tokens have other numbers: the `n`th token without the comments is the `n`th one with them that is
no comment. A cursor that steps over the comments looks at the same tokens as one that has none to
step over. Such a cursor is all that the parsers see, and after every step they stand at
corresponding tokens. What is reported, and where, is the same. -/
theorem parse_withoutComments (source : String) (fragment : Fragment) (syncLimit : Nat) :
    let full := tokenize source true
    let plain := tokenize source false
    let place := Nat.nth fun index => (full.kindAt index).isComment = false
    StrictMono place ∧ (∀ n, plain.token? n = full.token? (place n)) ∧
      full.skipComments 0 = place (plain.skipComments 0) ∧
      (∀ n, full.advance (place n) = place (plain.advance n)) ∧
      (∀ n ahead, full.peek (place n) ahead = plain.peek n ahead) ∧
      (∀ steps,
        let s := (ParseState.initial full.cursor fragment syncLimit).run steps
        let t := (ParseState.initial plain.cursor fragment syncLimit).run steps
        s.Sees full ∧ t.Sees plain ∧ s.position = place t.position) ∧
      ∃ parsed parsed', full.parse fragment syncLimit = .ok parsed ∧
        plain.parse fragment syncLimit = .ok parsed' ∧
        parsed.tree.nodes = parsed'.tree.nodes.map (Node.rename place) ∧
        parsed.diagnostics = parsed'.diagnostics.map (Diagnostic.rename place) ∧
        ∀ diagnostic : Diagnostic,
          (diagnostic.rename place).location full = diagnostic.location plain := by
  intro full plain place
  have hplain : plain = full.withoutComments := tokenize_withoutComments source
  have token (n : Nat) : plain.token? n = full.token? (place n) := by
    rw [hplain]
    exact TokenBuffer.token?_withoutComments n
  have first : full.skipComments 0 = place (plain.skipComments 0) := by
    rw [hplain, TokenBuffer.skipComments_withoutComments, TokenBuffer.skipComments_eq,
      Nat.count_zero]
    rfl
  have next (n : Nat) : full.advance (place n) = place (plain.advance n) := by
    rw [hplain]
    exact TokenBuffer.advance_plainIndex n
  have ahead (n ahead : Nat) : full.peek (place n) ahead = plain.peek n ahead := by
    rw [hplain]
    exact TokenBuffer.peek_plainIndex n ahead
  have rest : full.significant = plain.significant.map
      (Likeness.shifted #[] place full.injective_plainIndex 0).lexeme := by
    rw [hplain]
    exact TokenBuffer.significant_withoutComments
  have ends : full.endIndex = place plain.endIndex := by
    rw [hplain]
    exact TokenBuffer.endIndex_withoutComments
  obtain ⟨nodes, diagnostics⟩ := TokenBuffer.parseTokens_shifted full.injective_plainIndex 0
    rest ends fragment syncLimit syncLimit
  refine ⟨Nat.nth_strictMono TokenBuffer.infinite_isPlainAt, token, first, next, ahead,
    fun steps => ?_, _, _, full.parse_eq_ok fragment syncLimit (tokens_tokenize_ne source true),
    plain.parse_eq_ok fragment syncLimit (tokens_tokenize_ne source false), nodes, diagnostics,
    fun diagnostic => ?_⟩
  · have alike := TokenBuffer.alike_run full.injective_plainIndex 0 rest ends fragment syncLimit
      syncLimit steps
    exact ⟨full.sees_run fragment syncLimit steps, plain.sees_run fragment syncLimit steps,
      alike.position_eq (.inl trivial)⟩
  · have lines : plain.lines = full.lines := rfl
    rw [Diagnostic.location, Diagnostic.location, TokenBuffer.lineColumn?,
      TokenBuffer.lineColumn?, token, lines]
    rfl

end ProtoFront
