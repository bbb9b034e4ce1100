import ProtoFront.Proofs.Likeness.Buffers
import ProtoFront.Proofs.Parse.Leads

/-!
# The layout decides nothing of the grammar

Only recoveries look at lines and columns, and a recovery comes after a report. So two buffers whose
tokens have the same kinds, and spell the same words of the context, are parsed alike until the
first report, whatever their layout and their other texts are: they have the same tree, or the
first report of both is the same.
-/

namespace ProtoFront

open ParseState

variable {x : Likeness} {s t : ParseState} {buffer other : TokenBuffer}

/-! ## The first report -/

/-- The first report of a run stays the first one. -/
theorem Sound.first_run {diagnostic : Diagnostic} (sound : Sound s)
    (h : s.diagnostics[0]? = some diagnostic) (fuel : Nat) :
    (s.run fuel).diagnostics[0]? = some diagnostic := by
  refine (Leads.run s fuel).keeps_sound (fun u => u.diagnostics[0]? = some diagnostic) sound h
    fun u hu first => ?_
  rw [← Array.getElem?_toList] at first ⊢
  obtain ⟨later, hlater⟩ := hu.prefix_diagnostics_step
  rw [← hlater, List.getElem?_append_left (List.getElem?_eq_some_iff.mp first).1, first]

/-- Parses that read their inputs to the end are alike, or both have reported the same first. -/
theorem Alike.run_whole (h : Alike x s t) (sound : Sound s) (sound' : Sound t) (whole : x.whole)
    (fuel : Nat) : Alike x (s.run fuel) (t.run fuel) ∨
      ∃ diagnostic, (s.run fuel).diagnostics[0]? = some diagnostic ∧
        (t.run fuel).diagnostics[0]? = some (diagnostic.rename x.token) := by
  induction fuel generalizing s t with
  | zero => exact .inl h
  | succ fuel ih =>
    have ended : t.pending.isEmpty = s.pending.isEmpty := by
      rcases h.stack.cases_whole whole with ⟨hs, ht⟩ | ⟨_, _, _, _, hs, ht, -, -⟩ <;> rw [hs, ht]
      rfl
    rw [ParseState.run, ParseState.run, ended]
    split
    case isTrue => exact .inl h
    case isFalse =>
      rcases h.step sound (.inl whole) (.inl whole) (.inl whole) with alike | strays
      · exact ih alike sound.step sound'.step
      · obtain ⟨diagnostic, hs, ht⟩ := strays.first whole
        exact .inr ⟨diagnostic, sound.step.first_run hs fuel, sound'.step.first_run ht fuel⟩

/-! ## Buffers in different layouts -/

/-- The tokens of the inputs have the same numbers, but not the same layout. -/
def Likeness.relaid : Likeness where
  first := .none
  second := .none
  token := id
  lines := 0
  whole := True
  exact := False
  whole_of_exact := False.elim
  injective_of_exact := False.elim
  alone_of_whole _ := ⟨rfl, rfl, rfl, rfl, rfl, rfl⟩

namespace TokenBuffer

/-- Another buffer with the same tokens for the grammar: as many, of the same kinds, and the
identifiers among them spell the same words of the context. -/
structure Relays (buffer other : TokenBuffer) : Prop where
  size : other.size = buffer.size
  kinds : ∀ index, other.kindAt index = buffer.kindAt index
  words : ∀ index, buffer.kindAt index = .identifier → ∀ word : ContextWord,
    other.text index = word.spelling ↔ buffer.text index = word.spelling

namespace Relays

theorem lexemes (h : buffer.Relays other) {lexeme lexeme' : Lexeme}
    (hlexeme : lexeme ∈ buffer.significant) (hlexeme' : lexeme' ∈ other.significant)
    (index : lexeme'.index = lexeme.index) : Likeness.relaid.Lexemes lexeme lexeme' := by
  have kind : lexeme'.kind = lexeme.kind := by
    rw [← kindAt_index hlexeme', index, h.kinds, kindAt_index hlexeme]
  refine ⟨index, kind, Option.ext fun word => ?_, False.elim⟩
  have words (hidentifier : lexeme.kind = .identifier) :=
    h.words lexeme.index (by rw [kindAt_index hlexeme, hidentifier]) word
  rw [word?_eq_some hlexeme', word?_eq_some hlexeme, kind, index]
  exact and_congr_right words

/-- The parser reads tokens with the same numbers in both buffers. -/
theorem significantIndices_eq (h : buffer.Relays other) :
    other.significantIndices = buffer.significantIndices := by
  rw [significantIndices, significantIndices, h.size]
  simp only [h.kinds]

theorem kinds_eq (h : buffer.Relays other) :
    other.tokens.toList.map Token.kind = buffer.tokens.toList.map Token.kind := by
  refine List.ext_getElem? fun index => ?_
  have kind (buffer : TokenBuffer) : (buffer.tokens.toList.map Token.kind)[index]? =
      if index < buffer.size then some (buffer.kindAt index) else none := by
    rw [List.getElem?_map, Array.getElem?_toList, kindAt, token?, TokenBuffer.size]
    split
    case isTrue hlt => rw [Array.getElem?_eq_getElem hlt]; rfl
    case isFalse hge => rw [Array.getElem?_eq_none (Nat.not_lt.mp hge)]; rfl
  rw [kind, kind, h.size, h.kinds]

theorem endIndex_eq (h : buffer.Relays other) : other.endIndex = buffer.endIndex := by
  have kinds := h.kinds_eq
  rw [← length_takeWhile_eof, ← length_takeWhile_eof]
  have front (buffer : TokenBuffer) :
      (buffer.tokens.toList.takeWhile fun token => token.kind != .eof).length =
        ((buffer.tokens.toList.map Token.kind).takeWhile (· != .eof)).length := by
    rw [List.takeWhile_map, List.length_map]
    rfl
  rw [front, front, kinds]

theorem rests (h : buffer.Relays other) {lexemes lexemes' : List Lexeme}
    (inside : lexemes ⊆ buffer.significant) (inside' : lexemes' ⊆ other.significant)
    (indices : lexemes'.map Lexeme.index = lexemes.map Lexeme.index) :
    Likeness.relaid.Rests lexemes lexemes' := by
  induction lexemes generalizing lexemes' with
  | nil =>
    rw [List.map_nil, List.map_eq_nil_iff] at indices
    rw [indices]
    exact .behind
  | cons next rest ih =>
    obtain ⟨next', rest', rfl, hindex, hrest⟩ := List.map_eq_cons_iff.mp indices
    exact .next (h.lexemes (inside List.mem_cons_self) (inside' List.mem_cons_self) hindex)
      (fun part => absurd trivial part)
      (ih (List.subset_of_cons_subset inside) (List.subset_of_cons_subset inside') hrest)

end Relays

end TokenBuffer

/-- Buffers with the same tokens for the grammar have the same tree and nothing is reported, or the
first report of both is the same. -/
theorem parse_relays (fragment : Fragment) (limit limit' : Nat) (nonempty : buffer.tokens ≠ #[])
    (relays : buffer.Relays other) :
    ∃ parsed parsed', buffer.parse fragment limit = .ok parsed ∧
      other.parse fragment limit' = .ok parsed' ∧
      ((parsed.diagnostics = [] ∧ parsed'.diagnostics = [] ∧ parsed'.tree = parsed.tree) ∨
        ∃ first, parsed.diagnostics.head? = some first ∧
          parsed'.diagnostics.head? = some first) := by
  have nonempty' : other.tokens ≠ #[] := by
    intro empty
    have size : buffer.size = 0 := by rw [← relays.size, TokenBuffer.size, empty, Array.size_empty]
    exact nonempty (Array.eq_empty_of_size_eq_zero size)
  refine ⟨_, _, buffer.parse_eq_ok fragment limit nonempty,
    other.parse_eq_ok fragment limit' nonempty', ?_⟩
  have indices : other.significant.map Lexeme.index = buffer.significant.map Lexeme.index := by
    rw [TokenBuffer.map_index_significant, TokenBuffer.map_index_significant,
      relays.significantIndices_eq]
  have length : other.cursor.rest.length = buffer.cursor.rest.length := by
    simpa [TokenBuffer.cursor] using congrArg List.length indices
  have start : Alike .relaid (initial buffer.cursor fragment limit)
      (initial other.cursor fragment limit') := by
    refine ⟨relays.rests (List.Subset.refl _) (List.Subset.refl _) indices,
      fun _ => relays.endIndex_eq, buffer.ordered_cursor, buffer.spelled_significant,
      ⟨#[], by simp [initial, pushGoal, Likeness.relaid, Surroundings.none]⟩,
      ⟨#[], by simp [initial, pushGoal, Likeness.relaid, Surroundings.none]⟩, ?_⟩
    refine .cons ⟨rfl, rfl, fun _ => ?_, fun inner => ?_⟩ .ground
    · cases fragment <;> rfl
    · exact absurd (by cases fragment <;> rfl) inner
  have runs := start.run_whole (buffer.sound_initial fragment limit)
    (other.sound_initial fragment limit') trivial (stepBound buffer.cursor.rest.length)
  rw [TokenBuffer.parseTokens, TokenBuffer.parseTokens, length]
  rcases runs with alike | ⟨diagnostic, hs, ht⟩
  · obtain ⟨made, hnodes, hnodes'⟩ := alike.nodes
    obtain ⟨found, hreports, hreports', hfound⟩ := alike.reports
    rw [hfound id] at hreports hreports'
    refine .inl ⟨?_, ?_, ?_⟩
    · simp [hreports, Likeness.relaid, Surroundings.none]
    · simp [hreports', Likeness.relaid, Surroundings.none]
    · dsimp only
      rw [hnodes, hnodes']
      simp [Likeness.relaid, Surroundings.none, Node.rename_id]
  · refine .inr ⟨diagnostic, ?_, ?_⟩
    · rw [List.head?_eq_getElem?, Array.getElem?_toList, hs]
    · rw [List.head?_eq_getElem?, Array.getElem?_toList, ht]
      rfl

/-- The cut message with another name and on several lines. -/
def TokenBuffer.spreadMessage : TokenBuffer :=
  ⟨"message\n Maximum\n\n\x7b", #[⟨.keyword .kwMessage, 0, 0, 7⟩, ⟨.identifier, 1, 1, 7⟩,
    ⟨.opener .brace, 3, 0, 1⟩], #[⟨0, 7⟩, ⟨8, 8⟩, ⟨17, 0⟩, ⟨18, 1⟩]⟩

theorem parse_relays_spreadMessage : TokenBuffer.cutMessage.tokens ≠ #[] ∧
    TokenBuffer.cutMessage.Relays TokenBuffer.spreadMessage ∧
    ∃ parsed parsed', TokenBuffer.cutMessage.parse .file 10 = .ok parsed ∧
      TokenBuffer.spreadMessage.parse .file 10 = .ok parsed' ∧
      ((parsed.diagnostics = [] ∧ parsed'.diagnostics = [] ∧ parsed'.tree = parsed.tree) ∨
        ∃ first, parsed.diagnostics.head? = some first ∧
          parsed'.diagnostics.head? = some first) := by
  have relays : TokenBuffer.cutMessage.Relays TokenBuffer.spreadMessage := by
    refine ⟨rfl, fun index => ?_, fun index identifier word => ?_⟩
    · match index with
      | 0 | 1 | 2 | _ + 3 => rfl
    · match index with
      | 0 | 2 | _ + 3 => cases identifier
      | 1 => cases word <;> decide
  exact ⟨by decide, relays, parse_relays .file 10 10 (by decide) relays⟩

end ProtoFront
