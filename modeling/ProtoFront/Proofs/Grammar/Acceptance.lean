import ProtoFront.Proofs.Grammar.Bodies
import ProtoFront.Proofs.Parse.Coverage

/-!
# The parser accepts its grammar

Every step of the parser keeps what its state owes: if nothing is reported, the rest of the input is
a word of what the goals stand for before the step if and only if it is one after it, and if
something is reported it was none. At the end nothing is left of either, so what decides is whether
anything has been reported.
-/

namespace ProtoFront

open ParseState

variable {entry now : Pending} {s t final : ParseState} {before : Nat} {buffer : TokenBuffer}

/-! ## Steps -/

/-- Pursuing a goal reads what the goal stands for. -/
theorem owes_pursue (h : Pursued entry s) (settled : Settled entry.goal.part s)
    (spelled : Spelled s.cursor.rest) (unmarked : entry.failed = false) :
    (s.pursue entry).Owes [] ↔ s.Owes [entry.goal.form] := by
  have ready := h.ready
  have awaited := settled.awaited
  rw [pursue]
  generalize entry.goal = goal at awaited ready ⊢
  cases goal with
  | file => exact owes_file awaited
  | fragmentBody kind => exact owes_fragmentBody awaited
  | body kind => exact owes_body
  | syntaxLevel => exact owes_syntaxLevel ready
  | importing => exact owes_importing spelled (beq_iff_eq.mp ready)
  | package => exact owes_package (beq_iff_eq.mp ready)
  | packageEnd => exact owes_statementEnd .package unmarked
  | option => exact owes_optionStatement (beq_iff_eq.mp ready)
  | optionAfterName => exact owes_optionAfterName unmarked
  | optionEnd => exact owes_statementEnd .option unmarked
  | optionName => exact owes_optionName
  | optionNamePart => exact owes_optionNamePart awaited
  | optionNameExtensionEnd => exact owes_optionNameExtensionEnd awaited unmarked
  | optionList => exact owes_optionList (beq_iff_eq.mp ready)
  | listOption => exact owes_listOption
  | listOptionAfterName => exact owes_listOptionAfterName unmarked
  | textList => exact owes_textList (beq_iff_eq.mp ready)
  | listAfterItem list failed => exact owes_listAfterItem unmarked
  | scope kind => exact owes_scope (beq_iff_eq.mp ready)
  | extend => exact owes_extend (beq_iff_eq.mp ready)
  | extendAfterName => exact owes_extendAfterName unmarked
  | field => exact owes_field
  | fieldAfterType => exact owes_fieldAfterType unmarked
  | mapFieldAfterValue => exact owes_mapFieldAfterValue unmarked
  | statementEnd kind => exact owes_statementEnd kind unmarked
  | enumValue => exact owes_enumValue
  | ranges kind => exact owes_ranges (beq_iff_eq.mp ready)
  | rangesItem kind => exact owes_rangesItem spelled
  | rpc => exact owes_rpc spelled (beq_iff_eq.mp ready)
  | rpcAfterInput => exact owes_rpcAfterInput spelled unmarked
  | rpcAfterOutput => exact owes_rpcAfterOutput unmarked
  | value => exact owes_value awaited
  | textMessage pair => exact owes_textMessage (beq_iff_eq.mp ready)
  | textMessageBody pair => exact owes_textMessageBody
  | textField => exact owes_textField ready
  | textFieldEnd => exact owes_textFieldEnd awaited
  | qualifiedName tag? => exact owes_qualifiedName awaited
  | qualifiedNameRest => exact owes_qualifiedNameRest awaited (beq_iff_eq.mp ready)
  | optionNameEnd | listOptionEnd | declarationEnd | qualifiedNameEnd =>
    -- these only close what has been read
    rw [Goal.form, owes_nothing]
    exact owes_close _

/-- What is owed before a step is owed after it. -/
theorem Sound.owes_step (h : Sound s) (spelled : Spelled s.cursor.rest) :
    s.step.Owes [] ↔ s.Owes [] := by
  by_cases reported : s.diagnostics = #[]
  · cases h with
    | finished pending => rw [ParseState.step, pending]
    | going top settled pursued =>
      -- nothing has failed as long as nothing has been reported
      have unmarked : top.failed = false := by
        refine Bool.eq_false_iff.mpr fun hfailed => pursued.reported ?_ reported
        rw [Pending.flagged, hfailed, Bool.true_or]
      exact owes_pursue pursued settled spelled unmarked
  · exact iff_of_false (not_owes (h.diagnostics_step_ne reported)) (not_owes reported)

/-! ## Runs -/

theorem Sound.owes_run (h : Sound s) (reads : s.Reads buffer) (fuel : Nat) :
    (s.run fuel).Owes [] ↔ s.Owes [] :=
  h.run_keeps_reading (fun u => u.Owes [] ↔ s.Owes []) reads Iff.rfl
    (fun _ sound hreads owes => (sound.owes_step hreads.spelled).trans owes) fuel

theorem owes_initial (cursor : Cursor) (fragment : Fragment) (syncLimit : Nat) :
    (initial cursor fragment syncLimit).Owes [] ↔ Derives fragment.goal.form cursor.rest [] := by
  constructor
  · rintro ⟨-, rest, hderives, hrest⟩
    obtain rfl : rest = [] := hrest
    exact hderives
  · exact fun hderives => ⟨rfl, [], hderives, rfl⟩

/-- When everything has been read, what has been reported decides. -/
theorem owes_finished (pending : s.pending = []) (rest : s.cursor.rest = []) :
    s.Owes [] ↔ s.diagnostics = #[] := by
  refine and_iff_left ?_
  rw [goals, pending]
  exact rest

/-- Nothing is reported about a buffer if and only if its lexemes are what the goal of the fragment
stands for. -/
theorem diagnostics_parseTokens (buffer : TokenBuffer) (fragment : Fragment) (syncLimit : Nat) :
    (buffer.parseTokens fragment syncLimit).diagnostics = [] ↔
      Derives fragment.goal.form buffer.significant [] := by
  have sound := buffer.sound_initial fragment syncLimit
  have reads : (initial buffer.cursor fragment syncLimit).Reads buffer :=
    ⟨List.suffix_refl _, rfl⟩
  have ended := sound.pending_run _ (price_initial_le buffer.cursor fragment syncLimit)
  -- from the last state back to the first one
  have rest := (sound.run (stepBound buffer.cursor.rest.length)).rest_eq_nil ended
  calc (buffer.parseTokens fragment syncLimit).diagnostics = []
      ↔ _ = #[] := Array.toList_eq_nil_iff
    _ ↔ _ := (owes_finished ended rest).symm
    _ ↔ _ := sound.owes_run reads _
    _ ↔ Derives fragment.goal.form buffer.significant [] := owes_initial ..

/-- The parser accepts exactly its grammar: nothing is reported about a file if and only if the
tokens in front of the first end marker that are no comments are a word of the grammar of files. -/
theorem diagnostics_eq_nil_iff (buffer : TokenBuffer) (syncLimit : Nat)
    (nonempty : buffer.tokens ≠ #[]) :
    ∃ parsed, buffer.parse .file syncLimit = .ok parsed ∧
      (parsed.diagnostics = [] ↔ Derives (.named .file) buffer.significant []) := by
  refine ⟨buffer.parseTokens .file syncLimit, ?_, ?_⟩
  · rw [TokenBuffer.parse, if_neg (by simpa using nonempty)]
  · rw [diagnostics_parseTokens]
    constructor
    · exact fun hrule => .named hrule
    · intro hnamed
      cases hnamed with
      | named hrule => exact hrule

/-- The message that is cut off is no word of the grammar, as the brace that is missing is
reported. -/
theorem diagnostics_cutMessage : TokenBuffer.cutMessage.tokens ≠ #[] ∧
    ∃ parsed, TokenBuffer.cutMessage.parse .file 0 = .ok parsed ∧
      (parsed.diagnostics = [] ↔ Derives (.named .file) TokenBuffer.cutMessage.significant []) ∧
      parsed.diagnostics = [⟨[.token (.closer .brace)], .eof, 3⟩] ∧
      ¬Derives (.named .file) TokenBuffer.cutMessage.significant [] := by
  obtain ⟨parsed, hparse, accepts⟩ := diagnostics_eq_nil_iff TokenBuffer.cutMessage 0 (by decide)
  obtain rfl := Except.ok.inj (TokenBuffer.parse_cutMessage.symm.trans hparse)
  refine ⟨by decide, _, hparse, accepts, rfl, fun derives => ?_⟩
  exact List.cons_ne_nil _ _ (accepts.mpr derives)

end ProtoFront
