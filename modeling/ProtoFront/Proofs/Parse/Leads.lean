import Mathlib.Data.List.Infix
import Mathlib.Logic.Function.Iterate
import ProtoFront.Proofs.Parse.Coverage
import ProtoFront.Proofs.Parse.Frames

/-!
# Several steps

`s.Leads t` says that some steps lead from `s` to `t`. Whatever a step keeps, several steps keep,
and nodes are only ever added. A run goes on until nothing changes any more, so it finds the one
state without goals that the steps lead to.
-/

namespace ProtoFront

open ParseState

variable {entry now : Pending} {s t u final : ParseState} {before : Nat} {buffer : TokenBuffer}

/-! ## Nodes and reports are added, and lexemes are read -/

theorem prefix_nodes_addLeaf (tag? : Option NodeKind) (failed : Bool) :
    s.nodes.toList <+: (s.addLeaf tag? failed).nodes.toList := by
  rcases hrest : s.cursor.rest with _ | ⟨next, rest⟩
  · rw [s.addLeaf_of_rest_eq_nil _ _ hrest]
  · rw [s.nodes_addLeaf _ _ hrest, Array.toList_push]
    exact List.prefix_append _ _

theorem prefix_nodes_close (tag? : Option NodeKind) :
    s.nodes.toList <+: (s.close now tag?).nodes.toList := by
  rw [close_eq, nodes_letGo, nodes_addParent, Array.toList_push]
  exact List.prefix_append _ _

theorem prefix_nodes_addSynthetic (tag : NodeKind) (failed : Bool) :
    s.nodes.toList <+: (s.addSynthetic tag failed).nodes.toList := by
  rw [addSynthetic, Array.toList_push]
  exact List.prefix_append _ _

theorem Moves.prefix_nodes (h : Moves entry s now t) : s.nodes.toList <+: t.nodes.toList := by
  induction h with
  | start => exact List.prefix_refl _
  | leaf tag? _ _ _ ih => exact ih.trans (prefix_nodes_addLeaf _ _)
  | discard _ _ _ ih => exact ih.trans (prefix_nodes_addLeaf _ _)
  | report expected _ ih => exact ih
  | breaks _ _ ih => exact ih
  | resync start _ _ ih => exact ih
  | range _ _ _ _ _ ih ih' =>
    rw [nodes_addParent, Array.toList_push]
    exact (ih.trans ih').trans (List.prefix_append _ _)

theorem Ends.prefix_nodes (h : Ends before now t final) :
    t.nodes.toList <+: final.nodes.toList := by
  cases h with
  | finish | goOn | delegate | enter | replace | parenthesize => exact List.prefix_refl _
  | pass => rw [nodes_letGo]
  | close tag? => exact prefix_nodes_close tag?
  | separate => exact (prefix_nodes_close _).trans (prefix_nodes_addLeaf _ _)
  | terminate => exact (prefix_nodes_close _).trans (prefix_nodes_addSynthetic _ _)
  | closeScope => exact (prefix_nodes_addSynthetic _ _).trans (prefix_nodes_close _)
  | closeBody =>
    rw [nodes_letGo]
    exact prefix_nodes_addLeaf _ _
  | cutBody =>
    rw [nodes_letGo]
    split
    · exact prefix_nodes_addSynthetic _ _
    · exact List.prefix_refl _
  | junk => exact prefix_nodes_addLeaf _ _

theorem Sound.prefix_nodes_step (h : Sound s) : s.nodes.toList <+: s.step.nodes.toList := by
  by_cases running : s.pending = []
  · rw [ParseState.step, running]
  · obtain ⟨top, t, -, -, -, rfl, now, u, moves, ends⟩ := h.handled running
    exact moves.prefix_nodes.trans ends.prefix_nodes

/-- What has been reported stays in front of what is reported later. -/
theorem Moves.prefix_diagnostics (h : Moves entry s now t) :
    s.diagnostics.toList <+: t.diagnostics.toList := by
  induction h with
  | start => exact List.prefix_refl _
  | leaf tag? _ _ _ ih => rwa [diagnostics_addLeaf]
  | discard _ _ _ ih => rwa [ParseState.discard, diagnostics_addLeaf]
  | report expected _ ih =>
    rw [ParseState.report, Array.toList_push]
    exact ih.trans (List.prefix_append _ _)
  | breaks _ _ ih => exact ih
  | resync start _ _ ih => exact ih
  | range _ _ _ _ _ ih ih' => exact ih.trans ih'

theorem Sound.prefix_diagnostics_step (h : Sound s) :
    s.diagnostics.toList <+: s.step.diagnostics.toList := by
  by_cases running : s.pending = []
  · rw [ParseState.step, running]
  · obtain ⟨top, t, -, -, -, rfl, now, u, moves, ends⟩ := h.handled running
    rw [ends.diagnostics_eq]
    exact moves.prefix_diagnostics

/-- Nothing is put back into the input. -/
theorem Sound.rest_step_suffix (h : Sound s) : s.step.cursor.rest <:+ s.cursor.rest := by
  by_cases running : s.pending = []
  · rw [ParseState.step, running]
  · obtain ⟨top, t, -, -, -, rfl, now, u, moves, ends⟩ := h.handled running
    rcases ends.cursor_eq with hcursor | hcursor
    · rw [hcursor]
      exact moves.rest_suffix
    · rw [hcursor]
      exact (List.tail_suffix _).trans moves.rest_suffix

/-! ## From one state to another -/

/-- Some steps lead from one state to another. -/
def ParseState.Leads (s t : ParseState) : Prop := ∃ n, ParseState.step^[n] s = t

namespace ParseState.Leads

theorem refl (s : ParseState) : s.Leads s := ⟨0, rfl⟩

theorem of_step (h : s.step.Leads t) : s.Leads t := by
  obtain ⟨n, hn⟩ := h
  exact ⟨n + 1, hn⟩

theorem step (s : ParseState) : s.Leads s.step := of_step (refl _)

theorem trans (h : s.Leads t) (h' : t.Leads u) : s.Leads u := by
  obtain ⟨n, rfl⟩ := h
  obtain ⟨m, rfl⟩ := h'
  exact ⟨m + n, Function.iterate_add_apply _ _ _ _⟩

/-- What every step keeps, all steps keep. -/
theorem keeps (holds : ParseState → Prop) (h : s.Leads t) (hs : holds s)
    (hstep : ∀ u, holds u → holds u.step) : holds t := by
  obtain ⟨n, rfl⟩ := h
  induction n generalizing s with
  | zero => exact hs
  | succ n ih => exact ih (hstep s hs)

theorem sound (h : s.Leads t) (hs : Sound s) : Sound t := h.keeps Sound hs fun _ hu => hu.step

theorem reads (h : s.Leads t) (hs : Sound s) (reads : s.Reads buffer) : t.Reads buffer :=
  (h.keeps (fun u => Sound u ∧ u.Reads buffer) ⟨hs, reads⟩
    fun _ hu => ⟨hu.1.step, hu.2.step hu.1⟩).2

/-- What every step at a sound state keeps, all steps from a sound state keep. -/
theorem keeps_sound (holds : ParseState → Prop) (h : s.Leads t) (hs : Sound s) (start : holds s)
    (hstep : ∀ u, Sound u → holds u → holds u.step) : holds t :=
  (h.keeps (fun u => Sound u ∧ holds u) ⟨hs, start⟩
    fun u hu => ⟨hu.1.step, hstep u hu.1 hu.2⟩).2

theorem prefix_nodes (h : s.Leads t) (hs : Sound s) : s.nodes.toList <+: t.nodes.toList :=
  h.keeps_sound (fun u => s.nodes.toList <+: u.nodes.toList) hs (List.prefix_refl _)
    fun _ hu hnodes => hnodes.trans hu.prefix_nodes_step

theorem prefix_diagnostics (h : s.Leads t) (hs : Sound s) :
    s.diagnostics.toList <+: t.diagnostics.toList :=
  h.keeps_sound (fun u => s.diagnostics.toList <+: u.diagnostics.toList) hs (List.prefix_refl _)
    fun _ hu hdiagnostics => hdiagnostics.trans hu.prefix_diagnostics_step

theorem rest_suffix (h : s.Leads t) (hs : Sound s) : t.cursor.rest <:+ s.cursor.rest :=
  h.keeps_sound (fun u => u.cursor.rest <:+ s.cursor.rest) hs (List.suffix_refl _)
    fun _ hu hrest => hu.rest_step_suffix.trans hrest

theorem accounted_eq (h : s.Leads t) (hs : Sound s) : t.accounted = s.accounted :=
  h.keeps_sound (fun u => u.accounted = s.accounted) hs rfl
    fun _ hu haccounted => hu.accounted_step.trans haccounted

theorem price_le (h : s.Leads t) (hs : Sound s) : t.price ≤ s.price := by
  refine h.keeps_sound (fun u => u.price ≤ s.price) hs (Int.le_refl _) fun u hu hprice => ?_
  by_cases running : u.pending = []
  · rwa [ParseState.step, running]
  · have hlt := hu.price_step_lt running
    omega

/-! ## To the end of a run -/

theorem run (s : ParseState) (fuel : Nat) : s.Leads (s.run fuel) := by
  induction fuel generalizing s with
  | zero => exact refl s
  | succ fuel ih =>
    rw [run_succ]
    exact of_step (ih s.step)

/-- Where no goal is left the steps lead nowhere else. -/
theorem eq_of_pending_eq_nil (h : s.Leads t) (ended : s.pending = []) : t = s := by
  refine h.keeps (fun u => u = s) rfl fun u hu => ?_
  rw [hu, ParseState.step, ended]

/-- The steps lead to one state without goals only. -/
theorem unique (h : s.Leads t) (h' : s.Leads u) (ended : t.pending = []) (ended' : u.pending = []) :
    t = u := by
  obtain ⟨n, rfl⟩ := h
  obtain ⟨m, rfl⟩ := h'
  rcases Nat.le_total n m with hle | hle
  · obtain ⟨k, rfl⟩ := Nat.exists_eq_add_of_le' hle
    rw [Function.iterate_add_apply]
    exact (eq_of_pending_eq_nil ⟨k, rfl⟩ ended).symm
  · obtain ⟨k, rfl⟩ := Nat.exists_eq_add_of_le' hle
    rw [Function.iterate_add_apply]
    exact eq_of_pending_eq_nil ⟨k, rfl⟩ ended'

end ParseState.Leads

/-- A parse ends with the state without goals that the steps lead to from its beginning. -/
theorem TokenBuffer.parseTokens_eq_of_leads {fragment : Fragment} {syncLimit : Nat}
    (h : (initial buffer.cursor fragment syncLimit).Leads final) (ended : final.pending = []) :
    buffer.parseTokens fragment syncLimit =
      ⟨⟨final.nodes⟩, final.diagnostics.toList, final.events.toList⟩ := by
  have sound := buffer.sound_initial fragment syncLimit
  have finished := sound.pending_run _ (price_initial_le buffer.cursor fragment syncLimit)
  rw [← (Leads.run _ _).unique h finished ended]
  rfl

end ProtoFront
