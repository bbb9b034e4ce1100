import Mathlib.Logic.Relation
import ProtoFront.Bundle.Load

/-!
# What can be seen from a file

The files that can be seen from a file are found with a stack. All that has been found and whose
public imports are not all found has them on the stack (`Bundle.Covered`), so in the end the files
that have been found are closed under public imports. What has been found is reached by an import
of any sort, and behind it by public ones (`Bundle.Sees`).
-/

namespace ProtoFront

namespace Bundle

variable {bundle other : Bundle} {file target : Nat} {visible stack : List Nat}

/-- Whether a file can refer to what another one declares: they are the same, or an import leads
to the other, directly or by further imports that are public. -/
def Sees (bundle : Bundle) (file target : Nat) : Prop :=
  target = file ∨ ∃ first ∈ bundle.directImports file false,
    Relation.ReflTransGen (fun importer imported => imported ∈ bundle.directImports importer true)
      first target

theorem lt_size_of_directImports {publicOnly : Bool}
    (h : target ∈ bundle.directImports file publicOnly) : target < bundle.files.size := by
  rw [directImports] at h
  split at h
  case h_1 => cases h
  case h_2 source =>
    obtain ⟨entry, -, hfound⟩ := List.mem_filterMap.mp h
    exact (Array.findIdx?_eq_some_iff_getElem.mp hfound).1

/-- The public imports of a file are among its imports. -/
theorem directImports_subset (bundle : Bundle) (file : Nat) :
    bundle.directImports file true ⊆ bundle.directImports file false := by
  rw [directImports, directImports]
  split
  case h_1 => exact List.Subset.refl _
  case h_2 source =>
    refine List.filterMap_subset _ fun entry hentry => ?_
    rw [List.mem_filter] at hentry ⊢
    exact ⟨hentry.1, rfl⟩

/-! ## What is found -/

theorem mem_of_mem_reveal (h : target ∈ bundle.reveal visible stack) :
    target ∈ visible ∨ ∃ first ∈ stack,
      Relation.ReflTransGen (fun importer imported => imported ∈ bundle.directImports importer true)
        first target := by
  fun_induction reveal bundle visible stack
  case case1 => exact .inl h
  case case2 visible file stack fresh ih =>
    rcases ih h with hvisible | ⟨first, hfirst, hpath⟩
    · rcases List.mem_cons.mp hvisible with rfl | hvisible
      · exact .inr ⟨target, List.mem_cons_self, .refl⟩
      · exact .inl hvisible
    · rcases List.mem_append.mp hfirst with himport | hstack
      · exact .inr ⟨file, List.mem_cons_self, .head himport hpath⟩
      · exact .inr ⟨first, List.mem_cons_of_mem _ hstack, hpath⟩
  case case3 visible file stack known ih =>
    rcases ih h with hvisible | ⟨first, hfirst, hpath⟩
    · exact .inl hvisible
    · exact .inr ⟨first, List.mem_cons_of_mem _ hfirst, hpath⟩

/-! ## What is not missed -/

/-- The public imports of what has been found have been found, or are on the stack. -/
def Covered (bundle : Bundle) (visible stack : List Nat) : Prop :=
  ∀ file ∈ visible, bundle.directImports file true ⊆ visible ++ stack

/-- A file that is found goes from the stack to what has been found. -/
theorem subset_of_found :
    visible ++ file :: stack ⊆ file :: visible ++ (bundle.directImports file true ++ stack) := by
  intro other hother
  simp only [List.mem_append, List.mem_cons] at hother ⊢
  rcases hother with hvisible | rfl | hstack
  · exact .inl (.inr hvisible)
  · exact .inl (.inl rfl)
  · exact .inr (.inr hstack)

theorem Covered.found (covered : bundle.Covered visible (file :: stack)) :
    bundle.Covered (file :: visible) (bundle.directImports file true ++ stack) := by
  intro other hother target htarget
  rcases List.mem_cons.mp hother with rfl | hother
  · exact List.mem_append_right _ (List.mem_append_left _ htarget)
  · exact subset_of_found (covered other hother htarget)

/-- A file that has been found before may be dropped from the stack. -/
theorem subset_of_known (known : file ∈ visible) : visible ++ file :: stack ⊆ visible ++ stack := by
  intro other hother
  rcases List.mem_append.mp hother with hvisible | hstack
  · exact List.mem_append_left _ hvisible
  · rcases List.mem_cons.mp hstack with rfl | hstack
    · exact List.mem_append_left _ known
    · exact List.mem_append_right _ hstack

theorem Covered.known (covered : bundle.Covered visible (file :: stack))
    (known : file ∈ visible) : bundle.Covered visible stack :=
  fun other hother _ htarget => subset_of_known known (covered other hother htarget)

/-- Nothing on the stack is missed, nor are public imports. -/
theorem reveal_closed (covered : bundle.Covered visible stack)
    (inside : ∀ file ∈ stack, file < bundle.files.size) :
    visible ++ stack ⊆ bundle.reveal visible stack ∧
      bundle.Covered (bundle.reveal visible stack) [] := by
  fun_induction reveal bundle visible stack
  case case1 visible =>
    rw [List.append_nil]
    exact ⟨List.Subset.refl _, covered⟩
  case case2 visible file stack fresh ih =>
    have inside' (other : Nat) (hother : other ∈ bundle.directImports file true ++ stack) :
        other < bundle.files.size := by
      rcases List.mem_append.mp hother with himport | hstack
      · exact lt_size_of_directImports himport
      · exact inside other (List.mem_cons_of_mem _ hstack)
    obtain ⟨revealed, closed⟩ := ih covered.found inside'
    exact ⟨List.Subset.trans subset_of_found revealed, closed⟩
  case case3 visible file stack known ih =>
    have seen : file ∈ visible := Decidable.byContradiction fun hnew =>
      known ⟨inside file List.mem_cons_self, by simpa using hnew⟩
    obtain ⟨revealed, closed⟩ := ih (covered.known seen) fun other hother =>
      inside other (List.mem_cons_of_mem _ hother)
    exact ⟨List.Subset.trans (subset_of_known seen) revealed, closed⟩

/-- The files that can be seen from a file of the bundle are those that it sees. -/
theorem mem_visibleFiles (hfile : file < bundle.files.size) :
    target ∈ bundle.visibleFiles file ↔ bundle.Sees file target := by
  have start : bundle.Covered [file] (bundle.directImports file false) := by
    intro other hother target htarget
    obtain rfl := List.mem_singleton.mp hother
    exact List.mem_append_right _ (bundle.directImports_subset _ htarget)
  obtain ⟨found, closed⟩ := reveal_closed start fun other hother => lt_size_of_directImports hother
  rw [visibleFiles, List.mem_filter, List.mem_range, List.contains_iff_mem]
  constructor
  · rintro ⟨-, hrevealed⟩
    rcases mem_of_mem_reveal hrevealed with hself | himported
    · exact .inl (List.mem_singleton.mp hself)
    · exact .inr himported
  · rintro (rfl | ⟨first, hfirst, hpath⟩)
    · exact ⟨hfile, found (by simp)⟩
    · induction hpath with
      | refl => exact ⟨lt_size_of_directImports hfirst, found (by simp [hfirst])⟩
      | tail _ himport ih =>
        refine ⟨lt_size_of_directImports himport, ?_⟩
        have hcovered := closed _ ih.2 himport
        rwa [List.append_nil] at hcovered

/-- What can be seen depends on the imports only. -/
theorem visibleFiles_congr (size : bundle.files.size = other.files.size)
    (imports : ∀ file publicOnly target, target ∈ bundle.directImports file publicOnly ↔
      target ∈ other.directImports file publicOnly) (hfile : file < bundle.files.size) :
    bundle.visibleFiles file = other.visibleFiles file := by
  have sees (target : Nat) : bundle.Sees file target ↔ other.Sees file target := by
    rw [Sees, Sees]
    simp only [imports]
  have same (target : Nat) :
      target ∈ bundle.visibleFiles file ↔ target ∈ other.visibleFiles file := by
    rw [mem_visibleFiles hfile, mem_visibleFiles (size ▸ hfile), sees]
  simp only [visibleFiles, ← size, List.mem_filter, and_congr_right_iff] at same ⊢
  exact List.filter_congr fun target htarget => Bool.eq_iff_iff.mpr (same target htarget)

end Bundle

end ProtoFront
