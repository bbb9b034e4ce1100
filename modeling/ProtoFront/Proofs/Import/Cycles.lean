import Mathlib.Data.List.Permutation
import ProtoFront.Proofs.Import.Following

/-!
# Cycles of imports

No cycle is reported just when no file leads back to itself along imports, and what is reported are
cycles (`ImportGraph.cycles_exact`).

Not every cycle is reported, since no file is gone through twice. A cycle is left out if one of its
imports closes another that is reported, and otherwise it is reported as often as the import that
closes it is written (`ImportGraph.cycles_reported`).
-/

namespace ProtoFront

namespace ImportGraph

variable {graph : ImportGraph} {files other : List Path} {file target : Path}
  {walk : GraphWalk (List PathComponent)} {cycle : ImportCycle}

/-! ## Cycles -/

/-- Whether a file is among what another imports. -/
def Imports (graph : ImportGraph) (file target : Path) : Prop :=
  ∃ targets, graph.imports? file = some targets ∧ ∃ path ∈ targets, path.same target

instance (graph : ImportGraph) (file target : Path) : Decidable (graph.Imports file target) :=
  match h : graph.imports? file with
  | none => .isFalse fun ⟨_, hsome, _⟩ => by rw [h] at hsome; cases hsome
  | some targets => decidable_of_iff (∃ path ∈ targets, path.same target)
      ⟨fun hpath => ⟨targets, h, hpath⟩, fun ⟨_, hsome, hpath⟩ => by
        rw [h] at hsome
        exact Option.some.inj hsome ▸ hpath⟩

/-- Whether a list of files goes along imports to the file with which it began, and comes to no
other file twice. -/
def IsCycle (graph : ImportGraph) (files : List Path) : Prop :=
  ∃ first between last, files = first :: between ++ [last] ∧ last.same first ∧
    (first :: between).Pairwise (fun file other => ¬file.same other) ∧ files.IsChain graph.Imports

theorem edge_iff :
    Edge graph.targetKeys file.components target.components ↔ graph.Imports file target := by
  constructor
  · rintro ⟨keys, hkeys, htarget⟩
    rw [targetKeys_components, Option.map_eq_some_iff] at hkeys
    obtain ⟨targets, htargets, rfl⟩ := hkeys
    obtain ⟨path, hpath, hsame⟩ := List.mem_map.mp htarget
    exact ⟨targets, htargets, path, hpath, Path.same_iff.mpr hsame⟩
  · rintro ⟨targets, htargets, path, hpath, hsame⟩
    refine ⟨targets.map Path.components, ?_, ?_⟩
    · rw [targetKeys_components, htargets]
      rfl
    · rw [← Path.same_iff.mp hsame]
      exact List.mem_map_of_mem hpath

/-- An edge leads to the components of a file. -/
theorem exists_imports_of_edge {key : List PathComponent}
    (h : Edge graph.targetKeys file.components key) :
    ∃ target : Path, target.components = key ∧ graph.Imports file target := by
  obtain ⟨keys, hkeys, hkey⟩ := h
  have hgraph := hkeys
  rw [targetKeys_components, Option.map_eq_some_iff] at hkeys
  obtain ⟨targets, -, rfl⟩ := hkeys
  obtain ⟨target, -, rfl⟩ := List.mem_map.mp hkey
  exact ⟨target, rfl, edge_iff.mp ⟨_, hgraph, hkey⟩⟩

theorem transGen_iff :
    Relation.TransGen (Edge graph.targetKeys) file.components target.components ↔
      Relation.TransGen graph.Imports file target := by
  constructor
  · generalize hkey : file.components = key
    intro hpath
    induction hpath using Relation.TransGen.head_induction_on generalizing file with
    | single hedge =>
      rw [← hkey] at hedge
      exact .single (edge_iff.mp hedge)
    | head hedge _ ih =>
      rw [← hkey] at hedge
      obtain ⟨next, hnext, himports⟩ := exists_imports_of_edge hedge
      exact .head himports (ih hnext)
  · intro hpath
    exact Relation.TransGen.lift Path.components (fun _ _ himports => edge_iff.mpr himports)
      file target hpath

/-- Files lead back to themselves just when components do. -/
theorem exists_transGen_iff :
    (∃ key, Relation.TransGen (Edge graph.targetKeys) key key) ↔
      ∃ file, Relation.TransGen graph.Imports file file := by
  constructor
  · rintro ⟨key, hpath⟩
    -- the edge that leads to the components shows that they are those of a file
    obtain ⟨before, -, keys, hkeys, hkey⟩ := Relation.TransGen.tail'_iff.mp hpath
    rw [targetKeys, Option.map_eq_some_iff] at hkeys
    obtain ⟨entry, -, rfl⟩ := hkeys
    obtain ⟨file, -, rfl⟩ := List.mem_map.mp hkey
    exact ⟨file, transGen_iff.mp hpath⟩
  · rintro ⟨file, hpath⟩
    exact ⟨file.components, transGen_iff.mpr hpath⟩

theorem isCycle_iff :
    graph.IsCycle files ↔ IsRound graph.targetKeys (files.map Path.components) := by
  have hchain : (files.map Path.components).IsChain (Edge graph.targetKeys) ↔
      files.IsChain graph.Imports := by
    rw [List.isChain_map]
    exact List.IsChain.iff fun _ _ => edge_iff
  have hdistinct (files : List Path) : (files.map Path.components).Nodup ↔
      files.Pairwise fun file other => ¬file.same other := by
    rw [List.Nodup, List.pairwise_map]
    simp only [Path.same_iff, ne_eq]
  constructor
  · rintro ⟨first, between, last, rfl, hlast, honce, hfiles⟩
    refine ⟨first.components, between.map Path.components, ?_, ?_, hchain.mpr hfiles⟩
    · simp [Path.same_iff.mp hlast]
    · exact (hdistinct (first :: between)).mpr honce
  · rintro ⟨key, keys, hkeys, honce, htrip⟩
    obtain ⟨front, back, rfl, hfront, hback⟩ := List.map_eq_append_iff.mp hkeys
    obtain ⟨first, between, rfl, rfl, rfl⟩ := List.map_eq_cons_iff.mp hfront
    obtain ⟨last, rest, rfl, hlast, hrest⟩ := List.map_eq_cons_iff.mp hback
    obtain rfl := List.map_eq_nil_iff.mp hrest
    exact ⟨first, between, last, rfl, Path.same_iff.mpr hlast,
      (hdistinct (first :: between)).mp honce, hchain.mp htrip⟩

theorem keys_mem_found (hfound : walk.found = graph.cycles.map ImportCycle.keys)
    (hcycle : cycle ∈ graph.cycles) : cycle.keys ∈ walk.found := by
  rw [hfound]
  exact List.mem_map_of_mem hcycle

/-- What is reported are cycles. -/
theorem isCycle_of_mem (hover : walk.Over graph.targetKeys)
    (hfound : walk.found = graph.cycles.map ImportCycle.keys) (hcycle : cycle ∈ graph.cycles) :
    graph.IsCycle cycle.files := by
  rw [isCycle_iff]
  exact hover.isRound (keys_mem_found hfound hcycle)

/-- No cycle is reported just when no file leads back to itself along imports, and what is reported
are cycles. -/
theorem cycles_exact (sets : List (Path × List Path)) :
    ((ofSets sets).cycles = [] ↔
        ¬∃ file, Relation.TransGen (ofSets sets).Imports file file) ∧
      ∀ cycle ∈ (ofSets sets).cycles, (ofSets sets).IsCycle cycle.files := by
  obtain ⟨walk, hover, hfound⟩ := exists_over (nodup_keys_ofSets sets)
  constructor
  · rw [← exists_transGen_iff, ← hover.found_eq_nil_iff, hfound, List.map_eq_nil_iff]
  · intro cycle hcycle
    exact isCycle_of_mem hover hfound hcycle

/-- A file imports another through a third one and straight, and the other imports it. -/
def shortcut : List (Path × List Path) :=
  [(⟨"/a"⟩, [⟨"/b"⟩, ⟨"/c"⟩]), (⟨"/b"⟩, [⟨"/c"⟩]), (⟨"/c"⟩, [⟨"/a"⟩])]

theorem cycles_shortcut :
    (ofSets shortcut).cycles = [⟨[⟨"/a"⟩, ⟨"/b"⟩, ⟨"/c"⟩, ⟨"/a"⟩]⟩] := by
  cbv

theorem cycles_exact_shortcut :
    (∃ file, Relation.TransGen (ofSets shortcut).Imports file file) ∧
      (ofSets shortcut).IsCycle [⟨"/a"⟩, ⟨"/b"⟩, ⟨"/c"⟩, ⟨"/a"⟩] := by
  obtain ⟨hnone, hcycle⟩ := cycles_exact shortcut
  rw [cycles_shortcut] at hnone hcycle
  constructor
  · by_contra hacyclic
    cases hnone.mpr hacyclic
  · exact hcycle _ (List.mem_singleton_self _)

/-! ## How often a cycle is reported -/

/-- The files on a cycle, from the one with which it begins. -/
def round (files : List Path) : List (List PathComponent) := (files.map Path.components).dropLast

/-- Whether two cycles go through the same files in the same order, wherever they begin. -/
def SameCycle (files other : List Path) : Prop := round files ~r round other

instance (files other : List Path) : Decidable (SameCycle files other) :=
  inferInstanceAs (Decidable (round files ~r round other))

/-- Whether a list of files goes from a file straight to another. -/
def Uses (files : List Path) (file target : Path) : Prop :=
  [file.components, target.components] <:+: files.map Path.components

instance (files : List Path) (file target : Path) : Decidable (Uses files file target) :=
  inferInstanceAs (Decidable ([file.components, target.components] <:+: files.map Path.components))

/-- Whether a list of files ends with a file and another. -/
def ClosedBy (files : List Path) (file target : Path) : Prop :=
  [file.components, target.components] <:+ files.map Path.components

instance (files : List Path) (file target : Path) : Decidable (ClosedBy files file target) :=
  inferInstanceAs (Decidable ([file.components, target.components] <:+ files.map Path.components))

/-- How often a cycle is reported. -/
def timesReported (graph : ImportGraph) (files : List Path) : Nat :=
  graph.cycles.countP fun cycle => SameCycle cycle.files files

/-- How often a file is among what another imports. -/
def timesWritten (graph : ImportGraph) (file target : Path) : Nat :=
  ((graph.imports? file).getD []).countP (·.same target)

/-- Whether an import on a cycle closes another cycle that is reported. -/
def Hidden (graph : ImportGraph) (files : List Path) : Prop :=
  ∃ file target, Uses files file target ∧
    ∃ cycle ∈ graph.cycles, ClosedBy cycle.files file target ∧ ¬SameCycle cycle.files files

theorem timesReported_congr (h : SameCycle files other) :
    graph.timesReported files = graph.timesReported other := by
  apply List.countP_congr
  intro cycle _
  rw [decide_eq_true_eq, decide_eq_true_eq]
  exact ⟨fun hcycle => hcycle.trans h, fun hcycle => hcycle.trans h.symm⟩

theorem timesWritten_eq {targets : List (List PathComponent)}
    (h : graph.targetKeys file.components = some targets) :
    graph.timesWritten file target =
      targets.countP fun other => decide (other = target.components) := by
  rw [targetKeys_components, Option.map_eq_some_iff] at h
  obtain ⟨paths, hpaths, rfl⟩ := h
  rw [timesWritten, hpaths, Option.getD_some, List.countP_map]
  apply List.countP_congr
  intro path _
  rw [Path.same_iff, Function.comp_apply, decide_eq_true_eq]

/-- Cycles that are the same use the same imports. -/
theorem uses_of_sameCycle (hfiles : graph.IsCycle files) (hother : graph.IsCycle other)
    (hsame : SameCycle files other) (huses : Uses files file target) : Uses other file target := by
  rw [isCycle_iff] at hfiles hother
  obtain ⟨first, more, hfiles, -, -⟩ := hfiles
  obtain ⟨start, rest, hother, -, -⟩ := hother
  rw [SameCycle, round, round, hfiles, hother, List.dropLast_concat, List.dropLast_concat] at hsame
  rw [Uses, hfiles] at huses
  rw [Uses, hother]
  exact pair_infix_of_isRotated hsame huses

section Counts

variable (hover : walk.Over graph.targetKeys)
  (hfound : walk.found = graph.cycles.map ImportCycle.keys)

include hover hfound

/-- A cycle is reported as often as its round trip has been found. -/
theorem timesReported_eq (hcycle : cycle ∈ graph.cycles) :
    graph.timesReported cycle.files =
      walk.found.countP fun trip => decide (trip = cycle.keys) := by
  rw [hfound, List.countP_map]
  apply List.countP_congr
  intro other hother
  rw [decide_eq_true_eq, Function.comp_apply, decide_eq_true_eq]
  constructor
  · intro hrotated
    exact hover.eq_of_isRotated (keys_mem_found hfound hother) (keys_mem_found hfound hcycle)
      hrotated
  · intro hsame
    have hround : round other.files = round cycle.files := congrArg List.dropLast hsame
    rw [SameCycle, hround]

/-- A cycle with an import that closes another is not reported. -/
theorem timesReported_eq_zero (h : graph.IsCycle files) (hhidden : graph.Hidden files) :
    graph.timesReported files = 0 := by
  obtain ⟨file, target, huses, cycle, hcycle, hcloses, hnot⟩ := hhidden
  rw [timesReported, List.countP_eq_zero]
  intro other hother
  rw [decide_eq_true_eq]
  intro hsame
  have huses : Uses other.files file target :=
    uses_of_sameCycle h (isCycle_of_mem hover hfound hother) hsame.symm huses
  have hkeys : other.keys = cycle.keys := hover.eq_of_infix_of_suffix
    (keys_mem_found hfound hother) (keys_mem_found hfound hcycle) huses hcloses
  have hround : round other.files = round cycle.files := congrArg List.dropLast hkeys
  rw [SameCycle, hround] at hsame
  exact hnot hsame

/-- A cycle that is reported is so as often as the import that closes it is written. -/
theorem timesReported_of_closedBy (hcycle : cycle ∈ graph.cycles)
    (hsame : SameCycle cycle.files files) (hcloses : ClosedBy cycle.files file target) :
    graph.timesReported files = graph.timesWritten file target := by
  have hround := isCycle_iff.mp (isCycle_of_mem hover hfound hcycle)
  obtain ⟨targets, htargets⟩ := Option.ne_none_iff_exists'.mp
    (hround.known (hcloses.subset List.mem_cons_self))
  rw [← timesReported_congr hsame, timesReported_eq hover hfound hcycle, timesWritten_eq htargets]
  exact hover.count_found (keys_mem_found hfound hcycle) hcloses htargets

/-- Every cycle has an import that closes one which is reported. -/
theorem exists_closedBy (h : graph.IsCycle files) : ∃ file target, Uses files file target ∧
    ∃ cycle ∈ graph.cycles, ClosedBy cycle.files file target := by
  obtain ⟨key, targetKey, huses, trip, htrip, hcloses⟩ := hover.exists_closed (isCycle_iff.mp h)
  rw [hfound] at htrip
  obtain ⟨cycle, hcycle, rfl⟩ := List.mem_map.mp htrip
  obtain ⟨file, -, rfl⟩ := List.mem_map.mp (huses.subset (a := key) (by simp))
  obtain ⟨target, -, rfl⟩ := List.mem_map.mp (huses.subset (a := targetKey) (by simp))
  exact ⟨file, target, huses, cycle, hcycle, hcloses⟩

end Counts

/-- A cycle is not reported if one of its imports closes another that is, and otherwise as often as
the import that closes it is written. So it is reported once if none of its imports is on another
cycle or written twice. -/
theorem cycles_reported (sets : List (Path × List Path)) (files : List Path)
    (h : (ofSets sets).IsCycle files) :
    ((ofSets sets).Hidden files → (ofSets sets).timesReported files = 0) ∧
      (¬(ofSets sets).Hidden files → ∃ cycle ∈ (ofSets sets).cycles,
        SameCycle cycle.files files ∧ ∀ file target, ClosedBy cycle.files file target →
          (ofSets sets).timesReported files = (ofSets sets).timesWritten file target) ∧
      ((∀ file target, Uses files file target → (ofSets sets).timesWritten file target = 1 ∧
          ∀ other, (ofSets sets).IsCycle other → Uses other file target →
            SameCycle other files) →
        (ofSets sets).timesReported files = 1) := by
  obtain ⟨walk, hover, hfound⟩ := exists_over (nodup_keys_ofSets sets)
  obtain ⟨file, target, huses, cycle, hcycle, hcloses⟩ := exists_closedBy hover hfound h
  refine ⟨timesReported_eq_zero hover hfound h, ?_, ?_⟩
  · intro hopen
    have hsame : SameCycle cycle.files files := by
      by_contra hnot
      exact hopen ⟨file, target, huses, cycle, hcycle, hcloses, hnot⟩
    refine ⟨cycle, hcycle, hsame, ?_⟩
    intro _ _ hcloses
    exact timesReported_of_closedBy hover hfound hcycle hsame hcloses
  · intro halone
    obtain ⟨honce, hothers⟩ := halone file target huses
    have hsame : SameCycle cycle.files files :=
      hothers cycle.files (isCycle_of_mem hover hfound hcycle) hcloses.isInfix
    rw [timesReported_of_closedBy hover hfound hcycle hsame hcloses, honce]

-- an import that is written twice closes its cycle twice
example : (ofSets [(⟨"/a"⟩, [⟨"/a"⟩, ⟨"/a"⟩])]).timesReported [⟨"/a"⟩, ⟨"/a"⟩] = 2 := by cbv

/-- An import of a file by itself is on no longer cycle. -/
theorem round_eq_of_uses_self (h : graph.IsCycle files) (huses : Uses files file file) :
    round files = [file.components] := by
  obtain ⟨first, more, hfiles, honce, -⟩ := isCycle_iff.mp h
  rw [Uses, hfiles] at huses
  rw [round, hfiles, List.dropLast_concat]
  exact eq_singleton_of_pair_infix honce huses

theorem isCycle_straight : (ofSets shortcut).IsCycle [⟨"/a"⟩, ⟨"/c"⟩, ⟨"/a"⟩] :=
  ⟨⟨"/a"⟩, [⟨"/c"⟩], ⟨"/a"⟩, rfl, by decide +kernel⟩

/-- The way back is an import on both cycles and closes the one that is reported. A file that
imports itself is on a cycle of its own. -/
theorem cycles_reported_shortcut :
    (ofSets shortcut).timesReported [⟨"/a"⟩, ⟨"/c"⟩, ⟨"/a"⟩] = 0 ∧
      (ofSets shortcut).timesReported [⟨"/c"⟩, ⟨"/a"⟩, ⟨"/b"⟩, ⟨"/c"⟩] = 1 ∧
      (ofSets [(⟨"/e"⟩, [⟨"/e"⟩])]).timesReported [⟨"/e"⟩, ⟨"/e"⟩] = 1 := by
  refine ⟨?_, ?_, ?_⟩
  · apply (cycles_reported shortcut _ isCycle_straight).1
    refine ⟨⟨"/c"⟩, ⟨"/a"⟩, by decide +kernel, ?_⟩
    rw [cycles_shortcut]
    exact ⟨_, List.mem_singleton_self _, by decide +kernel, by decide +kernel⟩
  · have hcycle : (ofSets shortcut).IsCycle [⟨"/c"⟩, ⟨"/a"⟩, ⟨"/b"⟩, ⟨"/c"⟩] :=
      ⟨⟨"/c"⟩, [⟨"/a"⟩, ⟨"/b"⟩], ⟨"/c"⟩, rfl, by decide +kernel⟩
    have hopen : ¬(ofSets shortcut).Hidden [⟨"/c"⟩, ⟨"/a"⟩, ⟨"/b"⟩, ⟨"/c"⟩] := by
      rintro ⟨file, target, -, cycle, hreported, -, hnot⟩
      rw [cycles_shortcut, List.mem_singleton] at hreported
      exact hnot (hreported ▸ by decide +kernel)
    obtain ⟨cycle, hreported, -, htimes⟩ := (cycles_reported shortcut _ hcycle).2.1 hopen
    rw [cycles_shortcut, List.mem_singleton] at hreported
    rw [htimes ⟨"/c"⟩ ⟨"/a"⟩ (hreported ▸ by decide +kernel)]
    decide +kernel
  · have hcycle : (ofSets [(⟨"/e"⟩, [⟨"/e"⟩])]).IsCycle [⟨"/e"⟩, ⟨"/e"⟩] :=
      ⟨⟨"/e"⟩, [], ⟨"/e"⟩, rfl, by decide +kernel⟩
    apply (cycles_reported _ _ hcycle).2.2
    intro file target huses
    -- the cycle has one import, that of the file by itself
    obtain ⟨hfile, htarget⟩ := List.cons.inj (List.IsInfix.eq_of_length huses rfl)
    obtain ⟨htarget, -⟩ := List.cons.inj htarget
    constructor
    · rw [timesWritten_eq (by rw [hfile]; cbv), htarget]
      decide +kernel
    · intro other hother hboth
      rw [Uses, htarget, ← hfile] at hboth
      have hround := round_eq_of_uses_self hother hboth
      rw [SameCycle, hround, hfile]
      decide +kernel

/-- The cycle on the straight way is real, but it is not reported. -/
theorem cycle_missed_shortcut :
    (ofSets shortcut).IsCycle [⟨"/a"⟩, ⟨"/c"⟩, ⟨"/a"⟩] ∧
      (ofSets shortcut).timesReported [⟨"/a"⟩, ⟨"/c"⟩, ⟨"/a"⟩] = 0 ∧
      ¬∀ sets files, (ofSets sets).IsCycle files → (ofSets sets).timesReported files = 1 := by
  have hmissed : (ofSets shortcut).timesReported [⟨"/a"⟩, ⟨"/c"⟩, ⟨"/a"⟩] = 0 := by
    rw [timesReported, cycles_shortcut]
    decide +kernel
  refine ⟨isCycle_straight, hmissed, ?_⟩
  intro hall
  have honce := hall shortcut _ isCycle_straight
  rw [hmissed] at honce
  cases honce

end ImportGraph

end ProtoFront
