import ProtoFront.Proofs.Import.Following

/-!
# Both directions of an import

An import graph keeps what each file imports, and beside it what each file is imported by. Setting
what a file imports takes it out of the entries of the files that it imported before, and adds it to
the entry of each file that it imports now. So both sides always tell of the same imports, each as
often as it is written (`ImportGraph.Mirrored`), whatever was set before.
-/

namespace ProtoFront

namespace Path

variable {path other : Path}

theorem same_eq_of_same (h : path.same other = true) (file : Path) :
    path.same file = other.same file := by
  rw [Bool.eq_iff_iff, same_iff, same_iff, same_iff.mp h]

theorem same_comm (path other : Path) : path.same other = other.same path :=
  Bool.eq_iff_iff.mpr ⟨same_symm, same_symm⟩

/-- Whether a file is among others does not depend on how it is spelled. -/
theorem any_same_of_same (h : path.same other = true) (files : List Path) :
    (files.any fun file => file.same path) = files.any fun file => file.same other := by
  simp only [same_comm _ path, same_comm _ other, same_eq_of_same h]

end Path

namespace Neighbours

variable {entries : List Neighbours} {file target : Path}

/-! ## Entries -/

/-- The files on the other ends of the edges of a file, none if it has no entry. -/
def othersOf (entries : List Neighbours) (file : Path) : List Path :=
  ((find? entries file).map Neighbours.others).getD []

/-- Only the entry of the file is another one afterwards. -/
theorem find?_put (entries : List Neighbours) (file : Path) (others : List Path) (target : Path) :
    (find? (put entries file others) target).map Neighbours.others =
      if file.same target then some others else (find? entries target).map Neighbours.others := by
  induction entries with
  | nil =>
    rw [put, find?, List.find?_cons, find?]
    cases file.same target <;> rfl
  | cons first rest ih =>
    rw [put]
    by_cases hfile : first.file.same file = true
    · rw [if_pos hfile, find?, List.find?_cons, find?, List.find?_cons, Path.same_eq_of_same hfile]
      cases file.same target <;> rfl
    · rw [if_neg hfile, find?, List.find?_cons, find?, List.find?_cons]
      rcases hfirst : first.file.same target with _ | _
      · exact ih
      · have hother : file.same target = false := by
          rw [Bool.eq_false_iff]
          intro htarget
          rw [Path.same_comm, ← Path.same_eq_of_same htarget] at hfirst
          exact hfile (Path.same_symm hfirst)
        rw [hother]
        rfl

theorem find?_congr (h : file.same target = true) : find? entries file = find? entries target := by
  simp only [find?, Path.same_comm _ file, Path.same_comm _ target, Path.same_eq_of_same h]

theorem othersOf_push (entries : List Neighbours) (file other target : Path) :
    othersOf (push entries file other) target =
      if file.same target then othersOf entries target ++ [other]
      else othersOf entries target := by
  rw [othersOf, push, find?_put]
  split
  case isTrue hsame =>
    rw [Option.getD_some, find?_congr hsame, othersOf]
  case isFalse => rfl

/-- A file is taken out of the entries of certain files, and nothing else is changed. -/
theorem othersOf_drop (entries : List Neighbours) (files : List Path) (other target : Path) :
    othersOf (drop entries files other) target =
      if files.any (·.same target) then
        (othersOf entries target).filter fun path => !path.same other
      else othersOf entries target := by
  have lookup : find? (drop entries files other) target =
      (find? entries target).map fun entry => if files.any (·.same entry.file) then
        ⟨entry.file, entry.others.filter fun path => !path.same other⟩ else entry := by
    rw [drop, find?, List.find?_map, find?]
    congr 2
    funext entry
    rw [Function.comp_apply]
    split <;> rfl
  rw [othersOf, lookup, othersOf]
  cases hfound : find? entries target with
  | none => simp
  | some entry =>
    have hsame := List.find?_some hfound
    rw [Option.map_some, Path.any_same_of_same hsame]
    split <;> rfl

/-! ## How often a file is in an entry -/

/-- How often a file is in the entry of another one. -/
def timesIn (entries : List Neighbours) (target file : Path) : Nat :=
  (othersOf entries target).countP (·.same file)

theorem timesIn_push (entries : List Neighbours) (target source other file : Path) :
    timesIn (push entries target source) other file = timesIn entries other file +
      if source.same file ∧ target.same other then 1 else 0 := by
  rw [timesIn, othersOf_push, timesIn]
  by_cases htarget : target.same other = true
  · rw [if_pos htarget, List.countP_append, List.countP_singleton]
    simp only [htarget, and_true]
  · rw [if_neg htarget, if_neg (fun h => htarget h.2), Nat.add_zero]

/-- Adding a file to the entries of others adds it once for each time that one is named. -/
theorem timesIn_foldl_push (entries : List Neighbours) (targets : List Path)
    (source target file : Path) :
    timesIn (targets.foldl (fun entries target => push entries target source) entries) target file =
      timesIn entries target file +
        if source.same file then targets.countP (·.same target) else 0 := by
  induction targets generalizing entries with
  | nil => simp
  | cons first rest ih =>
    rw [List.foldl_cons, ih, timesIn_push, List.countP_cons]
    by_cases hsource : source.same file = true
    · simp only [hsource, true_and, if_true]
      omega
    · simp only [hsource, false_and, if_false, Nat.add_zero, Bool.false_eq_true]

/-- A file that is taken out is not there any more, where it was to be taken out. -/
theorem timesIn_drop (entries : List Neighbours) (files : List Path) (source target file : Path) :
    timesIn (drop entries files source) target file =
      if files.any (·.same target) ∧ source.same file then 0 else timesIn entries target file := by
  rw [timesIn, othersOf_drop, timesIn]
  by_cases hany : files.any (·.same target) = true
  · rw [if_pos hany, List.countP_filter]
    by_cases hsource : source.same file = true
    · rw [if_pos ⟨hany, hsource⟩, List.countP_eq_zero]
      intro path _
      rw [Path.same_comm path source, Path.same_eq_of_same hsource, Path.same_comm file path]
      simp
    · rw [if_neg (fun h => hsource h.2)]
      apply List.countP_congr
      intro path _
      have apart (hpath : path.same file = true) : path.same source = false := by
        rw [Bool.eq_false_iff]
        intro hother
        rw [Path.same_eq_of_same hother] at hpath
        exact hsource hpath
      simpa using apart
  · rw [if_neg hany, if_neg (fun h => hany h.1)]

end Neighbours

namespace ImportGraph

variable {graph : ImportGraph}

open Neighbours

/-! ## Setting imports -/

/-- The files in the order in which walks take them up. -/
def files (graph : ImportGraph) : List Path := graph.imports.map Neighbours.file

/-- Both directions of the graph tell of the same imports: a file is as often among the importers of
another one as that one is among its imports. -/
def Mirrored (graph : ImportGraph) : Prop :=
  ∀ file target, timesIn graph.importers target file = timesIn graph.imports file target

theorem imports?_setImports (graph : ImportGraph) (file : Path) (targets : List Path)
    (other : Path) : (graph.setImports file targets).imports? other =
      if file.same other then some targets else graph.imports? other :=
  find?_put graph.imports file targets other

/-- The file is taken out of the entries of what it imported, and only there it was; then it is
added to the entry of what it imports now, once for each time that this is named. -/
theorem Mirrored.setImports (h : graph.Mirrored) (file : Path) (targets : List Path) :
    (graph.setImports file targets).Mirrored := by
  intro source target
  have now : timesIn (graph.setImports file targets).imports source target =
      if file.same source then targets.countP (·.same target)
      else timesIn graph.imports source target := by
    have himports := graph.imports?_setImports file targets source
    rw [imports?, imports?] at himports
    rw [timesIn, othersOf, himports]
    split <;> rfl
  rw [now]
  change timesIn (targets.foldl (fun entries target => push entries target file)
    (drop graph.importers ((graph.imports? file).getD []) file)) target source = _
  rw [timesIn_foldl_push, timesIn_drop, h source target]
  by_cases hsource : file.same source = true
  · rw [if_pos hsource, if_pos hsource]
    by_cases hold : ((graph.imports? file).getD []).any (·.same target) = true
    · rw [if_pos ⟨hold, hsource⟩, Nat.zero_add]
    · -- it was not there, since the file did not import the target
      have hnone : timesIn graph.imports source target = 0 := by
        rw [timesIn, List.countP_eq_zero]
        intro path hpath hsame
        refine hold (List.any_eq_true.mpr ⟨path, ?_, hsame⟩)
        rwa [imports?, find?_congr hsource]
      rw [if_neg (fun hboth => hold hboth.1), hnone, Nat.zero_add]
  · rw [if_neg hsource, if_neg hsource, if_neg (fun hboth => hsource hboth.2), Nat.add_zero]

theorem ofSets_append (sets : List (Path × List Path)) (set : Path × List Path) :
    ofSets (sets ++ [set]) = (ofSets sets).setImports set.1 set.2 := by
  rw [ofSets, ofSets, List.foldl_append]
  rfl

theorem mirrored_ofSets (sets : List (Path × List Path)) : (ofSets sets).Mirrored := by
  induction sets using List.reverseRecOn with
  | nil => exact fun _ _ => rfl
  | append_singleton sets set ih =>
    rw [ofSets_append]
    exact ih.setImports set.1 set.2

/-- A file imports what it was last set to import. -/
theorem imports?_ofSets (sets : List (Path × List Path)) (file : Path) :
    (ofSets sets).imports? file =
      (sets.reverse.find? fun set => set.1.same file).map Prod.snd := by
  induction sets using List.reverseRecOn with
  | nil => rfl
  | append_singleton sets set ih =>
    rw [ofSets_append, imports?_setImports, List.reverse_append, List.reverse_singleton,
      List.singleton_append, List.find?_cons, ih]
    cases set.1.same file <;> rfl

theorem files_setImports (graph : ImportGraph) (file : Path) (targets : List Path) :
    (graph.setImports file targets).files =
      if graph.files.any (·.same file) then graph.files else graph.files ++ [file] := by
  change (put graph.imports file targets).map Neighbours.file = _
  rw [files]
  induction graph.imports with
  | nil => rfl
  | cons first rest ih =>
    rw [put, List.map_cons, List.any_cons]
    by_cases hfirst : first.file.same file = true
    · rw [if_pos hfirst, hfirst]
      rfl
    · rw [if_neg hfirst, Bool.eq_false_iff.mpr hfirst, List.map_cons, ih, Bool.false_or]
      split <;> rfl

/-- The files that were set are taken up once each. -/
theorem countP_files_ofSets (sets : List (Path × List Path)) (file : Path) :
    (ofSets sets).files.countP (·.same file) =
      if sets.any fun set => set.1.same file then 1 else 0 := by
  induction sets using List.reverseRecOn with
  | nil => rfl
  | append_singleton sets set ih =>
    have known : (ofSets sets).files.any (·.same file) = true ↔
        sets.any (fun set => set.1.same file) = true := by
      rw [List.any_eq_true, ← List.countP_pos_iff, ih]
      split <;> simp [*]
    rw [ofSets_append, files_setImports, List.any_append, List.any_cons, List.any_nil,
      Bool.or_false]
    by_cases hset : set.1.same file = true
    · rw [Path.any_same_of_same hset, hset, Bool.or_true, if_pos rfl]
      split
      case isTrue hknown => rw [ih, if_pos (known.mp hknown)]
      case isFalse hnew =>
        rw [List.countP_append, ih, if_neg (mt known.mpr hnew), List.countP_singleton, if_pos hset]
    · rw [Bool.eq_false_iff.mpr hset, Bool.or_false, ← ih]
      split
      · rfl
      · rw [List.countP_append, List.countP_singleton, if_neg hset, Nat.add_zero]

/-- After any files were set, each as often as one likes, a file is as often among the importers of
another as that one is among its imports, and these are the ones that it was set to import last.
Walks take up every file that was set once, and no other file. -/
theorem importers_exact (sets : List (Path × List Path)) :
    (∀ file target,
      (((ofSets sets).importers? target).getD []).countP (·.same file) =
        (((ofSets sets).imports? file).getD []).countP (·.same target)) ∧
    (∀ file, (ofSets sets).imports? file =
      (sets.reverse.find? fun set => set.1.same file).map Prod.snd) ∧
    ∀ file, (ofSets sets).files.countP (·.same file) =
      if sets.any fun set => set.1.same file then 1 else 0 :=
  ⟨mirrored_ofSets sets, imports?_ofSets sets, countP_files_ofSets sets⟩

end ImportGraph

end ProtoFront
