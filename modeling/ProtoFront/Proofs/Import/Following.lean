import ProtoFront.Import.Graph
import ProtoFront.Proofs.Import.RoundTrips

/-!
# Following imports

Files are looked up by their components, so the graph of imports is one over lists of components
(`ImportGraph.targetKeys`). Following imports is a walk through it (`ImportGraph.follow_steps`), and
following them from all files is one that comes to every file in the graph and to an end; the cycles
that are reported are the round trips that it finds (`ImportGraph.exists_over`).
-/

namespace ProtoFront

/-- What the file of an entry is looked up by. -/
def Neighbours.key (entry : Neighbours) : List PathComponent := entry.file.components

/-- What the ends of the edges of an entry are looked up by. -/
def Neighbours.otherKeys (entry : Neighbours) : List (List PathComponent) :=
  entry.others.map Path.components

/-- What the files on a cycle are looked up by. -/
def ImportCycle.keys (cycle : ImportCycle) : List (List PathComponent) :=
  cycle.files.map Path.components

namespace ImportGraph

variable {graph : ImportGraph} {entry : Neighbours} {visited : List Path}
  {cycles : List ImportCycle} {way before : List Neighbours} {file target : Path}
  {others : List Path} {walk : GraphWalk (List PathComponent)}

/-! ## Setting imports -/

theorem keys_put (entries : List Neighbours) (file : Path) (others : List Path) :
    (Neighbours.put entries file others).map Neighbours.key =
      if file.components ∈ entries.map Neighbours.key then entries.map Neighbours.key
      else entries.map Neighbours.key ++ [file.components] := by
  induction entries with
  | nil => rfl
  | cons first rest ih =>
    rw [Neighbours.put]
    by_cases hsame : first.file.components = file.components
    · rw [if_pos (Path.same_iff.mpr hsame)]
      simp [Neighbours.key, hsame]
    · rw [if_neg (mt Path.same_iff.mp hsame), List.map_cons, ih, List.map_cons, Neighbours.key]
      by_cases hmem : file.components ∈ rest.map Neighbours.key <;> simp [hmem, Ne.symm hsame]

/-- Setting imports keeps every file in one entry. -/
theorem nodup_keys_setImports (h : (graph.imports.map Neighbours.key).Nodup) (file : Path)
    (targets : List Path) : ((graph.setImports file targets).imports.map Neighbours.key).Nodup := by
  rw [setImports, keys_put]
  split
  case isTrue => exact h
  case isFalse hnew =>
    rw [← List.concat_eq_append]
    exact h.concat hnew

/-- A graph made by setting what files import, one file after the other. -/
def ofSets (sets : List (Path × List Path)) : ImportGraph :=
  sets.foldl (fun graph set => graph.setImports set.1 set.2) .empty

theorem nodup_keys_ofSets (sets : List (Path × List Path)) :
    ((ofSets sets).imports.map Neighbours.key).Nodup := by
  have run (graph : ImportGraph) (h : (graph.imports.map Neighbours.key).Nodup) :
      ((sets.foldl (fun graph set => graph.setImports set.1 set.2) graph).imports.map
        Neighbours.key).Nodup := by
    induction sets generalizing graph with
    | nil => exact h
    | cons set rest ih => exact ih _ (nodup_keys_setImports h set.1 set.2)
  exact run .empty List.nodup_nil

/-! ## The graph of components -/

/-- What a file imports, all files given by their components. -/
def targetKeys (graph : ImportGraph) (key : List PathComponent) :
    Option (List (List PathComponent)) :=
  (graph.imports.find? fun entry => entry.key == key).map Neighbours.otherKeys

theorem targetKeys_components (graph : ImportGraph) (file : Path) :
    graph.targetKeys file.components =
      (graph.imports? file).map fun targets => targets.map Path.components := by
  rw [imports?, Option.map_map]
  rfl

theorem targetKeys_of_find? (h : Neighbours.find? graph.imports file = some entry) :
    graph.targetKeys file.components = some entry.otherKeys := by
  rw [targetKeys_components, imports?, h]
  rfl

theorem targetKeys_eq_none (h : Neighbours.find? graph.imports file = none) :
    graph.targetKeys file.components = none := by
  rw [targetKeys_components, imports?, h]
  rfl

/-- The entry that is found for a file is one of a path with the same components. -/
theorem key_of_find? (h : Neighbours.find? graph.imports file = some entry) :
    entry.file.components = file.components := by
  rw [Neighbours.find?] at h
  have hsame := List.find?_some h
  exact Path.same_iff.mp hsame

/-- In a graph that has each file in one entry, the entry of a file is found. -/
theorem targetKeys_of_mem (once : (graph.imports.map Neighbours.key).Nodup)
    (h : entry ∈ graph.imports) : graph.targetKeys entry.key = some entry.otherKeys := by
  rw [targetKeys]
  generalize graph.imports = entries at once h
  induction entries with
  | nil => cases h
  | cons first rest ih =>
    obtain ⟨hfirst, hrest⟩ := List.nodup_cons.mp once
    rcases List.mem_cons.mp h with rfl | hmem
    · rw [List.find?_cons_of_pos (by simp)]
      rfl
    · have hother : first.key ≠ entry.key := by
        intro hsame
        rw [hsame] at hfirst
        exact hfirst (List.mem_map_of_mem hmem)
      rw [List.find?_cons_of_neg (by simpa using hother), ih hrest hmem]

theorem exists_of_targetKeys {key : List PathComponent} (h : graph.targetKeys key ≠ none) :
    ∃ entry ∈ graph.imports, entry.key = key := by
  rw [targetKeys, Ne, Option.map_eq_none_iff] at h
  obtain ⟨entry, hentry⟩ := Option.ne_none_iff_exists'.mp h
  exact ⟨entry, List.mem_of_find?_eq_some hentry, by simpa using List.find?_some hentry⟩

/-! ## Following imports is a walk -/

theorem isVisited_iff : isVisited visited file = true ↔
    file.components ∈ visited.map Path.components := by
  simp [isVisited, Path.same_iff]

/-- The cycle that an import closes is the round trip to its target. -/
theorem closedCycle?_eq (way : List Neighbours) (target : Path) :
    (closedCycle? way target).map ImportCycle.keys =
      if target.components ∈ way.map Neighbours.key then
        some (roundTrip (way.map Neighbours.key) target.components)
      else none := by
  have hkeys : (way.map Neighbours.key).reverse =
      (way.map Neighbours.file).reverse.map Path.components := by
    rw [List.map_reverse, List.map_map]
    rfl
  have hcut : (fun file : Path => !file.same target) =
      fun file => decide (file.components ≠ target.components) := by
    funext file
    rw [decide_not, Bool.not_inj_iff, Bool.eq_iff_iff, Path.same_iff, decide_eq_true_eq]
  have hmem : target.components ∈ way.map Neighbours.key ↔
      target.components ∈ (way.map Neighbours.file).reverse.map Path.components := by
    rw [← hkeys, List.mem_reverse]
  rw [closedCycle?, roundTrip, hkeys, List.dropWhile_map, hcut]
  generalize (way.map Neighbours.file).reverse = files at hmem ⊢
  simp only [Function.comp_def]
  cases hdrop : files.dropWhile fun file => decide (file.components ≠ target.components) with
  | nil =>
    have hnone : target.components ∉ way.map Neighbours.key := by
      rw [hmem]
      intro hfile
      obtain ⟨file, hfile, hsame⟩ := List.mem_map.mp hfile
      have hne := List.dropWhile_eq_nil_iff.mp hdrop file hfile
      exact of_decide_eq_true hne hsame
    rw [if_neg hnone]
    rfl
  | cons first rest =>
    have hsome : target.components ∈ way.map Neighbours.key := by
      have hhead := List.head?_dropWhile_not
        (fun file : Path => decide (file.components ≠ target.components)) files
      rw [hdrop] at hhead
      have hsame : first.components = target.components := by simpa using hhead
      have hfirst : first ∈ files :=
        (List.dropWhile_sublist _).subset (hdrop ▸ List.mem_cons_self)
      rw [hmem, ← hsame]
      exact List.mem_map_of_mem hfirst
    rw [if_pos hsome]
    simp [ImportCycle.keys]

theorem not_mem_of_closedCycle? (h : closedCycle? way target = none) :
    target.components ∉ way.map Neighbours.key := by
  intro hmem
  have hkeys := closedCycle?_eq way target
  rw [h, if_pos hmem] at hkeys
  cases hkeys

theorem keys_closedCycle? {cycle : ImportCycle} (h : closedCycle? way target = some cycle) :
    target.components ∈ way.map Neighbours.key ∧
      cycle.keys = roundTrip (way.map Neighbours.key) target.components := by
  have hkeys := closedCycle?_eq way target
  rw [h, Option.map_some] at hkeys
  split at hkeys
  case isTrue hmem => exact ⟨hmem, Option.some.inj hkeys⟩
  case isFalse => cases hkeys

/-- A walk through the components that is where a walk through the files is. -/
structure Mirrors (walk : GraphWalk (List PathComponent)) (visited : List Path)
    (cycles : List ImportCycle) (way : List Neighbours) : Prop where
  seen : walk.seen = visited.map Path.components
  found : walk.found = cycles.map ImportCycle.keys
  way : walk.way.map (fun stop => (stop.node, stop.left)) =
    way.map fun entry => (entry.key, entry.otherKeys)

/-- At a file on the way, the walk is at the stop of its components. -/
theorem Mirrors.exists_stop (h : Mirrors walk visited cycles (⟨file, others⟩ :: before)) :
    ∃ finished done stops, walk = ⟨visited.map Path.components, finished,
        cycles.map ImportCycle.keys,
        ⟨file.components, done, others.map Path.components⟩ :: stops⟩ ∧
      stops.map (fun stop => (stop.node, stop.left)) =
        before.map fun entry => (entry.key, entry.otherKeys) := by
  obtain ⟨seen, finished, found, stops⟩ := walk
  obtain ⟨rfl, rfl, hway⟩ := h
  obtain ⟨⟨node, done, left⟩, stops, rfl, hstop, hstops⟩ := List.map_eq_cons_iff.mp hway
  obtain ⟨rfl, rfl⟩ := Prod.mk.inj hstop
  exact ⟨finished, done, stops, rfl, hstops⟩

theorem map_node_eq {stops : List (Stop (List PathComponent))}
    (h : stops.map (fun stop => (stop.node, stop.left)) =
      before.map fun entry => (entry.key, entry.otherKeys)) :
    stops.map Stop.node = before.map Neighbours.key := by
  have hnodes := congrArg (List.map Prod.fst) h
  simpa [Function.comp_def] using hnodes

/-- A file whose imports have all been followed is left. -/
theorem Mirrors.leaves (h : Mirrors walk visited cycles (⟨file, []⟩ :: before)) :
    ∃ next, GraphWalk.Step graph.targetKeys walk next ∧ Mirrors next visited cycles before := by
  obtain ⟨finished, done, stops, rfl, hstops⟩ := h.exists_stop
  exact ⟨_, .leaves, ⟨rfl, rfl, hstops⟩⟩

/-- An import of a file on the way closes the cycle that is written down. -/
theorem Mirrors.closes {cycle : ImportCycle}
    (h : Mirrors walk visited cycles (⟨file, target :: others⟩ :: before))
    (hcycle : closedCycle? (⟨file, others⟩ :: before) target = some cycle) :
    ∃ next, GraphWalk.Step graph.targetKeys walk next ∧
      Mirrors next visited (cycles ++ [cycle]) (⟨file, others⟩ :: before) := by
  obtain ⟨finished, done, stops, rfl, hstops⟩ := h.exists_stop
  obtain ⟨hback, hkeys⟩ := keys_closedCycle? hcycle
  rw [List.map_cons, ← map_node_eq hstops] at hback hkeys
  refine ⟨_, .closes hback, rfl, ?_, ?_⟩
  · rw [List.map_append, List.map_singleton, hkeys]
    rfl
  · rw [List.map_cons, List.map_cons, hstops]
    rfl

/-- Any other import of a file that is not in the graph, or has been visited, is passed. -/
theorem Mirrors.passes (h : Mirrors walk visited cycles (⟨file, target :: others⟩ :: before))
    (hcycle : closedCycle? (⟨file, others⟩ :: before) target = none)
    (hknown : graph.targetKeys target.components ≠ none →
      target.components ∈ visited.map Path.components) :
    ∃ next, GraphWalk.Step graph.targetKeys walk next ∧
      Mirrors next visited cycles (⟨file, others⟩ :: before) := by
  obtain ⟨finished, done, stops, rfl, hstops⟩ := h.exists_stop
  have hahead := not_mem_of_closedCycle? hcycle
  rw [List.map_cons, ← map_node_eq hstops] at hahead
  refine ⟨_, .passes hahead hknown, rfl, rfl, ?_⟩
  rw [List.map_cons, List.map_cons, hstops]
  rfl

/-- An import of a file that has not been visited leads to it. -/
theorem Mirrors.enters (h : Mirrors walk visited cycles (⟨file, target :: others⟩ :: before))
    (hfound : Neighbours.find? graph.imports target = some entry)
    (hfresh : ¬isVisited visited entry.file) :
    ∃ next, GraphWalk.Step graph.targetKeys walk next ∧
      Mirrors next (entry.file :: visited) cycles
        (⟨target, entry.others⟩ :: ⟨file, others⟩ :: before) := by
  obtain ⟨finished, done, stops, rfl, hstops⟩ := h.exists_stop
  have hsame := key_of_find? hfound
  rw [isVisited_iff, hsame] at hfresh
  refine ⟨_, .enters (targetKeys_of_find? hfound) hfresh, ?_, rfl, ?_⟩
  · rw [List.map_cons, hsame]
  · rw [List.map_cons, List.map_cons, List.map_cons, List.map_cons, hstops]
    rfl

/-- Whether a walk comes to the end of its way where a walk through the files does. -/
def WalksTo (graph : ImportGraph) (walk : GraphWalk (List PathComponent))
    (result : List Path × List ImportCycle) : Prop :=
  ∃ next, Relation.ReflTransGen (GraphWalk.Step graph.targetKeys) walk next ∧
    Mirrors next result.1 result.2 []

theorem WalksTo.head {result : List Path × List ImportCycle}
    (turn : ∃ next, GraphWalk.Step graph.targetKeys walk next ∧ Mirrors next visited cycles way)
    (rest : ∀ {walk}, Mirrors walk visited cycles way → graph.WalksTo walk result) :
    graph.WalksTo walk result := by
  obtain ⟨middle, hstep, hmiddle⟩ := turn
  obtain ⟨next, hsteps, hnext⟩ := rest hmiddle
  exact ⟨next, hsteps.head hstep, hnext⟩

/-- Following imports takes the steps of a walk until the way is at its end. -/
theorem walksTo_follow (h : Mirrors walk visited cycles way) :
    graph.WalksTo walk (graph.follow visited cycles way) := by
  fun_induction follow graph visited cycles way generalizing walk
  case case1 => exact ⟨walk, .refl, h⟩
  case case2 ih => exact .head h.leaves ih
  case case3 hcycle ih => exact .head (h.closes hcycle) ih
  case case4 hcycle hnone ih =>
    refine .head (h.passes hcycle ?_) ih
    intro hknown
    exact absurd (targetKeys_eq_none hnone) hknown
  case case5 hcycle entry hfound hvisited ih =>
    refine .head (h.passes hcycle ?_) ih
    intro _
    rw [← key_of_find? hfound]
    exact isVisited_iff.mp hvisited
  case case6 hfound hfresh ih => exact .head (h.enters hfound hfresh) ih

/-- A walk at the end of its way starts again at a file that has not been visited. -/
theorem Mirrors.starts (h : Mirrors walk visited cycles [])
    (hknown : graph.targetKeys entry.key = some entry.otherKeys)
    (hfresh : ¬isVisited visited entry.file) :
    ∃ next, GraphWalk.Step graph.targetKeys walk next ∧
      Mirrors next (entry.file :: visited) cycles [entry] := by
  obtain ⟨seen, finished, found, stops⟩ := walk
  obtain ⟨rfl, rfl, hway⟩ := h
  obtain rfl := List.map_eq_nil_iff.mp hway
  rw [isVisited_iff] at hfresh
  exact ⟨_, .starts hknown hfresh, rfl, rfl, rfl⟩

/-- Following imports from some files, one after the other, takes the steps of a walk that comes to
all of them. -/
theorem exists_steps_foldl (once : (graph.imports.map Neighbours.key).Nodup)
    (entries : List Neighbours) (hentries : entries ⊆ graph.imports)
    (h : Mirrors walk visited cycles []) : ∃ next,
    Relation.ReflTransGen (GraphWalk.Step graph.targetKeys) walk next ∧ next.way = [] ∧
      next.found = (entries.foldl (fun (visited, found) entry =>
        if isVisited visited entry.file then (visited, found)
        else graph.follow (entry.file :: visited) found [entry]) (visited, cycles)).2.map
          ImportCycle.keys ∧
      ∀ entry ∈ entries, entry.key ∈ next.seen := by
  induction entries generalizing walk visited cycles with
  | nil => exact ⟨walk, .refl, by simpa using h.way, h.found, by simp⟩
  | cons entry rest ih =>
    obtain ⟨hentry, hrest⟩ := List.cons_subset.mp hentries
    by_cases hvisited : isVisited visited entry.file
    · obtain ⟨next, hsteps, hway, hfound, hall⟩ := ih hrest h
      have hseen : entry.key ∈ next.seen := by
        apply GraphWalk.seen_subset_of_steps hsteps
        rw [h.seen]
        exact isVisited_iff.mp hvisited
      simp only [List.foldl_cons, if_pos hvisited]
      exact ⟨next, hsteps, hway, hfound, List.forall_mem_cons.mpr ⟨hseen, hall⟩⟩
    · obtain ⟨first, hstart, hfirst⟩ := h.starts (targetKeys_of_mem once hentry) hvisited
      obtain ⟨middle, hmiddle, hmirrors⟩ : graph.WalksTo first _ := walksTo_follow hfirst
      obtain ⟨next, hsteps, hway, hfound, hall⟩ := ih hrest hmirrors
      have hseen : entry.key ∈ next.seen := by
        apply GraphWalk.seen_subset_of_steps (hmiddle.trans hsteps)
        rw [hfirst.seen]
        exact List.mem_cons_self
      simp only [List.foldl_cons, if_neg hvisited]
      exact ⟨next, (hmiddle.trans hsteps).head hstart, hway, hfound,
        List.forall_mem_cons.mpr ⟨hseen, hall⟩⟩

/-- Following the imports of all files is a walk through all of the graph that comes to an end. -/
theorem exists_over (once : (graph.imports.map Neighbours.key).Nodup) :
    ∃ walk : GraphWalk (List PathComponent), walk.Over graph.targetKeys ∧
      walk.found = graph.cycles.map ImportCycle.keys := by
  have hstart : Mirrors .initial [] [] [] := ⟨rfl, rfl, rfl⟩
  obtain ⟨walk, hsteps, hway, hfound, hall⟩ :=
    exists_steps_foldl once graph.imports (List.Subset.refl _) hstart
  refine ⟨walk, ⟨hsteps, hway, ?_⟩, hfound⟩
  intro key hkey
  obtain ⟨entry, hentry, rfl⟩ := exists_of_targetKeys hkey
  exact hall entry hentry

end ImportGraph

end ProtoFront
