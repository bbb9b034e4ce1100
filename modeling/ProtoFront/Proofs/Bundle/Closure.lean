import Mathlib.Data.List.Nodup
import Mathlib.Data.List.Perm.Subperm
import ProtoFront.Bundle.Load
import ProtoFront.FileStore.Memory
import ProtoFront.Proofs.Import.Named

/-!
# Loading closes a bundle under imports

Loading takes up files in the order in which it meets them. The entry is met first, and each file
that can be read meets what it imports: what is found under the paths that its import statements
name (`SourceFile.leadsTo`). So what has been met are the entry and the imports of the files that
have been loaded, each once, at its first place (`discover`), and the files still in the queue are
those that have been met and not yet taken up (`Loading.Midway`). When the queue is empty all that
can be reached has been met (`Bundle.Closed`).

Paths are told apart by their components, not by their spellings: a file is taken up under the
spelling under which it is met first.
-/

namespace ProtoFront

/-! ## Reading -/

namespace FileStore

variable {store : FileStore} {path target : Path} {fault : ReadFault} {source : String}

theorem readSource_eq_error (h : store.read path = .error fault) :
    store.readSource path = .error ⟨path, fault⟩ := by
  rw [readSource, h]
  rfl

theorem readSource_eq_ok (h : store.read path = .ok source) :
    store.readSource path = .ok source := by
  rw [readSource, h]
  rfl

/-- A file whose true path is not found is named as it was given. -/
theorem loadSource_of_canonicalize_eq_error (h : store.canonicalize path = .error fault) :
    store.loadSource path = .error ⟨path, fault⟩ := by
  rw [loadSource, h]
  rfl

theorem loadSource_of_canonicalize_eq_ok (h : store.canonicalize path = .ok target) :
    store.loadSource path = (store.readSource target).map (target, ·) := by
  rw [loadSource, h]
  rfl

end FileStore

/-! ## Files of a source -/

namespace SourceFile

/-- The paths that the import statements of a file name, in the order of the source and each as
often as it is named. -/
def importedPaths (file : SourceFile) : List String := file.parsed.tree.importedPaths file.buffer

variable (search : ImportSearch) (store : FileStore) (syncLimit : Nat) (path : Path)
variable (source : String) (file : SourceFile)

/-- What the import statements of a file lead to, statement by statement. -/
def leadsTo : List Path := file.importedPaths.filterMap (search.find? store · file.path)

/-- The import statements of a file that lead nowhere, each as often as it stands there. -/
def leadsNowhere : List ImportNotFound :=
  (file.importedPaths.filter fun importPath =>
    (search.find? store importPath file.path).isNone).map (⟨·, file.path⟩)

theorem map_path_imports_ofSource :
    ((ofSource search store syncLimit path source).parsed.tree.imports
      (ofSource search store syncLimit path source).buffer).map ImportStatement.path =
        (ofSource search store syncLimit path source).importedPaths :=
  (tokenize source false).map_path_imports .file syncLimit

/-- A file depends on what its import statements lead to. -/
theorem dependencies_ofSource : (ofSource search store syncLimit path source).dependencies =
    (ofSource search store syncLimit path source).leadsTo search store := by
  rw [leadsTo, ← map_path_imports_ofSource, List.filterMap_map]
  simp [dependencies, ofSource, List.filterMap_map, Function.comp_def]

/-- An import statement that leads nowhere is missing, each time that it stands in the file. -/
theorem missingImports_ofSource : (ofSource search store syncLimit path source).missingImports =
    (ofSource search store syncLimit path source).leadsNowhere search store := by
  rw [leadsNowhere, ← map_path_imports_ofSource, List.filter_map, List.map_map]
  simp only [missingImports, ofSource, List.filterMap_map, Function.comp_def]
  rw [← List.filterMap_eq_map, List.filterMap_filter]
  rfl

end SourceFile

namespace Bundle

variable {seen other paths first second : List Path} {path : Path}

/-! ## What is met -/

theorem isSeen_cons (seen : List Path) (path other : Path) :
    isSeen (path :: seen) other = (path.same other || isSeen seen other) :=
  List.any_cons

theorem isSeen_append (seen other : List Path) (path : Path) :
    isSeen (seen ++ other) path = (isSeen seen path || isSeen other path) :=
  List.any_append

/-- What is the same as something that has been met has been met. -/
theorem isSeen_of_same {path other : Path} (h : isSeen seen path = true)
    (same : path.same other = true) : isSeen seen other = true := by
  rw [isSeen, List.any_eq_true] at h ⊢
  obtain ⟨met, hmet, hsame⟩ := h
  exact ⟨met, hmet, Path.same_iff.mpr ((Path.same_iff.mp hsame).trans (Path.same_iff.mp same))⟩

/-- What has been met already may be left out. -/
theorem isSeen_cons_of_seen (h : isSeen seen path = true) (other : Path) :
    isSeen (path :: seen) other = isSeen seen other := by
  rw [isSeen_cons]
  cases hsame : path.same other
  · rw [Bool.false_or]
  · rw [Bool.true_or, isSeen_of_same h hsame]

theorem isSeen_append_cons (first seen : List Path) (path other : Path) :
    isSeen (first ++ path :: seen) other = isSeen (path :: (first ++ seen)) other := by
  rw [isSeen_append, isSeen_cons, isSeen_cons, isSeen_append, Bool.or_left_comm]

/-- Only what has been met matters for what is new. -/
theorem discover_congr (h : ∀ path, isSeen seen path = isSeen other path) (paths : List Path) :
    discover seen paths = discover other paths := by
  induction paths generalizing seen other with
  | nil => rfl
  | cons path rest ih =>
    have hnext (next : Path) : isSeen (path :: seen) next = isSeen (path :: other) next := by
      rw [isSeen_cons, isSeen_cons, h]
    rw [discover, discover, h, ih h, ih hnext]

/-- What is new among some files, and then among others. -/
theorem discover_append (seen first second : List Path) : discover seen (first ++ second) =
    discover seen first ++ discover (first ++ seen) second := by
  induction first generalizing seen with
  | nil => rfl
  | cons path rest ih =>
    rw [List.cons_append, discover, discover]
    split
    case isTrue hseen =>
      have hmet : isSeen (rest ++ seen) path = true := by rw [isSeen_append, hseen, Bool.or_true]
      rw [ih, List.cons_append]
      exact congrArg _ (discover_congr (fun other => (isSeen_cons_of_seen hmet other).symm) second)
    case isFalse =>
      rw [ih, List.cons_append]
      exact congrArg (path :: discover (path :: seen) rest ++ ·)
        (discover_congr (isSeen_append_cons rest seen path) second)

theorem isSeen_discover (seen paths : List Path) (path : Path) :
    isSeen (discover seen paths ++ seen) path = isSeen (paths ++ seen) path := by
  induction paths generalizing seen with
  | nil => rfl
  | cons next rest ih =>
    rw [discover]
    split
    case isTrue hseen =>
      have hmet : isSeen (rest ++ seen) next = true := by rw [isSeen_append, hseen, Bool.or_true]
      rw [ih, List.cons_append, isSeen_cons_of_seen hmet]
    case isFalse =>
      rw [List.cons_append, ← isSeen_append_cons, ih, isSeen_append_cons, List.cons_append]

/-- What is new is met once, and has not been met before. -/
theorem pairwise_discover (seen paths : List Path) :
    (discover seen paths).Pairwise (fun path other => path.same other = false) ∧
      ∀ path ∈ discover seen paths, isSeen seen path = false := by
  induction paths generalizing seen with
  | nil => exact ⟨.nil, nofun⟩
  | cons next rest ih =>
    rw [discover]
    split
    case isTrue => exact ih seen
    case isFalse hnew =>
      obtain ⟨distinct, fresh⟩ := ih (next :: seen)
      have fresh' : ∀ path ∈ discover (next :: seen) rest,
          next.same path = false ∧ isSeen seen path = false := fun path hpath => by
        have hfresh := fresh path hpath
        rwa [isSeen_cons, Bool.or_eq_false_iff] at hfresh
      refine ⟨.cons (fun path hpath => (fresh' path hpath).1) distinct, fun path hpath => ?_⟩
      rcases List.mem_cons.mp hpath with rfl | hlater
      · exact Bool.eq_false_iff.mpr hnew
      · exact (fresh' path hlater).2

theorem discover_subset (seen paths : List Path) : discover seen paths ⊆ paths := by
  induction paths generalizing seen with
  | nil => exact List.Subset.refl _
  | cons next rest ih =>
    rw [discover]
    split
    · exact List.subset_cons_of_subset _ (ih seen)
    · exact List.cons_subset_cons _ (ih _)

/-- What is met before something that is among the first files is among them as well. -/
theorem discover_before {before after : List Path}
    (h : discover [] (first ++ second) = before ++ path :: after)
    (hpath : isSeen first path = true) : before ⊆ first := by
  rw [discover_append, List.append_nil] at h
  rcases List.append_eq_append_iff.mp h with ⟨between, -, hlater⟩ | ⟨between, hearlier, -⟩
  · -- it would be met among the second files, though it has been met before
    have hnew := (pairwise_discover first second).2 path (by simp [hlater])
    rw [hpath] at hnew
    cases hnew
  · exact List.Subset.trans (hearlier ▸ List.subset_append_left _ _) (discover_subset [] first)

/-! ## What is reached -/

section

variable (search : ImportSearch) (store : FileStore)

/-- The files that the loaded ones lead to in a number of steps: the entry in none, and in one more
step what an import statement leads to in a file that they lead to. -/
inductive Reaches (files : Array SourceFile) (entry : Path) : Nat → Path → Prop
  | entry : Reaches files entry 0 entry
  | imported {steps : Nat} {path target : Path} {file : SourceFile} :
      Reaches files entry steps path → file ∈ files → path.same file.path = true →
        target ∈ file.leadsTo search store → Reaches files entry (steps + 1) target

variable {search : ImportSearch} {store : FileStore}

theorem Reaches.push {files : Array SourceFile} {entry : Path} {steps : Nat}
    (h : Reaches search store files entry steps path) (file : SourceFile) :
    Reaches search store (files.push file) entry steps path := by
  induction h with
  | entry => exact .entry
  | imported _ hfile hsame htarget ih =>
    exact .imported ih (Array.mem_push_of_mem _ hfile) hsame htarget

end

section

variable (search : ImportSearch) (store : FileStore) (syncLimit : Nat)

/-- The file with a path, if it can be read. -/
def loaded? (path : Path) : Option SourceFile :=
  match store.readSource path with
  | .ok source => some (.ofSource search store syncLimit path source)
  | .error _ => none

/-- What goes wrong with a file: it cannot be read, or import statements of it lead nowhere. -/
def problemsAt (path : Path) : List Problem :=
  match store.readSource path with
  | .ok source =>
    ((SourceFile.ofSource search store syncLimit path source).leadsNowhere search store).map
      .importNotFound
  | .error error => [.unreadable error]

/-- A bundle holds what its entry leads to. The files `met` are those that are reached, each once:
the entry and then what the loaded files import, at its first place, so that what is reached in
fewer steps comes first. Those that can be read are loaded, in this order, and the problems are
those of the files that have been met, in this order, and behind them the cycles. -/
structure Closed (bundle : Bundle) (entry : Path) (met : List Path) : Prop where
  first : met.head? = some entry
  distinct : met.Pairwise fun path other => path.same other = false
  reached : ∀ path ∈ met, ∃ steps, Reaches search store bundle.files entry steps path
  complete : ∀ steps path, Reaches search store bundle.files entry steps path →
    ∃ other ∈ met, other.same path = true
  breadth : met.Pairwise fun path other =>
    ∀ steps, Reaches search store bundle.files entry steps other →
      ∃ fewer ≤ steps, Reaches search store bundle.files entry fewer path
  order : met = discover [] (entry :: bundle.files.toList.flatMap (·.leadsTo search store))
  files : bundle.files.toList = met.filterMap (loaded? search store syncLimit)
  imports : ∀ file ∈ bundle.files, file.dependencies = file.leadsTo search store
  graph : bundle.graph = bundle.files.toList.foldl
    (fun graph file => graph.setImports file.path (file.leadsTo search store)) .empty
  problems : bundle.problems = met.flatMap (problemsAt search store syncLimit) ++
    bundle.graph.cycles.map .circularImport
  bounded : met.length ≤ store.targets.length

/-- Loading in between: the files `done` have been taken up, and the queue holds all others that
have been met. -/
structure Loading.Midway (entry : Path) (loading : Loading) (done queue : List Path) : Prop where
  seen : ∀ path, isSeen loading.seen path = isSeen (done ++ queue) path
  order : done ++ queue =
    discover [] (entry :: loading.files.toList.flatMap (·.leadsTo search store))
  reached : ∀ path ∈ done ++ queue, ∃ steps, Reaches search store loading.files entry steps path
  files : loading.files.toList = done.filterMap (loaded? search store syncLimit)
  graph : loading.graph = loading.files.toList.foldl
    (fun graph file => graph.setImports file.path (file.leadsTo search store)) .empty
  problems : loading.problems = done.flatMap (problemsAt search store syncLimit)

end

variable {search : ImportSearch} {store : FileStore} {syncLimit : Nat} {entry : Path}
variable {loading : Loading} {done queue : List Path} {source : String}

namespace Loading.Midway

theorem start (search : ImportSearch) (store : FileStore) (syncLimit : Nat) (entry : Path) :
    Midway search store syncLimit entry (.start entry) [] [entry] where
  seen _ := rfl
  order := rfl
  reached path hpath := by
    obtain rfl := List.mem_singleton.mp hpath
    exact ⟨0, .entry⟩
  files := rfl
  graph := rfl
  problems := rfl

/-- A file that cannot be read meets nothing. -/
theorem skip {error : ReadError}
    (h : Midway search store syncLimit entry loading done (path :: queue))
    (unreadable : store.readSource path = .error error) :
    Midway search store syncLimit entry (loading.skip error) (done ++ [path]) queue where
  seen other := by
    rw [List.append_assoc]
    exact h.seen other
  order := by
    rw [List.append_assoc]
    exact h.order
  reached other hother := by
    rw [List.append_assoc] at hother
    exact h.reached other hother
  files := by
    rw [List.filterMap_append, ← h.files]
    simp [Loading.skip, loaded?, unreadable]
  graph := h.graph
  problems := by
    rw [List.flatMap_append, ← h.problems]
    simp [Loading.skip, problemsAt, unreadable]

/-- A file that is read meets what it imports. -/
theorem add (h : Midway search store syncLimit entry loading done (path :: queue))
    (readable : store.readSource path = .ok source) :
    let file := SourceFile.ofSource search store syncLimit path source
    Midway search store syncLimit entry (loading.add search store file) (done ++ [path])
      (queue ++ loading.fresh file) := by
  intro file
  have depends : file.dependencies = file.leadsTo search store :=
    SourceFile.dependencies_ofSource search store syncLimit path source
  have hfiles : (loading.add search store file).files.toList = loading.files.toList ++ [file] :=
    Array.toList_push
  have met : done ++ [path] ++ (queue ++ loading.fresh file) =
      done ++ path :: queue ++ loading.fresh file := by simp
  refine ⟨fun other => ?_, ?_, fun other hother => ?_, ?_, ?_, ?_⟩
  · rw [met, isSeen_append, ← h.seen, Bool.or_comm]
    exact isSeen_append (loading.fresh file) loading.seen other
  · -- the imports of the file come behind everything that has been met
    have hseen (other : Path) : isSeen loading.seen other = isSeen
        (entry :: loading.files.toList.flatMap (·.leadsTo search store) ++ []) other := by
      rw [h.seen, h.order, ← isSeen_discover, List.append_nil]
    rw [met, hfiles, List.flatMap_append, ← List.cons_append, discover_append, ← h.order,
      Loading.fresh, depends, discover_congr hseen, List.flatMap_singleton]
  · rw [met, List.mem_append] at hother
    rcases hother with hmet | hnew
    · obtain ⟨steps, hsteps⟩ := h.reached other hmet
      exact ⟨steps, hsteps.push file⟩
    · obtain ⟨steps, hsteps⟩ := h.reached path (by simp)
      exact ⟨steps + 1, (hsteps.push file).imported Array.mem_push_self path.same_refl
        (depends ▸ discover_subset _ _ hnew)⟩
  · rw [hfiles, h.files, List.filterMap_append]
    simp [loaded?, readable, file]
  · rw [hfiles, List.foldl_append, ← h.graph, List.foldl_cons, ← depends]
    rfl
  · rw [List.flatMap_append, ← h.problems]
    simp [Loading.add, problemsAt, readable, file, SourceFile.missingImports_ofSource]

end Loading.Midway

/-- Loading takes up all that is in the queue, and all that is met on the way. -/
theorem midway_loadQueue (h : Loading.Midway search store syncLimit entry loading done queue) :
    ∃ met, Loading.Midway search store syncLimit entry
      (loadQueue search store syncLimit loading queue) met [] := by
  fun_induction loadQueue search store syncLimit loading queue generalizing done
  case case1 => exact ⟨done, h⟩
  case case2 unreadable ih => exact ih (h.skip unreadable)
  case case3 readable _ ih => exact ih (h.add readable)

/-! ## The closed bundle -/

theorem path_of_loaded? {file : SourceFile}
    (h : loaded? search store syncLimit path = some file) : file.path = path := by
  rw [loaded?] at h
  split at h
  case h_1 => rw [← Option.some.inj h]; rfl
  case h_2 => cases h

namespace Loading.Midway

variable {met : List Path} {file : SourceFile}

theorem eq_discover (h : Midway search store syncLimit entry loading met []) :
    met = discover [] (entry :: loading.files.toList.flatMap (·.leadsTo search store)) := by
  rw [← h.order, List.append_nil]

/-- Every file that is loaded is the file with a path that has been met. -/
theorem exists_of_mem (h : Midway search store syncLimit entry loading met [])
    (hfile : file ∈ loading.files) :
    ∃ path source, file = SourceFile.ofSource search store syncLimit path source := by
  rw [← Array.mem_toList_iff, h.files, List.mem_filterMap] at hfile
  obtain ⟨path, -, hpath⟩ := hfile
  rw [loaded?] at hpath
  split at hpath
  case h_1 source _ => exact ⟨path, source, (Option.some.inj hpath).symm⟩
  case h_2 => cases hpath

theorem first_file (h : Midway search store syncLimit entry loading met [])
    (readable : store.readSource entry = .ok source) :
    loading.files[0]? = some (.ofSource search store syncLimit entry source) := by
  rw [← Array.getElem?_toList, h.files, h.eq_discover, discover, isSeen, List.any_nil,
    if_neg Bool.false_ne_true, List.filterMap_cons_some (by rw [loaded?, readable])]
  rfl

theorem distinct (h : Midway search store syncLimit entry loading met []) :
    met.Pairwise fun path other => path.same other = false := by
  rw [h.eq_discover]
  exact (pairwise_discover [] _).1

/-- Once the queue is empty, all that is reached has been met. -/
theorem complete {steps : Nat} (h : Midway search store syncLimit entry loading met [])
    (reaches : Reaches search store loading.files entry steps path) : isSeen met path = true := by
  have hmet := isSeen_discover []
    (entry :: loading.files.toList.flatMap (·.leadsTo search store)) path
  rw [List.append_nil, List.append_nil, ← h.eq_discover] at hmet
  rw [hmet, isSeen, List.any_eq_true]
  refine ⟨path, ?_, path.same_refl⟩
  cases reaches with
  | entry => exact List.mem_cons_self
  | imported _ hfile _ htarget =>
    exact List.mem_cons_of_mem _
      (List.mem_flatMap.mpr ⟨_, Array.mem_toList_iff.mpr hfile, htarget⟩)

/-- Files are loaded in the order in which their paths have been met. -/
theorem met_split {earlier later : List SourceFile}
    (h : Midway search store syncLimit entry loading met [])
    (hfiles : loading.files.toList = earlier ++ file :: later) :
    ∃ before after, met = before ++ file.path :: after ∧
      ∀ importer ∈ earlier, importer.path ∈ before := by
  obtain ⟨before, rest, rfl, hearlier, hrest⟩ :=
    List.filterMap_eq_append_iff.mp (h.files.symm.trans hfiles)
  obtain ⟨skipped, path, after, rfl, -, hpath, -⟩ := List.filterMap_eq_cons_iff.mp hrest
  obtain rfl := path_of_loaded? hpath
  refine ⟨before ++ skipped, after, (List.append_assoc _ _ _).symm, fun importer himporter => ?_⟩
  rw [← hearlier, List.mem_filterMap] at himporter
  obtain ⟨path, hmem, hloaded⟩ := himporter
  rw [path_of_loaded? hloaded]
  exact List.mem_append_left _ hmem

/-- What is met before an import of a file is the entry, or an import of the file or of one that was
loaded before it. -/
theorem imported_before {earlier later : List SourceFile} {before after : List Path}
    {target other : Path} (h : Midway search store syncLimit entry loading met [])
    (hfiles : loading.files.toList = earlier ++ file :: later)
    (hmet : met = before ++ path :: after) (hsame : path.same target = true)
    (htarget : target ∈ file.leadsTo search store) (hother : other ∈ before) :
    other = entry ∨ (∃ importer ∈ earlier, other ∈ importer.leadsTo search store) ∨
      other ∈ file.leadsTo search store := by
  have hsplit : entry :: loading.files.toList.flatMap (·.leadsTo search store) =
      (entry :: earlier.flatMap (·.leadsTo search store) ++ file.leadsTo search store) ++
        later.flatMap (·.leadsTo search store) := by
    simp [hfiles]
  have hdiscover := h.eq_discover
  rw [hmet, hsplit] at hdiscover
  have hmem := discover_before hdiscover.symm (List.any_eq_true.mpr
    ⟨target, List.mem_append_right _ htarget, Path.same_symm hsame⟩) hother
  simpa only [List.cons_append, List.mem_cons, List.mem_append, List.mem_flatMap] using hmem

/-- What is met before a path is reached in no more steps. -/
theorem breadth {steps : Nat} {before after : List Path} {target other : Path}
    (h : Midway search store syncLimit entry loading met [])
    (reaches : Reaches search store loading.files entry steps target)
    (hmet : met = before ++ path :: after)
    (hsame : path.same target = true) (hother : other ∈ before) :
    ∃ fewer ≤ steps, Reaches search store loading.files entry fewer other := by
  induction reaches generalizing path other before after with
  | entry =>
    have hdiscover := h.eq_discover
    rw [hmet, ← List.singleton_append] at hdiscover
    obtain rfl := List.mem_singleton.mp (discover_before hdiscover.symm
      (List.any_eq_true.mpr ⟨_, List.mem_singleton_self _, Path.same_symm hsame⟩) hother)
    exact ⟨0, Nat.le_refl 0, .entry⟩
  | @imported steps _ target file hsteps hfile hto htarget ih =>
    obtain ⟨earlier, later, hfiles⟩ := List.append_of_mem (Array.mem_toList_iff.mpr hfile)
    rcases h.imported_before hfiles hmet hsame htarget hother with
      rfl | ⟨importer, himporter, himport⟩ | himport
    · exact ⟨0, Nat.zero_le _, .entry⟩
    · -- the importer was met before the file that imports the target, in no more steps
      obtain ⟨before', after', hmet', hbefore⟩ := h.met_split hfiles
      obtain ⟨fewer, hfewer, hreaches⟩ := ih hmet' (Path.same_symm hto) (hbefore _ himporter)
      have hmem : importer ∈ loading.files := by
        rw [← Array.mem_toList_iff, hfiles]
        exact List.mem_append_left _ himporter
      exact ⟨fewer + 1, Nat.succ_le_succ hfewer,
        hreaches.imported hmem importer.path.same_refl himport⟩
    · exact ⟨steps + 1, Nat.le_refl _, hsteps.imported hfile hto himport⟩

/-- When the queue is empty, the bundle is closed. -/
theorem closed (h : Midway search store syncLimit entry loading met [])
    (inside : entry ∈ store.targets) :
    loading.finish.1.Closed search store syncLimit entry met where
  first := by
    rw [h.eq_discover]
    rfl
  distinct := h.distinct
  reached path hpath := h.reached path (by rwa [List.append_nil])
  complete steps path hpath := by
    have hmet := h.complete hpath
    rwa [isSeen, List.any_eq_true] at hmet
  breadth := by
    refine List.pairwise_iff_forall_sublist.mpr fun hsublist steps reaches => ?_
    obtain ⟨front, back, rfl, hpath, hother⟩ := List.cons_sublist_iff.mp hsublist
    obtain ⟨between, after, rfl⟩ := List.append_of_mem (List.singleton_sublist.mp hother)
    exact h.breadth reaches (List.append_assoc _ _ _).symm (Path.same_refl _)
      (List.mem_append_left _ hpath)
  order := h.eq_discover
  files := h.files
  imports file hfile := by
    obtain ⟨path, source, rfl⟩ := h.exists_of_mem hfile
    exact SourceFile.dependencies_ofSource search store syncLimit path source
  graph := h.graph
  problems := by
    change loading.problems ++ _ = _
    rw [h.problems]
    rfl
  bounded := by
    have nodup : met.Nodup := h.distinct.imp fun hdistinct hsame => by
      rw [hsame, Path.same_refl] at hdistinct
      cases hdistinct
    refine (nodup.subperm fun path hpath => ?_).length_le
    rw [h.eq_discover] at hpath
    rcases List.mem_cons.mp (discover_subset _ _ hpath) with rfl | himported
    · exact inside
    · obtain ⟨file, hfile, htarget⟩ := List.mem_flatMap.mp himported
      obtain ⟨path, source, rfl⟩ := h.exists_of_mem (Array.mem_toList_iff.mp hfile)
      rw [← SourceFile.dependencies_ofSource search store syncLimit path source] at htarget
      exact SourceFile.dependencies_ofSource_subset search store syncLimit path source _ htarget

end Loading.Midway

/-- Loading fails if and only if the entry cannot be found or read. Otherwise it ends with a bundle
that holds the entry, as its first file, and all that the entry leads to by imports. -/
theorem load_closed (search : ImportSearch) (store : FileStore) (syncLimit : Nat) (entry : Path) :
    ((∃ problem, load search store syncLimit entry = .error problem) ↔
      (∃ fault, store.canonicalize entry = .error fault) ∨
        ∃ target fault, store.canonicalize entry = .ok target ∧ store.read target = .error fault) ∧
    ∀ target source, store.canonicalize entry = .ok target → store.read target = .ok source →
      ∃ bundle log met, load search store syncLimit entry = .ok (bundle, log) ∧
        bundle.files[0]? = some (.ofSource search store syncLimit target source) ∧
        bundle.Closed search store syncLimit target met := by
  constructor
  · rw [load]
    cases hcanonical : store.canonicalize entry with
    | error fault => simp [FileStore.loadSource_of_canonicalize_eq_error hcanonical]
    | ok target =>
      rw [FileStore.loadSource_of_canonicalize_eq_ok hcanonical]
      cases hread : store.read target with
      | error fault => simp [FileStore.readSource_eq_error hread, Except.map, hread]
      | ok source => simp [FileStore.readSource_eq_ok hread, Except.map, hread]
  · intro target source hcanonical hread
    have readable := FileStore.readSource_eq_ok hread
    obtain ⟨met, hmet⟩ := midway_loadQueue
      ((Loading.Midway.start search store syncLimit target).add readable)
    rw [List.nil_append] at hmet
    rw [load, FileStore.loadSource_of_canonicalize_eq_ok hcanonical, readable]
    exact ⟨_, _, met, rfl, hmet.first_file readable,
      hmet.closed (store.canonicalize_mem hcanonical)⟩

/-- What is made of an entry and all that it leads to, as a value that can be computed. It is empty
if the entry cannot be read. -/
def made (search : ImportSearch) (store : FileStore) (syncLimit : Nat) (entry : Path) : Bundle :=
  ((load search store syncLimit entry).toOption.map Prod.fst).getD ⟨#[], .empty, []⟩

theorem eq_made {bundle : Bundle} {log : List LogEvent} {search : ImportSearch}
    {store : FileStore} {syncLimit : Nat} {entry : Path}
    (h : load search store syncLimit entry = .ok (bundle, log)) :
    bundle = made search store syncLimit entry := by
  rw [made, h]
  rfl

/-- The text of a file that imports another one, twice one that is not there, and in a broken
statement nothing. -/
def ringEntry : String :=
  "import \"b.proto\"; import \"c.proto\"; import public; import weak \"c\" '.proto';"

/-- Two files that import each other, one of which imports itself as well, and a third one that
cannot be read. -/
def ringStore : FileStore :=
  (MemoryStore.mk [(⟨"/a.proto"⟩, ringEntry),
    (⟨"/b.proto"⟩, "import \"a.proto\"; import \"./b.proto\"; import \"d.proto\";"),
    (⟨"/d.proto"⟩, "")]).toFileStore ⟨[], [], [⟨"/d.proto"⟩]⟩

/-- Two of the three files that are met are loaded, and each import of the missing file is reported
once, as is the file that cannot be read. -/
theorem load_closed_ringStore :
    ringStore.canonicalize ⟨"/./a.proto"⟩ = .ok ⟨"/a.proto"⟩ ∧
    ringStore.read ⟨"/a.proto"⟩ = .ok ringEntry ∧
    ∃ bundle log met, load ⟨[]⟩ ringStore 10 ⟨"/./a.proto"⟩ = .ok (bundle, log) ∧
      bundle.files[0]? = some (.ofSource ⟨[]⟩ ringStore 10 ⟨"/a.proto"⟩ ringEntry) ∧
      bundle.Closed ⟨[]⟩ ringStore 10 ⟨"/a.proto"⟩ met ∧
      met = [⟨"/a.proto"⟩, ⟨"/b.proto"⟩, ⟨"/d.proto"⟩] ∧
      bundle.files.toList.map SourceFile.path = [⟨"/a.proto"⟩, ⟨"/b.proto"⟩] ∧
      bundle.problems =
        [.importNotFound ⟨"c.proto", ⟨"/a.proto"⟩⟩, .importNotFound ⟨"c.proto", ⟨"/a.proto"⟩⟩,
          .unreadable ⟨⟨"/d.proto"⟩, .permissionDenied⟩] ++
        bundle.graph.cycles.map .circularImport := by
  obtain ⟨bundle, log, met, hload, first, closed⟩ :=
    (load_closed ⟨[]⟩ ringStore 10 ⟨"/./a.proto"⟩).2 _ _ rfl rfl
  obtain rfl := eq_made hload
  have hmet : met = [⟨"/a.proto"⟩, ⟨"/b.proto"⟩, ⟨"/d.proto"⟩] := by
    rw [closed.order]
    decide +kernel
  have files : (made ⟨[]⟩ ringStore 10 ⟨"/./a.proto"⟩).files.toList.map SourceFile.path =
      [⟨"/a.proto"⟩, ⟨"/b.proto"⟩] := by decide +kernel
  have found : met.flatMap (problemsAt ⟨[]⟩ ringStore 10) =
      [.importNotFound ⟨"c.proto", ⟨"/a.proto"⟩⟩, .importNotFound ⟨"c.proto", ⟨"/a.proto"⟩⟩,
        .unreadable ⟨⟨"/d.proto"⟩, .permissionDenied⟩] := by
    rw [hmet]
    decide +kernel
  exact ⟨rfl, rfl, _, log, met, hload, first, closed, hmet, files,
    found ▸ closed.problems⟩

end Bundle

end ProtoFront
