import Mathlib.Data.List.Induction
import ProtoFront.Proofs.Path.Folding

/-!
# What a store in memory holds

A file is looked up by the normal form of its path. Adding a file changes what is found under one
normal form and nothing else (`MemoryStore.find?_add`), so of all files that are added under one
normal form the last one is found, however the paths are spelled (`MemoryStore.find?_ofFiles`). A
normal form is its own normal form. So the true path of a file leads to that file, and it is the
true path of itself.
-/

namespace ProtoFront

variable {path target : Path} {contents : String} {files : List (Path × String)}

namespace MemoryStore

variable {store : MemoryStore}

/-! ## One more file -/

/-- Adding a file changes what is found under the normal form of its path, and nothing else. -/
theorem find?_add (store : MemoryStore) (path other : Path) (contents : String) :
    (store.add path contents).find? other =
      if path.normalize = other.normalize then some (path.normalize, contents)
      else store.find? other := by
  rw [find?, add, List.find?_cons]
  by_cases same : path.normalize = other.normalize
  · rw [if_pos same, same, Path.same_refl]
  · have different : path.normalize.same other.normalize = false :=
      Bool.eq_false_iff.mpr fun h => same (Path.normalize_eq_of_same h)
    rw [if_neg same, different, List.find?_filter, find?]
    refine congrArg (List.find? · store.files) (funext fun file => ?_)
    -- a file that is there under the other normal form has not been replaced
    have kept (there : file.1.same other.normalize = true) :
        file.1.same path.normalize = false := by
      refine Bool.eq_false_iff.mpr fun replaced => same (Path.normalize_eq_of_same ?_)
      rw [Path.same_iff] at replaced there ⊢
      exact replaced.symm.trans there
    rw [Bool.eq_iff_iff, decide_eq_true_iff, Bool.not_eq_true', and_iff_right_iff_imp]
    exact kept

/-- A file is looked up by the normal form of its path. -/
theorem find?_normalize (store : MemoryStore) (path : Path) :
    store.find? path.normalize = store.find? path := by
  rw [find?, Path.normalize_normalize, find?]

/-! ## All files -/

/-- The store of files that are added one after the other. -/
def ofFiles (files : List (Path × String)) : MemoryStore :=
  files.foldl (fun store file => store.add file.1 file.2) empty

/-- These are the contents of the last file whose path has the normal form of `path`. -/
def IsLatest (files : List (Path × String)) (path : Path) (contents : String) : Prop :=
  ∃ before file after, files = before ++ file :: after ∧
    file.1.normalize = path.normalize ∧ file.2 = contents ∧
    ∀ later ∈ after, later.1.normalize ≠ path.normalize

/-- Of the files under one normal form the last one is found. -/
theorem find?_ofFiles (files : List (Path × String)) (path : Path) :
    (ofFiles files).find? path =
      (files.reverse.find? fun file => file.1.normalize = path.normalize).map
        fun file => (path.normalize, file.2) := by
  induction files using List.reverseRecOn with
  | nil => rfl
  | append_singleton files file ih =>
    rw [ofFiles, List.foldl_append, ← ofFiles, List.foldl_cons, List.foldl_nil, find?_add, ih,
      List.reverse_append, List.reverse_singleton, List.singleton_append, List.find?_cons]
    by_cases same : file.1.normalize = path.normalize
    · rw [if_pos same, decide_eq_true same, same]
      rfl
    · rw [if_neg same, decide_eq_false same]

theorem isSome_find?_ofFiles (files : List (Path × String)) (path : Path) :
    ((ofFiles files).find? path).isSome = true ↔
      ∃ file ∈ files, file.1.normalize = path.normalize := by
  rw [find?_ofFiles, Option.isSome_map, List.find?_isSome]
  simp only [List.mem_reverse, decide_eq_true_eq]

/-- What is found in a store is under the normal form that was looked for, and it was added last. -/
theorem find?_ofFiles_eq_some (h : (ofFiles files).find? path = some (target, contents)) :
    target = path.normalize ∧ IsLatest files path contents := by
  rw [find?_ofFiles, Option.map_eq_some_iff] at h
  obtain ⟨file, found, hfile⟩ := h
  obtain ⟨rfl, rfl⟩ := Prod.mk.inj hfile
  obtain ⟨same, after, before, hfiles, hafter⟩ := List.find?_eq_some_iff_append.mp found
  refine ⟨rfl, before.reverse, file, after.reverse, ?_, of_decide_eq_true same, rfl, ?_⟩
  · rw [← List.reverse_reverse files, hfiles]
    simp
  · intro later hlater
    simpa using hafter later (List.mem_reverse.mp hlater)

/-! ## True paths -/

theorem canonicalize_eq_ok_iff : store.canonicalize path = .ok target ↔
    ∃ contents, store.find? path = some (target, contents) := by
  rw [canonicalize]
  split
  case h_1 file found => simp [found, Prod.ext_iff]
  case h_2 missing => simp [missing]

theorem read_eq_ok_iff : store.read path = .ok contents ↔
    ∃ target, store.find? path = some (target, contents) := by
  rw [read]
  split
  case h_1 file found => simp [found, Prod.ext_iff]
  case h_2 missing => simp [missing]

/-- Without faults the loader finds the true path of a file, and the text behind it. -/
theorem loadSource_toFileStore (truePath : store.canonicalize path = .ok target)
    (text : store.read target = .ok contents) :
    (store.toFileStore .none).loadSource path = .ok (target, contents) := by
  have redirected : (store.toFileStore .none).canonicalize path = .ok target := by
    simp only [toFileStore, truePath]
    rfl
  have there : (store.toFileStore .none).readSource target = .ok contents := by
    rw [FileStore.readSource, show (store.toFileStore .none).read target = .ok contents from text]
    rfl
  rw [FileStore.loadSource, redirected]
  change ((store.toFileStore .none).readSource target >>= fun source => pure (target, source)) = _
  rw [there]
  rfl

/-- A path names a file, has a true path, or can be read, just when a file has been added under its
normal form. The true path is the true path of itself, and reading it gives what reading the path
gives: the contents of the file that was added last under that normal form. This is what the loader
finds. -/
theorem canonicalize_fixpoint (files : List (Path × String)) (path : Path) :
    ((ofFiles files).contains path = true ↔
      ∃ target, (ofFiles files).canonicalize path = .ok target) ∧
    ((ofFiles files).contains path = true ↔
      ∃ contents, (ofFiles files).read path = .ok contents) ∧
    ((ofFiles files).contains path = true ↔
      ∃ file ∈ files, file.1.normalize = path.normalize) ∧
    ∀ target, (ofFiles files).canonicalize path = .ok target →
      (ofFiles files).canonicalize target = .ok target ∧
      ∃ contents, (ofFiles files).read target = .ok contents ∧
        (ofFiles files).read path = .ok contents ∧ IsLatest files path contents ∧
        ((ofFiles files).toFileStore .none).loadSource path = .ok (target, contents) := by
  refine ⟨?_, ?_, isSome_find?_ofFiles files path, fun target truePath => ?_⟩
  · simp only [canonicalize_eq_ok_iff, contains, Option.isSome_iff_exists, Prod.exists]
  · simp only [read_eq_ok_iff, contains, Option.isSome_iff_exists, Prod.exists]
    exact exists_comm
  · obtain ⟨contents, found⟩ := canonicalize_eq_ok_iff.mp truePath
    obtain ⟨rfl, latest⟩ := find?_ofFiles_eq_some found
    have again : (ofFiles files).find? path.normalize = some (path.normalize, contents) :=
      (find?_normalize _ path).trans found
    have text : (ofFiles files).read path.normalize = .ok contents :=
      read_eq_ok_iff.mpr ⟨_, again⟩
    exact ⟨canonicalize_eq_ok_iff.mpr ⟨_, again⟩, contents, text,
      read_eq_ok_iff.mpr ⟨_, found⟩, latest, loadSource_toFileStore truePath text⟩

/-- Files under three normal forms, one of them empty. Two are spelled as if they were above the
root. -/
def aboveRoot : List (Path × String) :=
  [(⟨"/../../a"⟩, "old"), (⟨"x/.."⟩, "nothing"), (⟨"//b/./.././a/"⟩, "new"),
    (⟨"../../a"⟩, "inside")]

/-- A path that leads above the root twice finds the file that was added there last. -/
theorem canonicalize_fixpoint_aboveRoot :
    (ofFiles aboveRoot).canonicalize ⟨"/../c/../../a/."⟩ = .ok ⟨"/a"⟩ ∧
      (ofFiles aboveRoot).canonicalize ⟨"/a"⟩ = .ok ⟨"/a"⟩ ∧
      ∃ contents, (ofFiles aboveRoot).read ⟨"/a"⟩ = .ok contents ∧
        (ofFiles aboveRoot).read ⟨"/../c/../../a/."⟩ = .ok contents ∧
        IsLatest aboveRoot ⟨"/../c/../../a/."⟩ contents ∧
        ((ofFiles aboveRoot).toFileStore .none).loadSource ⟨"/../c/../../a/."⟩ =
          .ok (⟨"/a"⟩, contents) := by
  have truePath : (ofFiles aboveRoot).canonicalize ⟨"/../c/../../a/."⟩ = .ok ⟨"/a"⟩ := by
    decide +kernel
  obtain ⟨-, -, -, fixpoint⟩ := canonicalize_fixpoint aboveRoot ⟨"/../c/../../a/."⟩
  exact ⟨truePath, fixpoint _ truePath⟩

end MemoryStore

end ProtoFront
