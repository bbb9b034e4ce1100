import ProtoFront.FileStore.Basic

/-!
# Files in memory

A `MemoryStore` holds files under the normal forms of their paths. It can also be told to fail: its
`Faults` name files whose true path cannot be found, files that go by another true path, and files
that cannot be read.
-/

namespace ProtoFront

/-- Files by the normal form of their path. -/
structure MemoryStore where
  files : List (Path × String)
  deriving Repr, Inhabited

namespace MemoryStore

/-- A store without files. -/
def empty : MemoryStore := ⟨[]⟩

/-- Puts a file into the store, in place of one that is there under the same path. -/
def add (store : MemoryStore) (path : Path) (contents : String) : MemoryStore :=
  let key := path.normalize
  ⟨(key, contents) :: store.files.filter fun file => !file.1.same key⟩

/-- The file that a path names, under its normal form. -/
def find? (store : MemoryStore) (path : Path) : Option (Path × String) :=
  store.files.find? fun file => file.1.same path.normalize

/-- Whether a path names a file. -/
def contains (store : MemoryStore) (path : Path) : Bool := (store.find? path).isSome

/-- The normal form of a path that names a file. -/
def canonicalize (store : MemoryStore) (path : Path) : Except ReadFault Path :=
  match store.find? path with
  | some file => .ok file.1
  | none => .error (.missing path.normalize)

/-- The text of a file, or the fault that it does not exist. -/
def read (store : MemoryStore) (path : Path) : Except ReadFault String :=
  match store.find? path with
  | some file => .ok file.2
  | none => .error (.missing path.normalize)

theorem canonicalize_mem {store : MemoryStore} {path target : Path}
    (found : store.canonicalize path = .ok target) : target ∈ store.files.map (·.1) := by
  unfold canonicalize at found
  split at found
  case h_1 file equation =>
    cases found
    exact List.mem_map_of_mem (List.mem_of_find?_eq_some equation)
  case h_2 => cases found

/-- Failures that a store is to show. -/
structure Faults where
  /-- files whose true path cannot be found -/
  broken : List Path
  /-- files that go by another true path -/
  aliases : List (Path × Path)
  /-- files that cannot be read under exactly these paths -/
  unreadable : List Path
  deriving Repr, Inhabited

/-- No failures. -/
def Faults.none : Faults := ⟨[], [], []⟩

/-- The true path of a file, in spite of or because of the faults. -/
def Faults.redirect (faults : Faults) (target : Path) : Except ReadFault Path :=
  if faults.broken.any (·.same target) then .error .brokenLink
  else .ok (((faults.aliases.find? fun entry => entry.1.same target).map (·.2)).getD target)

theorem Faults.redirect_mem {faults : Faults} {target final : Path}
    (found : faults.redirect target = .ok final) :
    final = target ∨ final ∈ faults.aliases.map (·.2) := by
  unfold redirect at found
  split at found
  case isTrue => cases found
  case isFalse =>
    cases found
    cases equation : faults.aliases.find? fun entry => entry.1.same target with
    | none => exact .inl (by simp)
    | some entry =>
      exact .inr (by simpa using ⟨entry.1, List.mem_of_find?_eq_some equation⟩)

/-- The store with its faults, as the loader sees it. -/
def toFileStore (store : MemoryStore) (faults : Faults) : FileStore where
  contains := store.contains
  canonicalize path :=
    match store.canonicalize path with
    | .ok target => faults.redirect target
    | .error fault => .error fault
  read path :=
    if faults.unreadable.any (·.same path) then .error .permissionDenied else store.read path
  targets := store.files.map (·.1) ++ faults.aliases.map (·.2)
  canonicalize_mem := by
    intro path final found
    cases equation : store.canonicalize path with
    | error fault => simp [equation] at found
    | ok target =>
      simp only [equation] at found
      rcases Faults.redirect_mem found with rfl | aliased
      · exact List.mem_append_left _ (canonicalize_mem equation)
      · exact List.mem_append_right _ aliased

end MemoryStore

end ProtoFront
