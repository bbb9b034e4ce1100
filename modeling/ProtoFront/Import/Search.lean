import ProtoFront.FileStore.Basic

/-!
# Where imports are found

An import names a file by a path. It is looked for in each include directory in turn, and last in
the directory of the file that imports it. The first candidate that names a file with a true path
is taken.
-/

namespace ProtoFront

/-- The directories where imports are looked for. -/
structure ImportSearch where
  includeDirs : List Path
  deriving DecidableEq, Repr, Inhabited

/-- An import that was found nowhere: its path, and the file that imports it. -/
structure ImportNotFound where
  importPath : String
  source : Path
  deriving DecidableEq, Repr, Inhabited

/-- The error in words. -/
def ImportNotFound.message (error : ImportNotFound) : String :=
  "Import not found: " ++ error.importPath ++ " imported by " ++ error.source.text

namespace ImportSearch

/-- The candidates for an import, in the order in which they are tried. -/
def candidates (search : ImportSearch) (importPath : String) (source : Path) : List Path :=
  (search.includeDirs ++ source.parent?.toList).map (·.join ⟨importPath⟩)

/-- The true path of a candidate that names a file. -/
def target? (store : FileStore) (candidate : Path) : Option Path :=
  if store.contains candidate then (store.canonicalize candidate).toOption else none

/-- The true path of the first candidate that has one. -/
def find? (search : ImportSearch) (store : FileStore) (importPath : String) (source : Path) :
    Option Path :=
  (search.candidates importPath source).findSome? (target? store)

/-- The candidates that are tried until one is found. -/
def tried (search : ImportSearch) (store : FileStore) (importPath : String) (source : Path) :
    List Path :=
  let all := search.candidates importPath source
  all.take ((all.findIdx fun candidate => (target? store candidate).isSome) + 1)

/-- The file that an import names. -/
def resolve (search : ImportSearch) (store : FileStore) (importPath : String) (source : Path) :
    Except ImportNotFound Path :=
  match search.find? store importPath source with
  | some target => .ok target
  | none => .error ⟨importPath, source⟩

theorem target?_mem {store : FileStore} {candidate target : Path}
    (found : target? store candidate = some target) : target ∈ store.targets := by
  unfold target? at found
  split at found
  case isTrue =>
    cases equation : store.canonicalize candidate with
    | error fault => simp [equation, Except.toOption] at found
    | ok result =>
      simp only [equation, Except.toOption, Option.some.injEq] at found
      exact found ▸ store.canonicalize_mem equation
  case isFalse => cases found

theorem find?_mem {search : ImportSearch} {store : FileStore} {importPath : String}
    {source target : Path} (found : search.find? store importPath source = some target) :
    target ∈ store.targets := by
  obtain ⟨candidate, _, is⟩ := List.exists_of_findSome?_eq_some found
  exact target?_mem is

end ImportSearch

end ProtoFront
