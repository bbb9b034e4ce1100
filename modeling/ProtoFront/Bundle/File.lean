import ProtoFront.Import.Search
import ProtoFront.Import.Statement
import ProtoFront.Parse.Run

/-!
# The files of a bundle
-/

namespace ProtoFront

/-- A file that has been read and parsed, with its imports and where each was found. -/
structure SourceFile where
  path : Path
  buffer : TokenBuffer
  parsed : ParsedFile
  imports : List (ImportStatement × Option Path)
  package? : Option String

namespace SourceFile

/-- Parses a source and looks for what it imports. -/
def ofSource (search : ImportSearch) (store : FileStore) (syncLimit : Nat) (path : Path)
    (source : String) : SourceFile :=
  let buffer := tokenize source false
  let parsed := buffer.parseTokens .file syncLimit
  { path
    buffer
    parsed
    imports := (parsed.tree.imports buffer).map fun statement =>
      (statement, search.find? store statement.path path)
    package? := parsed.tree.packageName? buffer }

variable (file : SourceFile)

/-- The imports that were found, with the files that they name. -/
def resolvedImports : List (ImportStatement × Path) :=
  file.imports.filterMap fun entry => entry.2.map (entry.1, ·)

/-- The files that a file imports. -/
def dependencies : List Path := file.imports.filterMap (·.2)

/-- The imports that were not found. -/
def missingImports : List ImportNotFound :=
  file.imports.filterMap fun entry =>
    if entry.2.isNone then some ⟨entry.1.path, file.path⟩ else none

theorem dependencies_ofSource_subset (search : ImportSearch) (store : FileStore)
    (syncLimit : Nat) (path : Path) (source : String) :
    ∀ target ∈ (ofSource search store syncLimit path source).dependencies,
      target ∈ store.targets := by
  intro target member
  simp only [dependencies, ofSource, List.mem_filterMap, List.mem_map] at member
  obtain ⟨_, ⟨_, _, rfl⟩, found⟩ := member
  exact ImportSearch.find?_mem found

end SourceFile

end ProtoFront
