import ProtoFront.Path.Basic
import ProtoFront.Text.Quoted
import ProtoFront.Total

/-!
# The import graph

An `ImportGraph` keeps for every file the files that it imports, and the other way round. Files
stay in the order in which they were first set, so that walks always go the same way.

`ImportGraph.cycles` walks the graph depth first. Whenever it meets an import of a file on the way
that led there, that part of the way is a cycle.
-/

namespace ProtoFront

/-- A file with the files on the other ends of its edges. -/
structure Neighbours where
  file : Path
  others : List Path
  deriving DecidableEq, Repr, Inhabited

/-- Files and their imports. -/
structure ImportGraph where
  /-- what each file imports, in the order in which the files came -/
  imports : List Neighbours
  /-- what each file is imported by -/
  importers : List Neighbours
  deriving DecidableEq, Repr, Inhabited

/-- A way through the graph that ends where it started. -/
structure ImportCycle where
  files : List Path
  deriving DecidableEq, Repr, Inhabited

/-- The cycle in words. -/
def ImportCycle.message (cycle : ImportCycle) : String :=
  "Circular dependency detected: " ++ Text.quotedList (cycle.files.map Path.text)

namespace Neighbours

/-- The entry of a file. -/
def find? (entries : List Neighbours) (file : Path) : Option Neighbours :=
  entries.find? (·.file.same file)

/-- Replaces what an entry holds, or adds an entry at the end. The file keeps the spelling that it
has. -/
def put (entries : List Neighbours) (file : Path) (others : List Path) : List Neighbours :=
  match entries with
  | [] => [⟨file, others⟩]
  | entry :: rest =>
    if entry.file.same file then ⟨entry.file, others⟩ :: rest else entry :: put rest file others

/-- Adds one file to an entry, which is made if need be. -/
def push (entries : List Neighbours) (file other : Path) : List Neighbours :=
  put entries file (((find? entries file).map Neighbours.others).getD [] ++ [other])

/-- Takes a file out of the entries of other files. -/
def drop (entries : List Neighbours) (files : List Path) (other : Path) : List Neighbours :=
  entries.map fun entry =>
    if files.any (·.same entry.file) then
      ⟨entry.file, entry.others.filter fun path => !path.same other⟩
    else entry

end Neighbours

namespace ImportGraph

variable (graph : ImportGraph)

/-- A graph without files. -/
def empty : ImportGraph := ⟨[], []⟩

/-- What a file imports, if it was ever set. -/
def imports? (file : Path) : Option (List Path) :=
  (Neighbours.find? graph.imports file).map Neighbours.others

/-- The files that import a file, if one ever did. -/
def importers? (file : Path) : Option (List Path) :=
  (Neighbours.find? graph.importers file).map Neighbours.others

/-- Sets all that a file imports. -/
def setImports (file : Path) (targets : List Path) : ImportGraph :=
  let old := (graph.imports? file).getD []
  { imports := Neighbours.put graph.imports file targets
    importers := targets.foldl (fun entries target => Neighbours.push entries target file)
      (Neighbours.drop graph.importers old file) }

/-! ## Cycles -/

/-- The cycle that an import closes, given the way to the importing file, last file first. -/
def closedCycle? (way : List Neighbours) (target : Path) : Option ImportCycle :=
  let files := (way.map Neighbours.file).reverse
  match files.dropWhile fun file => !file.same target with
  | [] => none
  | cycle => some ⟨cycle ++ [target]⟩

/-- Whether a file has been visited. -/
def isVisited (visited : List Path) (file : Path) : Bool := visited.any (·.same file)

/-- The entries of files that have not been visited. -/
def unvisited (visited : List Path) : List Neighbours :=
  graph.imports.filter fun entry => !isVisited visited entry.file

theorem unvisited_length_lt {visited : List Path} {file : Path} {entry : Neighbours}
    (found : Neighbours.find? graph.imports file = some entry)
    (fresh : isVisited visited entry.file = false) :
    (graph.unvisited (entry.file :: visited)).length < (graph.unvisited visited).length := by
  have kept : graph.unvisited (entry.file :: visited)
      = (graph.unvisited visited).filter fun other => !entry.file.same other.file := by
    simp [unvisited, isVisited, List.filter_filter, Bool.not_or]
  rw [kept]
  have member : entry ∈ graph.unvisited visited := by
    simp only [unvisited, List.mem_filter]
    exact ⟨List.mem_of_find?_eq_some found, by simp [fresh]⟩
  refine Nat.lt_of_le_of_ne (List.length_filter_le _ _) fun equal => ?_
  have := List.length_filter_eq_length_iff.mp equal entry member
  simp [Path.same_refl] at this

/-- The imports still to be followed from the files on the way. -/
def remaining (way : List Neighbours) : Nat := total (fun entry => entry.others.length + 1) way

/-- Follows the way depth first. Each file on the way comes with its imports that have not been
followed yet, last file first. -/
def follow (visited : List Path) (cycles : List ImportCycle) :
    List Neighbours → List Path × List ImportCycle
  | [] => (visited, cycles)
  | ⟨_, []⟩ :: before => follow visited cycles before
  | ⟨file, target :: targets⟩ :: before =>
    let way := ⟨file, targets⟩ :: before
    match closedCycle? way target with
    | some cycle => follow visited (cycles ++ [cycle]) way
    | none =>
      match _found : Neighbours.find? graph.imports target with
      | none => follow visited cycles way
      | some entry =>
        if _fresh : isVisited visited entry.file then follow visited cycles way
        else follow (entry.file :: visited) cycles (⟨target, entry.others⟩ :: way)
termination_by way => ((graph.unvisited visited).length, remaining way)
decreasing_by
  · exact .right _ (by simp [remaining])
  · exact .right _ (by simp [remaining])
  · exact .right _ (by simp [remaining])
  · exact .right _ (by simp [remaining])
  · exact .left _ _ (graph.unvisited_length_lt _found (by simpa using _fresh))

/-- The cycles that a walk through all files comes across. -/
def cycles : List ImportCycle :=
  (graph.imports.foldl (fun (visited, found) entry =>
    if isVisited visited entry.file then (visited, found)
    else graph.follow (entry.file :: visited) found [entry]) ([], [])).2

end ImportGraph

end ProtoFront
