import ProtoFront.Bundle.File
import ProtoFront.Log

/-!
# Loading a bundle

A bundle is an entry file with everything that it imports. Loading keeps a queue: the entry comes
first, and whenever a file has been read, those of its imports that were not met before are added
at the end. A file that cannot be read and an import that cannot be found are recorded, and loading
goes on. In the end the cycles of the import graph are recorded too.

Loading ends because every file that is added to the queue is a true path of the store that was
not met before, and there are finitely many of these.
-/

namespace ProtoFront

/-- An entry file and what it imports, in the order in which the files were loaded. -/
structure Bundle where
  files : Array SourceFile
  graph : ImportGraph
  /-- what went wrong while the files were loaded -/
  problems : List Problem

namespace Bundle

/-! ## Files that are new -/

/-- Whether a file is among those that have been met. -/
def isSeen (seen : List Path) (path : Path) : Bool := seen.any (·.same path)

/-- Those of some files that have not been met before, each once. -/
def discover (seen : List Path) : List Path → List Path
  | [] => []
  | path :: rest =>
    if isSeen seen path then discover seen rest else path :: discover (path :: seen) rest

/-- The true paths that have not been met. -/
def unseen (targets seen : List Path) : List Path := targets.filter fun path => !isSeen seen path

theorem unseen_cons_length_lt {targets seen : List Path} {path : Path} (member : path ∈ targets)
    (fresh : isSeen seen path = false) :
    (unseen targets (path :: seen)).length < (unseen targets seen).length := by
  have kept : unseen targets (path :: seen)
      = (unseen targets seen).filter fun other => !path.same other := by
    simp [unseen, isSeen, List.filter_filter, Bool.not_or]
  rw [kept]
  have inside : path ∈ unseen targets seen := by
    simp only [unseen, List.mem_filter]
    exact ⟨member, by simp [fresh]⟩
  refine Nat.lt_of_le_of_ne (List.length_filter_le _ _) fun equal => ?_
  have := List.length_filter_eq_length_iff.mp equal path inside
  simp [Path.same_refl] at this

theorem isSeen_congr {seen other : List Path} (same : ∀ path, path ∈ seen ↔ path ∈ other)
    (path : Path) : isSeen seen path = isSeen other path := by
  rw [Bool.eq_iff_iff]
  simp only [isSeen, List.any_eq_true, same]

theorem unseen_discover_length_le {targets : List Path} (paths : List Path) :
    ∀ seen : List Path, (∀ path ∈ paths, path ∈ targets) →
      (unseen targets (discover seen paths ++ seen)).length + (discover seen paths).length
        ≤ (unseen targets seen).length := by
  induction paths with
  | nil => intro seen _; simp [discover]
  | cons path rest ih =>
    intro seen inside
    have restInside : ∀ other ∈ rest, other ∈ targets := fun other member =>
      inside other (List.mem_cons_of_mem _ member)
    rw [discover]
    split
    case isTrue => exact ih seen restInside
    case isFalse fresh =>
      have shorter := unseen_cons_length_lt (inside path List.mem_cons_self) (by simpa using fresh)
      have later := ih (path :: seen) restInside
      have same : ∀ other, other ∈ path :: discover (path :: seen) rest ++ seen
          ↔ other ∈ discover (path :: seen) rest ++ path :: seen := fun other => by
        simp only [List.cons_append, List.mem_cons, List.mem_append]
        exact or_left_comm
      have reordered : unseen targets (path :: discover (path :: seen) rest ++ seen)
          = unseen targets (discover (path :: seen) rest ++ path :: seen) := by
        simp only [unseen, isSeen_congr same]
      rw [reordered, List.length_cons]
      omega

/-! ## The queue -/

/-- What has been loaded so far, and the files that have been met. -/
structure Loading where
  files : Array SourceFile
  graph : ImportGraph
  problems : List Problem
  seen : List Path
  log : List LogEvent

namespace Loading

/-- Before anything is loaded; the entry has been met. -/
def start (entry : Path) : Loading := ⟨#[], .empty, [], [entry], []⟩

/-- Records a file that cannot be read. -/
def skip (loading : Loading) (error : ReadError) : Loading :=
  { loading with
    problems := loading.problems ++ [.unreadable error]
    log := loading.log ++ [.importUnreadable error] }

/-- What reading a file writes to the log. -/
def fileLog (search : ImportSearch) (store : FileStore) (file : SourceFile) : List LogEvent :=
  file.parsed.log file.buffer .file
  ++ [.fileLoaded file.path file.imports.length file.parsed.diagnostics.length]
  ++ file.imports.flatMap fun entry =>
    (search.tried store entry.1.path file.path).map LogEvent.tryingCandidate

/-- The imports of a file that have not been met before. -/
def fresh (loading : Loading) (file : SourceFile) : List Path :=
  discover loading.seen file.dependencies

/-- Adds a file. -/
def add (search : ImportSearch) (store : FileStore) (loading : Loading) (file : SourceFile) :
    Loading :=
  { files := loading.files.push file
    graph := loading.graph.setImports file.path file.dependencies
    problems := loading.problems ++ file.missingImports.map Problem.importNotFound
    seen := loading.fresh file ++ loading.seen
    log := loading.log ++ fileLog search store file }

end Loading

/-- Loads the files of the queue and all that they lead to. -/
def loadQueue (search : ImportSearch) (store : FileStore) (syncLimit : Nat) (loading : Loading) :
    List Path → Loading
  | [] => loading
  | path :: queue =>
    match store.readSource path with
    | .error error => loadQueue search store syncLimit (loading.skip error) queue
    | .ok source =>
      let file := SourceFile.ofSource search store syncLimit path source
      loadQueue search store syncLimit (loading.add search store file)
        (queue ++ loading.fresh file)
termination_by queue => (unseen store.targets loading.seen).length + queue.length
decreasing_by
  · simp only [Loading.skip, List.length_cons]
    omega
  · have := unseen_discover_length_le _ loading.seen
      (SourceFile.dependencies_ofSource_subset search store syncLimit path source)
    simp only [Loading.add, Loading.fresh, List.length_append, List.length_cons]
    omega

/-- The bundle that has been loaded, once the queue is empty, with the log. -/
def Loading.finish (loading : Loading) : Bundle × List LogEvent :=
  let cycles := loading.graph.cycles
  let problems := loading.problems ++ cycles.map Problem.circularImport
  (⟨loading.files, loading.graph, problems⟩,
    loading.log ++ [.bundleLoaded loading.files.size problems.length])

/-- Loads an entry file and everything that it imports. This fails only if the entry itself cannot
be read. -/
def load (search : ImportSearch) (store : FileStore) (syncLimit : Nat) (entry : Path) :
    Except Problem (Bundle × List LogEvent) :=
  match store.loadSource entry with
  | .error error => .error (.unreadable error)
  | .ok (path, source) =>
    let file := SourceFile.ofSource search store syncLimit path source
    let first := Loading.start path
    .ok (loadQueue search store syncLimit (first.add search store file) (first.fresh file)).finish

/-! ## The files of a bundle -/

variable (bundle : Bundle)

/-- The number of the file with a path. -/
def fileId? (path : Path) : Option Nat := bundle.files.findIdx? fun file => file.path.same path

/-- The file with a path. -/
def file? (path : Path) : Option SourceFile := bundle.files.find? fun file => file.path.same path

/-- Whether any file has been reported about. -/
def hasParseErrors : Bool := bundle.files.any fun file => file.parsed.hasErrors

/-- The files that a file imports, as far as they were loaded; of the public imports only, if so
asked. -/
def directImports (file : Nat) (publicOnly : Bool) : List Nat :=
  match bundle.files[file]? with
  | none => []
  | some source =>
    (source.resolvedImports.filter fun entry => !publicOnly || entry.1.isPublic).filterMap
      fun entry => bundle.fileId? entry.2

/-- The numbers of files that are not in a list. -/
def invisible (visible : List Nat) : List Nat :=
  (List.range bundle.files.size).filter fun file => !visible.contains file

theorem invisible_cons_length_lt {visible : List Nat} {file : Nat}
    (inside : file < bundle.files.size) (fresh : visible.contains file = false) :
    (bundle.invisible (file :: visible)).length < (bundle.invisible visible).length := by
  have kept : bundle.invisible (file :: visible)
      = (bundle.invisible visible).filter fun other => other != file := by
    simp only [invisible, List.filter_filter, List.contains_cons, Bool.not_or, bne]
  rw [kept]
  have member : file ∈ bundle.invisible visible := by
    simp only [invisible, List.mem_filter, List.mem_range]
    exact ⟨inside, by rw [fresh]; rfl⟩
  refine Nat.lt_of_le_of_ne (List.length_filter_le _ _) fun equal => ?_
  have := List.length_filter_eq_length_iff.mp equal file member
  simp at this

/-- Adds the files on a stack, and all that they import publicly, to those that can be seen. -/
def reveal (visible : List Nat) : List Nat → List Nat
  | [] => visible
  | file :: stack =>
    if _fresh : file < bundle.files.size ∧ visible.contains file = false then
      reveal (file :: visible) (bundle.directImports file true ++ stack)
    else reveal visible stack
termination_by stack => ((bundle.invisible visible).length, stack.length)
decreasing_by
  · exact .left _ _ (bundle.invisible_cons_length_lt _fresh.1 _fresh.2)
  · exact .right _ (by simp)

/-- The files whose declarations a file may refer to, by increasing number: the file itself, what
it imports, and what those import publicly, and so on. -/
def visibleFiles (file : Nat) : List Nat :=
  let visible := bundle.reveal [file] (bundle.directImports file false)
  (List.range bundle.files.size).filter visible.contains

end Bundle

end ProtoFront
