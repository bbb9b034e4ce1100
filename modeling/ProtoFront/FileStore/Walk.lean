import ProtoFront.FileStore.Disk

/-!
# Walking through directories

`Disk.protoFiles` lists the files below a directory that have the extension `proto`. Files and
directories are taken by increasing name, and a directory's files stand at its place. Links are
followed. A link that leads nowhere is passed over, and so is one that leads back to a directory
that the walk is in, and everything whose path is too long.

The walk ends because whenever it goes into a directory that it is in already, it goes deeper, and
no location is deeper than the deepest of the disk.
-/

namespace ProtoFront

namespace Disk

variable (disk : Disk)

/-- The extension of the files that are looked for. -/
def protoExtension : String := "proto"

/-- The directories that a walk is not in. -/
def unwalked (walked : List Location) : List Location :=
  disk.locations.filter fun location => !walked.contains location

/-- The length of the longest location. -/
def depth : Nat := disk.locations.foldr (fun location deepest => max location.length deepest) 0

/-- What a walk does about a name in a directory. -/
inductive WalkStep where
  | pass
  | take
  | enter (directory : Location)
  deriving DecidableEq, Repr, Inhabited

/-- What a walk does about a name in the last of the directories that it is in. -/
def walkStep (directory : Location) (walked : List Location) (name : String) : WalkStep :=
  match disk.follow linkLimit directory [name] with
  | .error _ => .pass
  | .ok location =>
    match disk.entry? location with
    | some (.file _) => if Path.extension? name = some protoExtension then .take else .pass
    | some .directory =>
      if location = directory ++ [name] then .enter location
      else if walked.contains location then .pass
      else .enter location
    | _ => .pass

theorem mem_locations {location : Location} {entry : DiskEntry}
    (found : disk.entry? location = some entry) : location ∈ disk.locations := by
  unfold entry? at found
  split at found
  case isTrue root => exact root ▸ List.mem_cons_self
  case isFalse =>
    obtain ⟨pair, equation, _⟩ := Option.map_eq_some_iff.mp found
    have same := List.find?_some equation
    exact List.mem_cons_of_mem _
      (List.mem_map.mpr ⟨pair, List.mem_of_find?_eq_some equation, by simpa using same⟩)

theorem length_le_foldr_max {location : Location} {locations : List Location}
    (member : location ∈ locations) :
    location.length ≤ locations.foldr (fun location deepest => max location.length deepest) 0 := by
  induction locations with
  | nil => cases member
  | cons first rest ih =>
    rcases List.mem_cons.mp member with rfl | inside
    · exact Nat.le_max_left _ _
    · exact Nat.le_trans (ih inside) (Nat.le_max_right _ _)

theorem unwalked_cons_length_le (walked : List Location) (location : Location) :
    (disk.unwalked (location :: walked)).length ≤ (disk.unwalked walked).length := by
  have kept : disk.unwalked (location :: walked)
      = (disk.unwalked walked).filter fun other => !(other == location) := by
    simp only [unwalked, List.filter_filter, List.contains_cons, Bool.not_or]
  exact kept ▸ List.length_filter_le _ _

theorem unwalked_cons_length_lt {walked : List Location} {location : Location}
    (member : location ∈ disk.locations) (fresh : walked.contains location = false) :
    (disk.unwalked (location :: walked)).length < (disk.unwalked walked).length := by
  have kept : disk.unwalked (location :: walked)
      = (disk.unwalked walked).filter fun other => !(other == location) := by
    simp only [unwalked, List.filter_filter, List.contains_cons, Bool.not_or]
  have inside : location ∈ disk.unwalked walked :=
    List.mem_filter.mpr ⟨member, by rw [fresh]; rfl⟩
  rw [kept]
  refine Nat.lt_of_le_of_ne (List.length_filter_le _ _) fun equal => ?_
  have := List.length_filter_eq_length_iff.mp equal location inside
  simp at this

theorem walkStep_enter {directory inner : Location} {walked : List Location} {name : String}
    (step : disk.walkStep directory walked name = .enter inner) :
    inner ∈ disk.locations
      ∧ (walked.contains inner = false ∨ inner.length = directory.length + 1) := by
  unfold walkStep at step
  split at step
  case h_1 => cases step
  case h_2 location _ =>
    split at step
    case h_1 => split at step <;> cases step
    case h_2 found =>
      split at step
      case isTrue below =>
        cases step
        exact ⟨disk.mem_locations found, .inr (by simp [below])⟩
      case isFalse =>
        split at step
        case isTrue => cases step
        case isFalse fresh =>
          cases step
          exact ⟨disk.mem_locations found, .inl (by simpa using fresh)⟩
    case h_3 => cases step

/-- The files below a directory, where the walk is in it and in other directories. -/
def protoFilesBelow (path : Path) (directory : Location) (walked : List Location) : List Path :=
  (disk.names directory).flatMap fun name =>
    let named := path.join ⟨name⟩
    if isTooLong named then []
    else
      match _step : disk.walkStep directory walked name with
      | .pass => []
      | .take => [named]
      | .enter inner => protoFilesBelow named inner (inner :: walked)
termination_by ((disk.unwalked walked).length, disk.depth - directory.length)
decreasing_by
  obtain ⟨member, new⟩ := disk.walkStep_enter _step
  by_cases fresh : walked.contains inner = false
  · exact .left _ _ (disk.unwalked_cons_length_lt member fresh)
  · have deeper := new.resolve_left fresh
    have bounded : inner.length ≤ disk.depth := length_le_foldr_max member
    have fewer := disk.unwalked_cons_length_le walked inner
    rcases Nat.lt_or_eq_of_le fewer with less | equal
    · exact .left _ _ less
    · rw [equal]
      exact .right _ (by omega)

/-- The files with the extension `proto` below a path that leads to a directory. -/
def protoFiles (directory : Location) (path : Path) : List Path :=
  match disk.locate directory path with
  | .ok location => disk.protoFilesBelow path location [location]
  | .error _ => []

end Disk

end ProtoFront
