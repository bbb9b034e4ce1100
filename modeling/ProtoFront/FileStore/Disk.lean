import ProtoFront.FileStore.Basic

/-!
# Disks

A `Disk` is a tree of directories with files and symbolic links. A place in the tree is a
`Location`: the names that lead to it from the root. A path is followed segment by segment from the
root or from a directory (`Disk.locate`); links on the way are followed too, but not too many of
them. Names and paths have a greatest length, in bytes: what is longer leads nowhere.
-/

namespace ProtoFront

/-- The names that lead to a place in the tree, outermost first. -/
abbrev Location := List String

/-- The true path of a location. -/
def Location.path (location : Location) : Path := ⟨"/" ++ "/".intercalate location⟩

/-- What stands at a location. -/
inductive DiskEntry where
  | file (contents : ByteArray)
  | directory
  | link (target : Path)
  deriving Inhabited

/-- Whether a file stands there. -/
def DiskEntry.isFile : DiskEntry → Bool
  | file _ => true
  | directory | link _ => false

/-- Whether a directory stands there. -/
def DiskEntry.isDirectory : DiskEntry → Bool
  | directory => true
  | file _ | link _ => false

/-- A tree of directories with files and links. The root is always there. -/
structure Disk where
  entries : List (Location × DiskEntry)
  deriving Inhabited

namespace Disk

/-- A disk with nothing but its root. -/
def empty : Disk := ⟨[]⟩

variable (disk : Disk)

/-- What stands at a location, if anything does. -/
def entry? (location : Location) : Option DiskEntry :=
  if location = [] then some .directory
  else (disk.entries.find? fun entry => entry.1 == location).map (·.2)

/-- Puts an entry at a location where nothing stands. -/
def addEntry (location : Location) (entry : DiskEntry) : Disk :=
  if (disk.entry? location).isSome then disk else ⟨disk.entries ++ [(location, entry)]⟩

/-- The directories that a location is in, outermost first, without the root. -/
def parents (location : Location) : List Location :=
  (List.range (location.length - 1)).map fun depth => location.take (depth + 1)

/-- Puts an entry at a location, and directories above it as needed. -/
def add (location : Location) (entry : DiskEntry) : Disk :=
  ((parents location).foldl (fun disk parent => disk.addEntry parent .directory) disk).addEntry
    location entry

/-- The names in a directory, by increasing bytes. -/
def names (directory : Location) : List String :=
  (disk.entries.filterMap fun entry =>
    match entry.1.getLast? with
    | some name => if entry.1.dropLast = directory then some name else none
    | none => none).mergeSort fun first second => !(second < first)

/-! ## Following paths -/

/-- How many links may be followed on the way to one location. -/
def linkLimit : Nat := 40

/-- How many bytes a name may have. -/
def nameLimit : Nat := 255

/-- How many bytes a path may have. -/
def pathLimit : Nat := 4095

/-- Whether a path has too many bytes. -/
def isTooLong (path : Path) : Bool := pathLimit < path.text.utf8ByteSize

/-- The location that segments lead to from a location. A name is looked up only where there is a
directory, so what is wrong on the way to a name comes before the length of the name. -/
def follow (links : Nat) (location : Location) : List String → Except ReadFault Location
  | [] => .ok location
  | segment :: rest =>
    match disk.entry? location with
    | some .directory =>
      if segment = "" ∨ segment = "." then follow links location rest
      else if segment = ".." then follow links location.dropLast rest
      else if nameLimit < segment.utf8ByteSize then .error .nameTooLong
      else
        match disk.entry? (location ++ [segment]), links with
        | none, _ => .error .noSuchFile
        | some (.link _), 0 => .error .tooManyLinks
        | some (.link target), links + 1 =>
          follow links (if target.isAbsolute then [] else location) (target.steps ++ rest)
        | some _, links => follow links (location ++ [segment]) rest
    | _ => .error .notDirectory
termination_by segments => (links, segments.length)

/-- The location that a path of any length leads to from a directory, name by name. -/
def locateStepwise (directory : Location) (path : Path) : Except ReadFault Location :=
  if path.text.isEmpty then .error .noSuchFile
  else disk.follow linkLimit (if path.isAbsolute then [] else directory) path.steps

/-- The location that a path leads to from a directory. -/
def locate (directory : Location) (path : Path) : Except ReadFault Location :=
  if isTooLong path then .error .nameTooLong else disk.locateStepwise directory path

/-- What a path leads to from a directory, if it leads anywhere. -/
def target? (directory : Location) (path : Path) : Option DiskEntry :=
  (disk.locate directory path).toOption.bind disk.entry?

/-- Whether a path leads to a file. -/
def isFile (directory : Location) (path : Path) : Bool :=
  (disk.target? directory path).any DiskEntry.isFile

/-- Whether a path leads to a directory. -/
def isDirectory (directory : Location) (path : Path) : Bool :=
  (disk.target? directory path).any DiskEntry.isDirectory

/-! ## Reading -/

/-- The text of a file. -/
def textAt (location : Location) : Except ReadFault String :=
  match disk.entry? location with
  | some (.file contents) =>
    match String.fromUTF8? contents with
    | some text => .ok text
    | none => .error .notText
  | some .directory => .error .isDirectory
  | _ => .error .noSuchFile

/-- The text of the file that a path leads to. -/
def read (directory : Location) (path : Path) : Except ReadFault String :=
  (disk.locate directory path).bind disk.textAt

/-- Every location of the disk. -/
def locations : List Location := [] :: disk.entries.map (·.1)

/-- The true path of what a path leads to. It is found name by name, so the path may be of any
length. -/
def truePath (directory : Location) (path : Path) : Except ReadFault Path :=
  match disk.locateStepwise directory path with
  | .error fault => .error fault
  | .ok location =>
    match disk.locations.find? (· == location) with
    | some location => .ok location.path
    | none => .error .noSuchFile

theorem truePath_mem {directory : Location} {path target : Path}
    (found : disk.truePath directory path = .ok target) :
    target ∈ disk.locations.map Location.path := by
  unfold truePath at found
  split at found
  case h_1 => cases found
  case h_2 =>
    split at found
    case h_1 equation =>
      cases found
      exact List.mem_map_of_mem (List.mem_of_find?_eq_some equation)
    case h_2 => cases found

/-- The disk as a store of files, with paths seen from a directory. -/
def toFileStore (directory : Location) : FileStore where
  contains := disk.isFile directory
  canonicalize := disk.truePath directory
  read := disk.read directory
  targets := disk.locations.map Location.path
  canonicalize_mem := disk.truePath_mem

end Disk

end ProtoFront
