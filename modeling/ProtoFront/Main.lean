import ProtoFront.Command.Arguments
import ProtoFront.Command.Run
import ProtoFront.Command.Wanted

/-!
# The program

Reads the command line, takes a picture of the part of the disk that the command asks for, runs the
command on the picture and writes what comes of it.
-/

namespace ProtoFront

namespace Program

/-- The true path of what a path leads to, if it leads anywhere. -/
def truePath? (path : Path) : IO (Option Path) := do
  try return some ⟨(← IO.FS.realPath path.text).toString⟩
  catch _ => return none

/-- The names that lead to an absolute path without links. -/
def locationOf (path : Path) : Location := path.steps.filter (!·.isEmpty)

/-- The names in a directory, or nothing if no directory stands there. -/
def namesIn? (location : Location) : IO (Option (List String)) := do
  let path ← IO.FS.realPath location.path.text
  if ← path.isDir then return some ((← path.readDir).toList.map (·.fileName)) else return none

/-- Adds what stands at a location. -/
def picture (disk : Disk) (location : Location) : IO Disk := do
  if (disk.entry? location).isSome then return disk
  match ← namesIn? location with
  | some _ => return disk.add location .directory
  | none =>
    try return disk.add location (.file (← IO.FS.readBinFile location.path.text))
    catch _ => return disk

/-- Adds what a path comes across on its way from a location. -/
partial def pictureWay (disk : Disk) (location : Location) : List String → IO Disk
  | [] => return disk
  | segment :: rest => do
    if segment = "" ∨ segment = "." then pictureWay disk location rest
    else if segment = ".." then pictureWay disk location.dropLast rest
    else
      let next := location ++ [segment]
      match ← truePath? next.path with
      | none => return disk
      | some target =>
        if locationOf target = next then pictureWay (← picture disk next) next rest
        else pictureWay (disk.add next (.link target)) [] (target.steps ++ rest)

/-- Adds what stands below a directory, links followed. The directories in `listed` are done. -/
partial def pictureBelow (disk : Disk) (listed : List Location) (location : Location) :
    IO (Disk × List Location) := do
  if listed.contains location then return (disk, listed)
  match ← namesIn? location with
  | none => return (disk, listed)
  | some names =>
    let mut state := (disk, location :: listed)
    for name in names do
      let some target ← truePath? (location ++ [name]).path | continue
      let isDirectory := (← namesIn? (locationOf target)).isSome
      if isDirectory || Path.extension? name = some Disk.protoExtension then
        let disk ← pictureWay state.1 location [name]
        state ← pictureBelow disk state.2 (locationOf target)
    return state

/-- Adds what a path leads to, and what stands below it if it is a directory that is walked
through. -/
def picturePath (workplace : Workplace) (walks : Bool) (path : Path) : IO Workplace := do
  let start := if path.isAbsolute then [] else workplace.directory
  let disk ← pictureWay workplace.disk start path.steps
  match disk.locate workplace.directory path with
  | .ok location =>
    if walks then return { workplace with disk := (← pictureBelow disk [] location).1 }
    else return { workplace with disk }
  | .error _ => return { workplace with disk }

/-- Adds what a command asks for, until it asks for nothing more. -/
partial def pictureFor (command : Command) (workplace : Workplace) (asked : List Path) :
    IO Workplace := do
  let wanted := (workplace.wanted command).filter (!asked.contains ·)
  if wanted.isEmpty then return workplace
  let walks := match command with
    | .check _ _ => true
    | .tree _ _ | .resolve _ _ _ => false
  pictureFor command (← wanted.foldlM (picturePath · walks) workplace) (wanted ++ asked)

/-- The level of the log: what the environment says, or else what the command line says. -/
def logLevel? (verbosity : Nat) : IO (Option LogLevel) := do
  match ← IO.getEnv "PROTEAN_LOG" with
  | none => return some (.ofVerbosity verbosity)
  | some name => return LogLevel.all.find? (·.name == name)

/-- How the program is called. -/
def usage : String :=
  "usage: protean [-v]... check [--plain] INPUT...\n"
  ++ "       protean [-v]... tree [--format text|json] FILE\n"
  ++ "       protean [-v]... resolve [-I DIR]... [--references] ENTRY\n"

end Program

end ProtoFront

open ProtoFront in
/-- Runs the command that the arguments ask for. -/
def main (arguments : List String) : IO UInt32 := do
  match CommandLine.read arguments with
  | none =>
    IO.eprint Program.usage
    return 2
  | some (command, verbosity) =>
    let directory := Program.locationOf ⟨(← IO.currentDir).toString⟩
    let disk ← Program.pictureWay .empty [] directory
    let workplace ← Program.pictureFor command ⟨disk, directory⟩ []
    let outcome := workplace.run command
    IO.print outcome.resultText
    IO.eprint (outcome.reportText (← Program.logLevel? verbosity))
    return UInt32.ofNat outcome.exitCode
