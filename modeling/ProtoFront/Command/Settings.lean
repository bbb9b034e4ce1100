import ProtoFront.Command.Basic
import ProtoFront.Config
import ProtoFront.Diagnostic.Report
import ProtoFront.FileStore.Walk

/-!
# What commands work with

A command runs in a directory of a disk, where its settings may stand in a file.
-/

namespace ProtoFront

/-- Why a command cannot do its work. -/
inductive Refusal where
  | unreadableSettings (fault : ReadFault)
  | badSettings (fault : JsonFault)
  | noSuchInput (path : Path)
  | unreadableFile (error : ReadError)
  | unloadable (problem : Problem)
  deriving DecidableEq, Repr, Inhabited

/-- What is wrong with the settings, in words. -/
def JsonFault.message : JsonFault → String
  | endsEarly => "the settings end too early"
  | malformed => "the settings are not JSON"
  | wrongShape => "the settings do not have the right shape"

/-- The reason in words. -/
def Refusal.message : Refusal → String
  | unreadableSettings fault => fault.message
  | badSettings fault => fault.message
  | noSuchInput path => "Input path does not exist: " ++ path.text
  | unreadableFile error => error.message
  | unloadable problem => problem.message

/-- A directory of a disk, where a command runs. -/
structure Workplace where
  disk : Disk
  directory : Location
  deriving Inhabited

namespace Workplace

variable (workplace : Workplace)

/-- The disk as a store of files, seen from the directory. -/
def store : FileStore := workplace.disk.toFileStore workplace.directory

/-- A path as seen from the root. -/
def absolute (path : Path) : Path := workplace.directory.path.join path

/-- The settings in the directory; without a file for them, the default ones. -/
def config : Except Refusal Config :=
  match workplace.disk.target? workplace.directory Config.fileName with
  | none => .ok .default
  | some _ =>
    match workplace.store.read Config.fileName with
    | .error fault => .error (.unreadableSettings fault)
    | .ok text => (Config.read text).mapError Refusal.badSettings

end Workplace

/-- A source that has been cut into tokens and parsed as the settings ask for it. -/
structure ParsedSource where
  buffer : TokenBuffer
  parsed : ParsedFile

namespace ParsedSource

/-- Parses a source. -/
def ofSource (config : Config) (source : String) : ParsedSource :=
  let buffer := tokenize source config.keepComments
  ⟨buffer, buffer.parseTokens .file config.syncLimit⟩

/-- What parsing writes to the log. -/
def log (source : ParsedSource) : List Emission :=
  (source.parsed.log source.buffer .file).map Emission.event

end ParsedSource

/-- The report on what is wrong with a file; a plain one has one line for each diagnostic. -/
def diagnosticReport (buffer : TokenBuffer) (path : Path) (diagnostics : List Diagnostic)
    (plain : Bool) : String :=
  if plain then Diagnostic.plainReport diagnostics buffer path.text
  else Diagnostic.fullReports diagnostics buffer path.text

end ProtoFront
