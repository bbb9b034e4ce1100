import ProtoFront.Command.Resolve

/-!
# What a command asks of the disk

A command looks at some paths only. Which ones may depend on what stands at others: an import is
looked for once the file that imports it is known. So a disk that is known in part can be completed
step by step until it holds everything that a command asks for.
-/

namespace ProtoFront

namespace SourceFile

/-- Where the imports of a file are looked for. -/
def importCandidates (search : ImportSearch) (file : SourceFile) : List Path :=
  file.imports.flatMap fun entry => search.candidates entry.1.path file.path

end SourceFile

namespace Workplace

variable (workplace : Workplace)

/-- The paths that resolving asks about, as far as the disk is known. -/
def wantedImports (entry : Path) (includeDirs : List Path) : List Path :=
  match workplace.config, workplace.load entry includeDirs with
  | .ok config, .ok (bundle, _) =>
    bundle.files.toList.flatMap
      (SourceFile.importCandidates (workplace.importSearch config includeDirs))
  | _, _ => []

/-- The paths that a command asks about, as far as the disk is known. -/
def wanted (command : Command) : List Path :=
  Config.fileName ::
    match command with
    | .check inputs _ => inputs
    | .tree file _ => [file]
    | .resolve entry includeDirs _ =>
      workplace.absolute entry :: workplace.wantedImports entry includeDirs

end Workplace

end ProtoFront
