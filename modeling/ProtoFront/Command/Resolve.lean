import ProtoFront.Bundle.Resolve
import ProtoFront.Command.Settings
import ProtoFront.Total

/-!
# Resolving the names in a bundle
-/

namespace ProtoFront

namespace Bundle

variable (bundle : Bundle)

/-- A one-based place in a file, in front of what is said about it. -/
def placeText (path : Path) (position : Nat × Nat) : String :=
  path.text ++ ":" ++ toString position.1 ++ ":" ++ toString position.2 ++ ": "

/-- Where a problem is, in front of the problem; nothing if it is not about a place. -/
def problemPlace (problem : Problem) : String :=
  match problem.location? with
  | none => ""
  | some (path, token) =>
    match bundle.position? path token with
    | some (line, column) => placeText path (line + 1, column + 1)
    | none => path.text ++ ": "

/-- A problem as a line of the report. -/
def problemLine (problem : Problem) : String :=
  "error: " ++ bundle.problemPlace problem ++ problem.message ++ "\n"

/-- A reference as a line of the result. -/
def referenceLine (reference : ResolvedReference) : String :=
  let position :=
    match bundle.position? reference.file reference.token with
    | some (line, column) => (line + 1, column + 1)
    | none => (0, 0)
  placeText reference.file position ++ reference.name ++ " -> " ++ reference.target ++ " ("
    ++ reference.targetKind.describe ++ ")\n"

/-- The report on what the parser found wrong in the files. -/
def parseReport : String :=
  String.join (bundle.files.toList.map fun file =>
    diagnosticReport file.buffer file.path file.parsed.diagnostics false)

/-- The number of diagnostics in the files. -/
def parseErrorCount : Nat :=
  total (fun file => file.parsed.diagnostics.length) bundle.files.toList

/-- What is written about the bundle once it is resolved. -/
def outcome (loadLog : List LogEvent) (showReferences : Bool) : Outcome :=
  let resolution := bundle.resolve
  let problems := bundle.problems ++ resolution.problems
  let failed := bundle.parseErrorCount != 0 || !problems.isEmpty
  let references := if showReferences then resolution.references else []
  { emissions :=
      loadLog.map .event ++ [.report bundle.parseReport] ++ resolution.log.map .event
        ++ problems.map (.report ∘ bundle.problemLine)
        ++ references.map (.result ∘ bundle.referenceLine)
        ++ [.result ("\nDone Loaded " ++ toString bundle.files.size ++ " file(s), resolved "
            ++ toString resolution.references.length ++ " reference(s)\n"
            ++ if failed then "   Errors: " ++ toString bundle.parseErrorCount ++ " parse, "
              ++ toString problems.length ++ " import/resolution\n" else "")]
    failed }

end Bundle

namespace Workplace

variable (workplace : Workplace)

/-- Where imports are looked for: first where the settings say, then where the command says. -/
def importSearch (config : Config) (includeDirs : List Path) : ImportSearch :=
  ⟨config.includeDirsFrom workplace.directory.path ++ includeDirs.map workplace.absolute⟩

/-- Loads an entry file with its imports. -/
def load (entry : Path) (includeDirs : List Path) : Except Refusal (Bundle × List LogEvent) := do
  let config ← workplace.config
  (Bundle.load (workplace.importSearch config includeDirs) workplace.store config.syncLimit
    (workplace.absolute entry)).mapError Refusal.unloadable

/-- Resolves the names in an entry file and in what it imports. -/
def resolve (entry : Path) (includeDirs : List Path) (showReferences : Bool) :
    Except Refusal Outcome :=
  (workplace.load entry includeDirs).map fun (bundle, log) => bundle.outcome log showReferences

end Workplace

end ProtoFront
