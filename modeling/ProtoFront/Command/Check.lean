import ProtoFront.Command.Settings
import ProtoFront.Total

/-!
# Checking files

Every file that is named, and every file below a directory that is named, is parsed on its own. A
file that cannot be read does not keep the others from being checked.
-/

namespace ProtoFront

/-- A file that has been checked, with what came of it. -/
structure CheckedFile where
  path : Path
  result : Except ReadError ParsedSource

namespace CheckedFile

/-- Checks a file. -/
def ofPath (workplace : Workplace) (config : Config) (path : Path) : CheckedFile :=
  ⟨path, (workplace.store.readSource path).map (ParsedSource.ofSource config)⟩

/-- Whether the file could not be read. -/
def isUnreadable (file : CheckedFile) : Bool := !file.result.isOk

/-- The number of errors in the file. -/
def errorCount (file : CheckedFile) : Nat :=
  match file.result with
  | .error _ => 0
  | .ok source => source.parsed.diagnostics.length

/-- The line of the result that a file has. -/
def resultLine (file : CheckedFile) (sound : Bool) : Emission :=
  .result ((if sound then "✓ " else "✗ ") ++ file.path.text ++ "\n")

/-- What is written about the file. -/
def emissions (file : CheckedFile) (plain : Bool) : List Emission :=
  match file.result with
  | .error error =>
    [.event (.fileSkipped file.path), file.resultLine false,
      .report ("  " ++ error.message ++ "\n")]
  | .ok source =>
    let diagnostics := source.parsed.diagnostics
    source.log ++
      [file.resultLine diagnostics.isEmpty,
        .report (diagnosticReport source.buffer file.path diagnostics plain)]

end CheckedFile

/-- What came of a check in total. -/
structure CheckTotals where
  checked : Nat
  errors : Nat
  failedFiles : Nat
  unreadable : Nat
  deriving DecidableEq, Repr, Inhabited

namespace CheckTotals

/-- The totals over files. -/
def ofFiles (files : List CheckedFile) : CheckTotals :=
  { checked := files.length
    errors := total CheckedFile.errorCount files
    failedFiles := (files.filter fun file => file.errorCount != 0).length
    unreadable := (files.filter CheckedFile.isUnreadable).length }

/-- Whether anything was wrong. -/
def failed (totals : CheckTotals) : Bool := totals.errors != 0 || totals.unreadable != 0

/-- The totals in words. -/
def summary (totals : CheckTotals) : String :=
  "\nDone Checked " ++ toString totals.checked ++ " file(s)\n"
  ++ (if totals.unreadable = 0 then ""
    else "   Unreadable: " ++ toString totals.unreadable ++ " file(s) could not be read\n")
  ++ (if totals.errors = 0 then ""
    else "   Errors: " ++ toString totals.errors ++ " in " ++ toString totals.failedFiles
      ++ " file(s)\n")
  ++ if totals.failed then "" else "   ✓ No issues found!\n"

end CheckTotals

namespace Workplace

/-- The files that an input names: itself, or those below it if it is a directory. -/
def filesOf (workplace : Workplace) (input : Path) : Except Refusal (List Path) :=
  if workplace.disk.isFile workplace.directory input then .ok [input]
  else if workplace.disk.isDirectory workplace.directory input then
    .ok (workplace.disk.protoFiles workplace.directory input)
  else .error (.noSuchInput input)

/-- Checks the files that the inputs name. -/
def check (workplace : Workplace) (inputs : List Path) (plain : Bool) :
    Except Refusal Outcome := do
  let config ← workplace.config
  let paths ← inputs.mapM workplace.filesOf
  let files := paths.flatten.map (CheckedFile.ofPath workplace config)
  let totals := CheckTotals.ofFiles files
  return {
    emissions := .event (.checkStarted files.length)
      :: files.flatMap (CheckedFile.emissions · plain) ++ [.result totals.summary]
    failed := totals.failed }

end Workplace

end ProtoFront
