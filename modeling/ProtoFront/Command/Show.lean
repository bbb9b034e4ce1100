import ProtoFront.Command.Settings
import ProtoFront.Diagnostic.Json
import ProtoFront.Tree.Json
import ProtoFront.Tree.Printer

/-!
# Showing the tree of a file
-/

namespace ProtoFront

namespace Workplace

/-- The tree of a file and what is wrong with it, as JSON. -/
def treeJson (path : Path) (source : ParsedSource) : JsonValue :=
  .object [("file", .string path.text), ("tree", source.parsed.tree.toJson),
    ("diagnostics", .array (source.parsed.diagnostics.map Diagnostic.toJson))]

/-- What is written about the tree of a file. -/
def treeEmissions (path : Path) (source : ParsedSource) : TreeFormat → List Emission
  | .text =>
    [.result (source.parsed.tree.print source.buffer),
      .report (diagnosticReport source.buffer path source.parsed.diagnostics true)]
  | .json => [.result ((treeJson path source).pretty ++ "\n")]

/-- Shows the tree of a file. What is wrong with the file is no failure. -/
def showTree (workplace : Workplace) (path : Path) (format : TreeFormat) :
    Except Refusal Outcome := do
  let config ← workplace.config
  let text ← (workplace.store.readSource path).mapError Refusal.unreadableFile
  let source := ParsedSource.ofSource config text
  return ⟨source.log ++ treeEmissions path source format, false⟩

end Workplace

end ProtoFront
