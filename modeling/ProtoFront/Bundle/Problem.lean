import ProtoFront.Import.Graph
import ProtoFront.Import.Search
import ProtoFront.Symbol.Basic

/-!
# What can go wrong with a bundle

Except for an entry file that cannot be read, no problem stops anything: problems are collected
beside what could be loaded and resolved.
-/

namespace ProtoFront

/-- What a reference may point at. -/
inductive Expected where
  /-- the type of a field -/
  | anyType
  /-- the type of an rpc, or of what is extended -/
  | messageType
  deriving DecidableEq, Repr, Inhabited

namespace Expected

/-- Whether a kind of symbol will do. -/
def accepts : Expected → SymbolKind → Bool
  | anyType, kind => kind.isType
  | messageType, kind => kind == .message

/-- How a report speaks of what is expected. -/
def describe : Expected → String
  | anyType => "message or enum"
  | messageType => "message"

end Expected

/-- A problem with a bundle. -/
inductive Problem where
  | importNotFound (error : ImportNotFound)
  | unreadable (error : ReadError)
  | circularImport (cycle : ImportCycle)
  | duplicateSymbol (name : String) (file : Path) (token : Nat) (previous : Path)
  | unresolvedReference (name : String) (file : Path) (token : Nat)
  | wrongSymbolKind (name target : String) (found : SymbolKind) (expected : Expected) (file : Path)
    (token : Nat)
  deriving DecidableEq, Repr, Inhabited

namespace Problem

/-- The problem in words. -/
def message : Problem → String
  | importNotFound error => error.message
  | unreadable error => error.message
  | circularImport cycle =>
    "Circular import detected: " ++ " -> ".intercalate (cycle.files.map Path.text)
  | duplicateSymbol name _ _ previous =>
    "\"" ++ name ++ "\" is already defined in " ++ previous.text
  | unresolvedReference name _ _ => "\"" ++ name ++ "\" is not defined"
  | wrongSymbolKind name target found expected _ _ =>
    "\"" ++ name ++ "\" resolves to " ++ found.describe ++ " " ++ target ++ ", expected "
      ++ expected.describe

/-- The file and token that the problem is about, if it is about a place in a file. -/
def location? : Problem → Option (Path × Nat)
  | duplicateSymbol _ file token _ | unresolvedReference _ file token
  | wrongSymbolKind _ _ _ _ file token => some (file, token)
  | importNotFound _ | unreadable _ | circularImport _ => none

end Problem

end ProtoFront
