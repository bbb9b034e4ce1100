import ProtoFront.Bundle.Load
import ProtoFront.Symbol.Collect
import ProtoFront.Symbol.Lookup

/-!
# Resolving the references of a bundle

Every name of a type in a bundle is looked up among the symbols of the files that can be seen from
where it stands. What comes of one reference is a `ResolvedReference` or a `Problem`.
-/

namespace ProtoFront

/-- A reference and the declaration that it means. -/
structure ResolvedReference where
  file : Path
  token : Nat
  kind : ReferenceKind
  /-- the name as it was written -/
  name : String
  /-- the full name of the declaration -/
  target : String
  targetKind : SymbolKind
  deriving DecidableEq, Repr, Inhabited

/-- What a reference may point at. The types of map keys are built in and are not looked up. -/
def ReferenceKind.expected? : ReferenceKind → Option Expected
  | fieldType | mapValueType => some .anyType
  | rpcInputType | rpcOutputType | extendeeType => some .messageType
  | mapKeyType => none

/-- All that the references of a bundle come to. -/
structure Resolution where
  table : SymbolTable
  references : List ResolvedReference
  problems : List Problem

/-- What resolving writes to the log. -/
def Resolution.log (resolution : Resolution) : List LogEvent :=
  [.bundleResolved resolution.table.size resolution.references.length resolution.problems.length]

namespace Bundle

/-! ## The references of one file -/

/-- A reference that is to be looked up: the token of its node, its name and what it may point at.
References that the parser has marked are left out, and so are built-in types. -/
def referenceAt? (file : SourceFile) (id : Nat) (kind : ReferenceKind) :
    Option (Nat × String × Expected) := do
  let expected ← kind.expected?
  let node ← file.parsed.tree.node? id
  let token ← node.token?
  guard !node.failed
  guard !(node.isLeaf && (file.buffer.kindAt token).isScalarType)
  return (token, file.parsed.tree.subtreeText file.buffer id, expected)

/-- What comes of one reference inside a scope. -/
def resolveReference (table : SymbolTable) (visible : List Nat) (file : SourceFile)
    (scopes : ScopeStack) (id : Nat) (kind : ReferenceKind) :
    Option (Except Problem ResolvedReference) := do
  let (token, name, expected) ← referenceAt? file id kind
  match table.lookupType visible scopes.current name with
  | none => return .error (.unresolvedReference name file.path token)
  | some symbol =>
    if expected.accepts symbol.kind then
      return .ok ⟨file.path, token, kind, name, symbol.name, symbol.kind⟩
    else return .error (.wrongSymbolKind name symbol.name symbol.kind expected file.path token)

/-- What comes of the references among events, the first of which happens in the given scope. -/
def outcomesFrom (table : SymbolTable) (visible : List Nat) (file : SourceFile)
    (scopes : ScopeStack) : List TreeEvent → List (Except Problem ResolvedReference)
  | [] => []
  | event :: rest =>
    let outcome? :=
      match event with
      | .reference id kind => resolveReference table visible file scopes id kind
      | _ => none
    outcome?.toList ++ outcomesFrom table visible file
      (file.parsed.tree.moveScope file.buffer scopes event) rest

/-- What comes of the references of a file, in preorder. -/
def outcomes (table : SymbolTable) (visible : List Nat) (file : SourceFile) :
    List (Except Problem ResolvedReference) :=
  outcomesFrom table visible file .empty file.parsed.tree.events

/-! ## The whole bundle -/

variable (bundle : Bundle)

/-- Every declaration of the bundle, sorted by name. -/
def symbolTable : SymbolTable :=
  (bundle.files.toList.zipIdx.foldl (fun table entry =>
    table.insertAll (entry.1.parsed.tree.symbols entry.1.buffer entry.2)) SymbolTable.empty).sorted

/-- The paths of the files. -/
def paths : List Path := bundle.files.toList.map SourceFile.path

/-- Resolves every reference of every file. -/
def resolve : Resolution :=
  let table := bundle.symbolTable
  let found := bundle.files.toList.zipIdx.flatMap fun entry =>
    outcomes table (bundle.visibleFiles entry.2) entry.1
  { table
    references := found.filterMap Except.toOption
    problems := (table.duplicates? bundle.paths).getD []
      ++ found.filterMap fun outcome =>
        match outcome with
        | .error problem => some problem
        | .ok _ => none }

/-- The zero-based line and column of a token of a file. -/
def position? (path : Path) (token : Nat) : Option (Nat × Nat) :=
  (bundle.file? path).bind fun file => file.buffer.lineColumn? token

end Bundle

end ProtoFront
