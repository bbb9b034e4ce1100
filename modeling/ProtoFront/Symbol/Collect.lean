import ProtoFront.Symbol.Scope
import ProtoFront.Tree.Walk

/-!
# The symbols of a file

A walk through the tree of a file collects its declarations under their full names. A package
declares itself and every package that it is in.
-/

namespace ProtoFront

/-- The parts of a text between dots. -/
def dottedParts : List Char → List (List Char)
  | [] => [[]]
  | c :: rest =>
    if c == '.' then [] :: dottedParts rest
    else
      match dottedParts rest with
      | [] => [[c]]
      | first :: more => (c :: first) :: more

/-- The packages that a dotted name is in, outermost first, itself included. -/
def packagePrefixes (package : String) : List String :=
  let parts := (dottedParts package.toList).filter (!·.isEmpty)
  (parts.foldl (fun (all, outer) part =>
    let inner := qualify outer (String.ofList part)
    (all ++ [inner], inner)) (([] : List String), "")).1

namespace ParseTree

variable (tree : ParseTree) (buffer : TokenBuffer) (file : Nat)

/-- The name that a package statement declares, and its token. -/
def packageAt? (id : Nat) : Option (String × Nat) := do
  let name ← tree.findChild? id .name
  let token ← (tree.node? name).bind Node.token?
  return (tree.subtreeText buffer name, token)

/-- The token of the name that a declaration declares. -/
def nameToken? (id : Nat) : Option Nat := do
  let name ← tree.findChild? id .name
  (tree.node? name).bind Node.token?

/-- The symbol that a declaration makes of its name inside a scope. -/
def symbolAt? (scopes : ScopeStack) (id : Nat) (kind : DeclarationKind) : Option Symbol := do
  let symbolKind ← SymbolKind.ofDeclaration? kind
  let token ← tree.nameToken? id
  return ⟨qualify scopes.current (buffer.text token), symbolKind, file, token⟩

/-- How an event of a walk changes the scope. -/
def moveScope (scopes : ScopeStack) : TreeEvent → ScopeStack
  | .declaration id .package =>
    match tree.packageAt? buffer id with
    | some (package, _) => scopes.setPackage package
    | none => scopes
  | .declaration id (.scope kind) => scopes.enter (.scope kind) (tree.declaredName? buffer id)
  | .declaration _ _ | .reference _ _ => scopes
  | .scopeClose _ => scopes.exit

/-- The symbols that an event of a walk declares. -/
def symbolsOf (scopes : ScopeStack) : TreeEvent → List Symbol
  | .declaration id .package =>
    match tree.packageAt? buffer id with
    | some (package, token) =>
      (packagePrefixes package).map fun name => ⟨name, .package, file, token⟩
    | none => []
  | .declaration id kind => (tree.symbolAt? buffer file scopes id kind).toList
  | .reference _ _ | .scopeClose _ => []

/-- The symbols declared by events, the first of which happens in the given scope. -/
def symbolsFrom (scopes : ScopeStack) : List TreeEvent → List Symbol
  | [] => []
  | event :: rest =>
    tree.symbolsOf buffer file scopes event
      ++ symbolsFrom (tree.moveScope buffer scopes event) rest

/-- The symbols that a file declares, in preorder. -/
def symbols : List Symbol := tree.symbolsFrom buffer file .empty tree.events

end ParseTree

end ProtoFront
