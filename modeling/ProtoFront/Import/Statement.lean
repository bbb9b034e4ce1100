import ProtoFront.Import.Literal
import ProtoFront.Tree.Walk

/-!
# Imports and package of a file

The import statements of a file and the name of its package, read back from its tree. Statements
that the parser has marked are left out.
-/

namespace ProtoFront

/-- An import statement: the path it names, its modifiers, and its first token. -/
structure ImportStatement where
  path : String
  isPublic : Bool
  isWeak : Bool
  token? : Option Nat
  deriving DecidableEq, Repr, Inhabited

namespace ImportStatement

/-- Takes in one token of the statement. Strings in a row make one path. -/
def withToken (statement : ImportStatement) (buffer : TokenBuffer) (token : Nat) :
    ImportStatement :=
  let text := buffer.text token
  match buffer.kindAt token with
  | .stringLiteral => { statement with path := statement.path ++ Literal.unquote text }
  | .identifier =>
    if text = "public" then { statement with isPublic := true }
    else if text = "weak" then { statement with isWeak := true }
    else statement
  | _ => statement

end ImportStatement

namespace ParseTree

variable (tree : ParseTree) (buffer : TokenBuffer)

/-- The nodes without a parent that are declarations of a kind and are not marked, in source
order. -/
def soundRoots (kind : DeclarationKind) : List Nat :=
  tree.roots.reverse.filter fun id =>
    match tree.node? id with
    | some node => node.kind? == some (.declaration kind) && !node.failed
    | none => false

/-- The import statement that a node stands for. -/
def importAt (id : Nat) : ImportStatement :=
  let tokens := (tree.children id).reverse.filterMap fun child =>
    (tree.node? child).bind Node.token?
  tokens.foldl (fun statement token => statement.withToken buffer token)
    ⟨"", false, false, (tree.node? id).bind Node.token?⟩

/-- The imports of a file in source order. -/
def imports : List ImportStatement := (tree.soundRoots .importing).map (tree.importAt buffer)

/-- The name in the first package statement that has one. -/
def packageName? : Option String :=
  ((tree.soundRoots .package).findSome? fun id => tree.findChild? id .name).map
    (tree.subtreeText buffer)

end ParseTree

end ProtoFront
