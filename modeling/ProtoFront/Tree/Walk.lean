import ProtoFront.Token.Buffer
import ProtoFront.Tree.Basic

/-!
# Reading a tree

What later stages read from a tree: the declarations, references and ends of scopes in source
order (`ParseTree.events`), the name that a declaration declares, and the source text under a
node.
-/

namespace ProtoFront

/-- What a walk through a tree comes across, with the number of the node. -/
inductive TreeEvent where
  | declaration (id : Nat) (kind : DeclarationKind)
  | reference (id : Nat) (kind : ReferenceKind)
  | scopeClose (id : Nat)
  deriving DecidableEq, Repr

namespace ParseTree

variable (tree : ParseTree) (buffer : TokenBuffer)

/-- What visiting one node reports. -/
def event? (id : Nat) : Option TreeEvent :=
  match tree.kind? id with
  | some (.declaration kind) => some (.declaration id kind)
  | some (.reference kind) => some (.reference id kind)
  | some .scopeClose => some (.scopeClose id)
  | _ => none

/-- The declarations, references and ends of scopes, in preorder. -/
def events : List TreeEvent := tree.preorder.filterMap fun visit => tree.event? visit.1

/-- The name under a declaration: the text of its first child tagged `name`. -/
def declaredName? (id : Nat) : Option String := do
  let child ← tree.findChild? id .name
  let node ← tree.node? child
  let token ← node.token?
  return buffer.text token

/-- The texts of the tokens in a subtree, put together. -/
def subtreeText (id : Nat) : String :=
  String.join ((tree.subtree id).filterMap fun node =>
    if node.isLeaf then node.token?.map buffer.text else none)

end ParseTree

end ProtoFront
