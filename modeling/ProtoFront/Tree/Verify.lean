import ProtoFront.Tree.Basic

/-!
# Checking a flat tree

`ParseTree.verify` accepts the arrays that are the flat form of a forest: every subtree fits in
front of its root, and the children of every node fill its subtree exactly.
-/

namespace ProtoFront

/-- What is wrong with an array of nodes. -/
inductive TreeDefect where
  | zeroSize (node : Nat)
  | overflow (node size available : Nat)
  | misaligned (node : Nat)
  deriving DecidableEq, Repr

namespace TreeDefect

/-- The defect in words. -/
def message : TreeDefect → String
  | zeroSize node => s!"node {node} has a zero subtree size"
  | overflow node size available =>
    s!"node {node} claims {size} slots but only {available} precede it"
  | misaligned node => s!"children of node {node} do not tile its subtree"

/-- The name of the defect. -/
def name : TreeDefect → String
  | zeroSize _ => "ZeroSize"
  | overflow _ _ _ => "Overflow"
  | misaligned _ => "Misaligned"

end TreeDefect

namespace ParseTree

variable (tree : ParseTree)

/-- Whether subtrees, one after the other, fill the nodes from `lower` up to `cursor`. -/
def tiles (lower cursor : Nat) : Bool :=
  if lower < cursor then
    let child := tree.sizeAt (cursor - 1)
    if child = 0 ∨ cursor - lower < child then false else tiles lower (cursor - child)
  else true
termination_by cursor

/-- The first thing wrong with a node, given that the nodes before it are sound. -/
def defectAt? (id : Nat) : Option TreeDefect :=
  let size := tree.sizeAt id
  if size = 0 then some (.zeroSize id)
  else if id + 1 < size then some (.overflow id size (id + 1))
  else if tree.tiles (tree.firstOf id) id then none
  else some (.misaligned id)

/-- Accepts the tree or tells the first defect. -/
def verify : Except TreeDefect Unit :=
  match (List.range tree.size).findSome? tree.defectAt? with
  | some defect => .error defect
  | none => .ok ()

end ParseTree

end ProtoFront
