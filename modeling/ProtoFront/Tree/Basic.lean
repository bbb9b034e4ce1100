import ProtoFront.Total
import ProtoFront.Tree.Kind

/-!
# Flat parse trees

A `ParseTree` keeps its nodes in one array, children before parents. Each node knows how many
nodes its subtree has, itself included. So the subtree of a node is the stretch of the array that
ends with the node, and walking backwards from a node, by the size of one child after the other,
visits its children, last child first.

A tree may also be put together by hand, with sizes that fit no tree. The walks are defined for
any sizes: a walk over siblings moves by at least one node and never passes the first node of the
subtree that it walks in.
-/

namespace ProtoFront

/-- A node: the token it stands for, if any; the number of nodes in its subtree; whether anything
in it was reported as an error; and its kind, if it is tagged. -/
structure Node where
  token? : Option Nat
  size : Nat
  failed : Bool
  kind? : Option NodeKind
  deriving DecidableEq, Repr, Inhabited

namespace Node

/-- A node without children. -/
def isLeaf (node : Node) : Bool := node.size == 1

/-- A node that stands for no token of the source. -/
def isSynthetic (node : Node) : Bool := node.token?.isNone

end Node

/-- The nodes of a file, children before parents. -/
structure ParseTree where
  nodes : Array Node
  deriving DecidableEq, Repr, Inhabited

namespace ParseTree

variable (tree : ParseTree)

/-- The number of nodes. -/
def size : Nat := tree.nodes.size

/-- The node with the given number. -/
def node? (id : Nat) : Option Node := tree.nodes[id]?

/-- The kind of a node, if the node exists and is tagged. -/
def kind? (id : Nat) : Option NodeKind := (tree.node? id).bind Node.kind?

/-- The size of a node's subtree, zero past the last node. -/
def sizeAt (id : Nat) : Nat := ((tree.node? id).map Node.size).getD 0

/-- Whether any node is marked. -/
def hasErrors : Bool := tree.nodes.any Node.failed

/-! ## Siblings -/

/-- The siblings before `cursor`, last first, down to the node `lower`. -/
def siblings (lower cursor : Nat) : List Nat :=
  if lower < cursor then
    (cursor - 1) :: siblings lower (max lower (cursor - max 1 (tree.sizeAt (cursor - 1))))
  else []
termination_by cursor

/-- The nodes that have no parent, last first. -/
def roots : List Nat := tree.siblings 0 tree.size

/-- The first node of the subtree of `id`. -/
def firstOf (id : Nat) : Nat := id + 1 - tree.sizeAt id

/-- The children of a node, last first. -/
def children (id : Nat) : List Nat := tree.siblings (tree.firstOf id) id

/-- The first child, in source order, that is tagged `kind`. -/
def findChild? (id : Nat) (kind : NodeKind) : Option Nat :=
  ((tree.children id).filter fun child => tree.kind? child == some kind).getLast?

/-- The nodes of a subtree. -/
def subtree (id : Nat) : List Node :=
  (tree.nodes.extract (tree.firstOf id) (id + 1)).toList

/-- The tokens of the leaves that stand for one. -/
def leafTokens : List Nat :=
  tree.nodes.toList.filterMap fun node => if node.isLeaf then node.token? else none

/-! ## Preorder

The walk keeps the nodes still to be visited, each with its depth. A node's children come before
it in the array and are distinct, so together they weigh less than it does when each node weighs
twice as much as the one before it: that is why the walk ends, whatever the sizes are. -/

theorem siblings_lt {lower cursor id : Nat} (member : id ∈ tree.siblings lower cursor) :
    id < cursor := by
  induction cursor using Nat.strongRecOn generalizing id with
  | _ cursor ih =>
    rw [siblings] at member
    split at member
    case isFalse => simp at member
    case isTrue above =>
      rcases List.mem_cons.mp member with rfl | later
      · omega
      · have := ih _ (by omega) later
        omega

/-- The weight of a node. -/
def nodeWeight (id : Nat) : Nat := Nat.pow 2 id

theorem nodeWeight_succ (id : Nat) : nodeWeight (id + 1) = nodeWeight id + nodeWeight id :=
  Nat.mul_two _

theorem nodeWeight_pos (id : Nat) : 0 < nodeWeight id := Nat.two_pow_pos id

theorem nodeWeight_mono {id other : Nat} (le : id ≤ other) : nodeWeight id ≤ nodeWeight other :=
  Nat.pow_le_pow_right (by decide) le

theorem total_siblings_lt (lower cursor : Nat) :
    total nodeWeight (tree.siblings lower cursor) < nodeWeight cursor := by
  induction cursor using Nat.strongRecOn with
  | _ cursor ih =>
    rw [siblings]
    split
    case isFalse => exact nodeWeight_pos cursor
    case isTrue above =>
      obtain ⟨before, rfl⟩ : ∃ before, cursor = before + 1 := ⟨cursor - 1, by omega⟩
      have next : max lower (before + 1 - max 1 (tree.sizeAt before)) ≤ before := by omega
      have later := ih _ (Nat.lt_succ_of_le next)
      have bound := nodeWeight_mono next
      rw [total_cons, nodeWeight_succ]
      exact Nat.add_lt_add_left (Nat.lt_of_lt_of_le later bound) _

/-- The weight of nodes still to be visited. -/
def weight (pending : List (Nat × Nat)) : Nat := total (fun visit => nodeWeight visit.1) pending

/-- The walk through `pending` and everything below it. -/
def preorderFrom (visited : Array (Nat × Nat)) : List (Nat × Nat) → Array (Nat × Nat)
  | [] => visited
  | (id, depth) :: rest =>
    let below := (tree.children id).reverse.map fun child => (child, depth + 1)
    preorderFrom (visited.push (id, depth)) (below ++ rest)
termination_by pending => weight pending
decreasing_by
  have smaller : total nodeWeight (tree.children id) < nodeWeight id := tree.total_siblings_lt _ _
  simp only [weight, total_append, total_cons, total_map, total_reverse]
  exact Nat.add_lt_add_right smaller _

/-- Every node with its depth, parents before children and siblings in source order. -/
def preorder : List (Nat × Nat) :=
  (tree.preorderFrom #[] (tree.roots.reverse.map fun id => (id, 0))).toList

/-- The depth at which the walk last met each node, zero for a node it never met. -/
def depths : Array Nat :=
  tree.preorder.foldl (fun found visit => found.setIfInBounds visit.1 visit.2)
    (Array.replicate tree.size 0)

end ParseTree

end ProtoFront
