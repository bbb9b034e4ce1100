import ProtoFront.Proofs.Tree.Forest

/-!
# Marks of broken nodes

Errors travel outwards in a tree when every node with a broken one below it is broken as well
(`ParseTree.Outward`). A node that is added to a flat tree is put over the last nodes of it, so all
that matters is whether some node from a certain one on is broken (`ParseTree.FailsFrom`).
-/

namespace ProtoFront

namespace ParseTree

variable {tree : ParseTree} {node : Node} {id start : Nat}

/-- Whether a node is marked as broken. -/
def isFailed (tree : ParseTree) (id : Nat) : Bool := (tree.node? id).any Node.failed

/-- Whether a node with the number `start` or a greater one is broken. -/
def FailsFrom (tree : ParseTree) (start : Nat) : Prop :=
  ∃ id, start ≤ id ∧ tree.isFailed id = true

/-- What has a broken node below it is broken. -/
def Outward (tree : ParseTree) : Prop := ∀ outer inner,
  tree.Encloses outer inner → tree.isFailed inner = true → tree.isFailed outer = true

/-- The tree with one more node. -/
def push (tree : ParseTree) (node : Node) : ParseTree := ⟨tree.nodes.push node⟩

@[simp] theorem size_push : (tree.push node).size = tree.size + 1 := Array.size_push node

theorem node?_push : (tree.push node).node? id =
    if id = tree.size then some node else tree.node? id :=
  Array.getElem?_push

theorem lt_size_of_isFailed (h : tree.isFailed id = true) : id < tree.size := by
  by_contra hpast
  rw [isFailed, node?, Array.getElem?_eq_none (Nat.not_lt.mp hpast)] at h
  exact absurd h Bool.false_ne_true

theorem isFailed_push : (tree.push node).isFailed id = true ↔
    tree.isFailed id = true ∨ (id = tree.size ∧ node.failed = true) := by
  rw [isFailed, node?_push]
  split
  case isTrue hlast =>
    have hpast : ¬tree.isFailed id = true :=
      fun h => absurd (lt_size_of_isFailed h) (by omega)
    rw [or_iff_right hpast, and_iff_right hlast]
    rfl
  case isFalse hlast => exact ⟨.inl, fun h => h.resolve_right fun hnew => hlast hnew.1⟩

/-- A node that is not broken breaks nothing. -/
theorem failsFrom_push (unfailed : node.failed = false) :
    (tree.push node).FailsFrom start ↔ tree.FailsFrom start := by
  simp [FailsFrom, isFailed_push, unfailed]

theorem failsFrom_push_self (failed : node.failed = true) (hstart : start ≤ tree.size) :
    (tree.push node).FailsFrom start :=
  ⟨tree.size, hstart, isFailed_push.mpr (.inr ⟨rfl, failed⟩)⟩

/-- What is broken stays broken. -/
theorem FailsFrom.push (h : tree.FailsFrom start) (node : Node) :
    (tree.push node).FailsFrom start := by
  obtain ⟨id, hid, hfailed⟩ := h
  exact ⟨id, hid, isFailed_push.mpr (.inl hfailed)⟩

theorem FailsFrom.mono {before : Nat} (h : tree.FailsFrom start) (le : before ≤ start) :
    tree.FailsFrom before := by
  obtain ⟨id, hid, hfailed⟩ := h
  exact ⟨id, Nat.le_trans le hid, hfailed⟩

theorem not_failsFrom_size : ¬tree.FailsFrom tree.size := by
  rintro ⟨id, hid, hfailed⟩
  exact absurd (lt_size_of_isFailed hfailed) (Nat.not_lt.mpr hid)

theorem failsFrom_zero_iff : tree.FailsFrom 0 ↔ ∃ node ∈ tree.nodes, node.failed = true := by
  constructor
  · rintro ⟨id, -, hfailed⟩
    rw [isFailed] at hfailed
    rcases hnode : tree.node? id with _ | node
    · rw [hnode] at hfailed
      exact absurd hfailed Bool.false_ne_true
    · rw [hnode] at hfailed
      exact ⟨node, Array.mem_of_getElem? hnode, hfailed⟩
  · rintro ⟨node, hnode, hfailed⟩
    obtain ⟨id, hid⟩ := Array.mem_iff_getElem?.mp hnode
    exact ⟨id, Nat.zero_le _, by rw [isFailed, node?, hid]; exact hfailed⟩

/-- A node that covers a broken one has to be broken. -/
theorem Outward.push (h : tree.Outward)
    (covers : tree.FailsFrom (tree.size + 1 - node.size) → node.failed = true) :
    (tree.push node).Outward := by
  rintro outer inner ⟨houter, hfirst, hinner⟩ hfailed
  rw [size_push] at houter
  have hbelow : tree.isFailed inner = true :=
    (isFailed_push.mp hfailed).resolve_right fun hlast => by omega
  rw [isFailed_push]
  rcases Nat.lt_or_ge outer tree.size with hlt | hge
  · refine .inl (h outer inner ⟨hlt, ?_, hinner⟩ hbelow)
    rwa [firstOf, sizeAt, node?_push, if_neg (Nat.ne_of_lt hlt)] at hfirst
  · obtain rfl : outer = tree.size := by omega
    refine .inr ⟨rfl, covers ⟨inner, ?_, hbelow⟩⟩
    rwa [firstOf, sizeAt, node?_push, if_pos rfl] at hfirst

/-- A leaf has nothing below it. -/
theorem Outward.leaf (h : tree.Outward) (hsize : node.size = 1) :
    (tree.push node).Outward :=
  h.push fun hfails => absurd (by rwa [hsize] at hfails) not_failsFrom_size

/-- Nothing is broken below a node without a mark. -/
theorem Outward.subtree (h : tree.Outward) (hid : id < tree.size)
    (unmarked : tree.isFailed id = false) (hnode : node ∈ tree.subtree id) :
    node.failed = false := by
  obtain ⟨offset, hoffset⟩ := List.mem_iff_getElem?.mp hnode
  rw [ParseTree.subtree, Array.getElem?_toList, Array.getElem?_extract] at hoffset
  split at hoffset
  case isFalse => cases hoffset
  case isTrue hbound =>
    have hfailed : tree.isFailed (tree.firstOf id + offset) = node.failed := by
      rw [isFailed, node?, hoffset]
      rfl
    rw [← hfailed]
    refine Bool.eq_false_iff.mpr fun hbroken => ?_
    rcases Nat.lt_or_ge (tree.firstOf id + offset) id with hbelow | hself
    · have hmark := h id _ ⟨hid, Nat.le_add_right _ _, hbelow⟩ hbroken
      rw [unmarked] at hmark
      cases hmark
    · obtain hsame : tree.firstOf id + offset = id := by omega
      rw [hsame, unmarked] at hbroken
      cases hbroken

end ParseTree

end ProtoFront
