import ProtoFront.Proofs.Tree.Forest
import ProtoFront.Tree.Verify

/-!
# Subtrees tile the nodes

In the flat form of a forest the subtree of a node is the node and the subtrees of its children,
side by side, and the subtrees of the roots are all of the nodes (`ParseTree.Tiled`). So the check
of a flat tree accepts whatever has been laid out from a forest.
-/

namespace ProtoFront

namespace ParseTree

/-- The numbers of the nodes in a subtree. -/
def span (tree : ParseTree) (id : Nat) : List Nat :=
  List.range' (tree.firstOf id) (tree.sizeAt id)

/-- The subtrees of the children of every node fill its subtree up to the node itself, and the
subtrees of the roots fill the tree. None of them overlap, and they leave no gaps. -/
structure Tiled (tree : ParseTree) : Prop where
  sizes : ∀ id < tree.size, tree.sizeAt id = 1 + total tree.sizeAt (tree.children id)
  spans : ∀ id < tree.size,
    tree.span id = (tree.children id).reverse.flatMap tree.span ++ [id]
  roots : tree.roots.reverse.flatMap tree.span = List.range tree.size

variable {tree : ParseTree} {forest children : Forest} {label : Label} {start id lower : Nat}

theorem span_of_node
    (hnode : tree.node? (start + children.size) = some (label.node children.size)) :
    tree.span (start + children.size) = List.range' start (children.size + 1) := by
  rw [span, firstOf_of_node hnode, sizeAt_of_node hnode]

/-- The subtrees of the roots are the whole forest. -/
theorem Shows.flatMap_span (h : tree.Shows start forest) :
    (forest.rootIds start).flatMap tree.span = List.range' start forest.size := by
  induction forest generalizing start with
  | nil => rfl
  | cons label children rest _ ihr =>
    obtain ⟨-, hnode, hrest⟩ := h
    rw [Forest.rootIds, List.flatMap_cons, span_of_node hnode, ihr hrest, Forest.size,
      Nat.add_assoc start, List.range'_append_1]

theorem Shows.total_sizeAt (h : tree.Shows start forest) :
    total tree.sizeAt (forest.rootIds start) = forest.size := by
  induction forest generalizing start with
  | nil => rfl
  | cons label children rest _ ihr =>
    obtain ⟨-, hnode, hrest⟩ := h
    rw [Forest.rootIds, total_cons, sizeAt_of_node hnode, ihr hrest, Forest.size]

/-- Checking backwards passes the trees of the forest one by one. -/
theorem Shows.tiles_eq (h : tree.Shows start forest) (hlower : lower ≤ start) :
    tree.tiles lower (start + forest.size) = tree.tiles lower start := by
  induction forest generalizing start with
  | nil => rfl
  | cons label children rest _ ihr =>
    obtain ⟨-, hnode, hrest⟩ := h
    have hfirst : tree.tiles lower (start + children.size + 1) = tree.tiles lower start := by
      have hfits : ¬(children.size + 1 = 0 ∨
          start + children.size + 1 - lower < children.size + 1) := by omega
      have hbefore : start + children.size + 1 - (children.size + 1) = start := by omega
      rw [tiles, if_pos (by omega), Nat.add_sub_cancel, sizeAt_of_node hnode]
      dsimp only
      rw [if_neg hfits, hbefore]
    have hsize : start + (Forest.cons label children rest).size =
        start + children.size + 1 + rest.size := by
      rw [Forest.size]
      omega
    rw [hsize, ihr hrest (by omega), hfirst]

theorem tiles_self (lower : Nat) : tree.tiles lower lower = true := by
  rw [tiles, if_neg (Nat.lt_irrefl _)]

theorem Shows.defectAt?_eq_none (h : tree.Shows 0 forest) (hsize : tree.size = forest.size)
    (hid : id < tree.size) : tree.defectAt? id = none := by
  obtain ⟨label, children, -, hnode, hchildren, hspan⟩ :=
    h.exists_contains (Nat.zero_le id) (by omega)
  have htiles : tree.tiles (tree.firstOf id) id = true := by
    have hpass := hchildren.tiles_eq (Nat.le_refl _)
    rwa [hspan, tiles_self] at hpass
  rw [defectAt?, sizeAt_of_node hnode, if_neg (Nat.succ_ne_zero _), if_neg (by omega),
    if_pos htiles]

/-- The check accepts the flat form of a forest. -/
theorem Shows.verify_eq_ok (h : tree.Shows 0 forest) (hsize : tree.size = forest.size) :
    tree.verify = .ok () := by
  have sound : (List.range tree.size).findSome? tree.defectAt? = none := by
    rw [List.findSome?_eq_none_iff]
    exact fun id hid => h.defectAt?_eq_none hsize (List.mem_range.mp hid)
  rw [verify, sound]

/-- The subtrees in the flat form of a forest tile it. -/
theorem Shows.tiled (h : tree.Shows 0 forest) (hsize : tree.size = forest.size) : tree.Tiled := by
  -- the forest below a node is where its children are
  have below {id : Nat} (hid : id < tree.size) : ∃ children, tree.sizeAt id = children.size + 1 ∧
      tree.Shows (tree.firstOf id) children ∧ tree.firstOf id + children.size = id ∧
      tree.children id = (children.rootIds (tree.firstOf id)).reverse := by
    obtain ⟨label, children, -, hnode, hchildren, hspan⟩ :=
      h.exists_contains (Nat.zero_le id) (by omega)
    refine ⟨children, sizeAt_of_node hnode, hchildren, hspan, ?_⟩
    rw [← hspan] at hnode
    have heq := hchildren.children_eq hnode
    rwa [hspan] at heq
  constructor
  · intro id hid
    obtain ⟨children, hsizeAt, hchildren, -, heq⟩ := below hid
    rw [heq, total_reverse, hchildren.total_sizeAt, hsizeAt, Nat.add_comm]
  · intro id hid
    obtain ⟨children, hsizeAt, hchildren, hspan, heq⟩ := below hid
    rw [heq, List.reverse_reverse, hchildren.flatMap_span, span, hsizeAt, List.range'_1_concat,
      hspan]
  · rw [h.roots_eq hsize, List.reverse_reverse, h.flatMap_span, hsize, List.range_eq_range']

end ParseTree

end ProtoFront
