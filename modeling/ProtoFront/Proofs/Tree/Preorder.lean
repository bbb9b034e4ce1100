import Mathlib.Data.List.Perm.Subperm
import Mathlib.Data.List.Sort
import ProtoFront.Proofs.Tree.Decoding
import ProtoFront.Proofs.Tree.Reaching
import ProtoFront.Proofs.Tree.Walks
import ProtoFront.Tree.Printer

/-!
# Preorder is the order of the source

A walk through the flat form of a forest comes to a node before all that is below it, and to the
whole of a subtree before anything behind it. That is an order on the nodes, so whatever is listed
in it is met in that order (`ParseTree.Shows.sublist_walkOrder`). The depth at which a node is met
is the number of its ancestors (`ParseTree.Shows.depth_eq`), and so the printed line of a node is
indented by twice that number, if the tree is printed at all: one that is too deep is not
(`ParseTree.print?_tower`). The check of a flat tree accepts forests only, and so all this holds of
what it accepts (`ParseTree.WalksInOrder`).
-/

namespace ProtoFront

namespace ParseTree

variable {tree : ParseTree} {forest : Forest} {start depth id other : Nat} {visit : Nat × Nat}

/-! ## Order -/

theorem firstOf_le_succ (tree : ParseTree) (id : Nat) : tree.firstOf id ≤ id + 1 := Nat.sub_le _ _

instance (tree : ParseTree) : Std.Antisymm tree.Precedes where
  antisymm earlier later h h' := by
    have := tree.firstOf_le_succ earlier
    have := tree.firstOf_le_succ later
    rcases h with ⟨-, hfirst, habove⟩ | hbefore
    · rcases h' with ⟨-, hfirst', habove'⟩ | hbefore' <;> omega
    · rcases h' with ⟨-, hfirst', habove'⟩ | hbefore' <;> omega

/-- Nodes that are listed in the order of a walk are met in the order in which they are listed. -/
theorem Shows.sublist_walkOrder (h : tree.Shows 0 forest) (hsize : tree.size = forest.size)
    {nodes : List Nat} (inside : ∀ id ∈ nodes, id < tree.size) (distinct : nodes.Nodup)
    (ordered : nodes.Pairwise tree.Precedes) : nodes.Sublist tree.walkOrder := by
  have perm := h.perm_walkOrder hsize
  refine List.sublist_of_subperm_of_pairwise (distinct.subperm fun id hid => ?_) ordered
    (h.pairwise_walkOrder hsize)
  exact perm.mem_iff.mpr (List.mem_range.mpr (inside id hid))

/-- Roots follow each other in the order in which their trees are laid out. -/
theorem Shows.pairwise_rootIds (h : tree.Shows start forest) :
    (forest.rootIds start).Pairwise fun earlier later => earlier < tree.firstOf later := by
  induction forest generalizing start with
  | nil => exact .nil
  | cons label children rest _ ih =>
    obtain ⟨-, -, hrest⟩ := h
    refine .cons (fun later hlater => ?_) (ih hrest)
    obtain ⟨hlower, hupper⟩ := Forest.le_of_mem_rootIds hlater
    have := (hrest.le_firstOf hlower hupper).1
    omega

/-- Siblings that follow each other in the array are met in that order. -/
theorem Shows.sublist_of_siblings (h : tree.Shows 0 forest) (hsize : tree.size = forest.size)
    {siblings : List Nat} (inside : ∀ id ∈ siblings, id < tree.size)
    (ordered : siblings.Pairwise fun earlier later => earlier < tree.firstOf later) :
    siblings.Sublist tree.walkOrder := by
  have distinct : siblings.Nodup := by
    refine ordered.imp_of_mem fun {earlier later} _ hlater hbefore hequal => ?_
    have := (h.le_firstOf (Nat.zero_le later) (by have := inside later hlater; omega)).2
    omega
  exact h.sublist_walkOrder hsize inside distinct (ordered.imp fun hbefore => .inr hbefore)

/-! ## Depth -/

/-- The nodes in whose subtrees a node lies, the node itself left out. -/
def ancestors (tree : ParseTree) (id : Nat) : List Nat :=
  (List.range tree.size).filter fun outer => decide (tree.firstOf outer ≤ id ∧ id < outer)

theorem mem_ancestors : other ∈ tree.ancestors id ↔ tree.Encloses other id := by
  rw [ancestors, List.mem_filter, List.mem_range, decide_eq_true_iff, Encloses]

/-- A walk meets a node as far below the depth at which it starts as there are nodes around it. -/
theorem Shows.depth_eq (h : tree.Shows start forest) (hvisit : visit ∈ forest.walk start depth) :
    visit.2 = depth + (List.range' start forest.size).countP
      fun outer => decide (tree.firstOf outer ≤ visit.1 ∧ visit.1 < outer) := by
  induction forest generalizing start depth with
  | nil => cases hvisit
  | cons label children rest ihc ihr =>
    obtain ⟨hchildren, hnode, hrest⟩ := h
    have hroot := firstOf_of_node hnode
    rw [Forest.range'_cons, List.countP_append, List.countP_cons]
    -- what is below the first root is around nothing but nodes below it, and what is beside it
    -- around nothing but nodes beside it
    have outside (hbehind : start + children.size ≤ visit.1) :
        (List.range' start children.size).countP
          (fun outer => decide (tree.firstOf outer ≤ visit.1 ∧ visit.1 < outer)) = 0 := by
      rw [List.countP_eq_zero]
      intro outer houter
      rw [List.mem_range'_1] at houter
      rw [decide_eq_true_iff]
      omega
    have beside (hfront : visit.1 ≤ start + children.size) :
        (List.range' (start + children.size + 1) rest.size).countP
          (fun outer => decide (tree.firstOf outer ≤ visit.1 ∧ visit.1 < outer)) = 0 := by
      rw [List.countP_eq_zero]
      intro outer houter
      rw [List.mem_range'_1] at houter
      have := (hrest.le_firstOf houter.1 houter.2).1
      rw [decide_eq_true_iff]
      omega
    rw [Forest.walk] at hvisit
    rcases List.mem_cons.mp hvisit with rfl | hlater
    · rw [outside (Nat.le_refl _), beside (Nat.le_refl _)]
      simp
    · rcases List.mem_append.mp hlater with hbelow | hbeside
      · have hspan := Forest.mem_walk.mp (List.mem_map_of_mem hbelow)
        rw [ihc hchildren hbelow, beside (by omega), hroot, if_pos (by simpa using hspan)]
        omega
      · have hspan := Forest.mem_walk.mp (List.mem_map_of_mem hbeside)
        rw [ihr hrest hbeside, outside (by omega), if_neg (by simp; omega)]
        omega

theorem Shows.length_ancestors (h : tree.Shows 0 forest) (hsize : tree.size = forest.size)
    (hvisit : visit ∈ tree.preorder) : visit.2 = (tree.ancestors visit.1).length := by
  rw [h.preorder_eq hsize] at hvisit
  rw [h.depth_eq hvisit, Nat.zero_add, ancestors, ← List.countP_eq_length_filter, hsize,
    List.range_eq_range']

/-! ## Indentation -/

/-- A node that is met at one depth only is noted with that depth. -/
theorem getElem?_depths (hid : id < tree.size) (met : ∃ visit ∈ tree.preorder, visit.1 = id)
    (same : ∀ visit ∈ tree.preorder, visit.1 = id → visit.2 = depth) :
    tree.depths[id]? = some depth := by
  have run (visits : List (Nat × Nat)) (found : Array Nat) (hfound : id < found.size)
      (same : ∀ visit ∈ visits, visit.1 = id → visit.2 = depth)
      (noted : found[id]? = some depth ∨ ∃ visit ∈ visits, visit.1 = id) :
      (visits.foldl (fun found visit => found.setIfInBounds visit.1 visit.2) found)[id]? =
        some depth := by
    induction visits generalizing found with
    | nil => simpa using noted
    | cons visit rest ih =>
      rw [List.foldl_cons]
      refine ih _ (by simpa using hfound) (fun other hother => same other (by simp [hother])) ?_
      by_cases hvisit : visit.1 = id
      · subst hvisit
        rw [Array.getElem?_setIfInBounds_self_of_lt hfound, same visit List.mem_cons_self rfl]
        exact .inl rfl
      · rw [Array.getElem?_setIfInBounds_ne hvisit]
        rcases noted with hnoted | ⟨other, hother, hid⟩
        · exact .inl hnoted
        · rcases List.mem_cons.mp hother with rfl | hrest
          · exact absurd hid hvisit
          · exact .inr ⟨other, hrest, hid⟩
  exact run _ _ (by simpa using hid) same (.inr met)

theorem size_depths (tree : ParseTree) : tree.depths.size = tree.size := by
  have run (visits : List (Nat × Nat)) (found : Array Nat) :
      (visits.foldl (fun found visit => found.setIfInBounds visit.1 visit.2) found).size =
        found.size := by
    induction visits generalizing found with
    | nil => rfl
    | cons visit rest ih => rw [List.foldl_cons, ih, Array.size_setIfInBounds]
  rw [depths, run, Array.size_replicate]

/-- A line stands behind two blanks for each level. -/
theorem Node.line_eq (node : Node) (depth : Nat) (buffer : TokenBuffer) :
    node.line depth buffer = "".pushn ' ' (2 * depth) ++ node.line 0 buffer := by
  simp only [Node.line, String.append_assoc]
  rfl

/-- The lines of the nodes, each behind two blanks for every ancestor of its node. -/
def indented (tree : ParseTree) (buffer : TokenBuffer) : String :=
  String.join (tree.nodes.mapIdx fun id node =>
    "".pushn ' ' (2 * (tree.ancestors id).length) ++ node.line 0 buffer).toList

/-- The tree as a text, unless one of the lines would have to be indented too far. -/
theorem Shows.print?_eq (h : tree.Shows 0 forest) (hsize : tree.size = forest.size)
    (buffer : TokenBuffer) : tree.print? buffer =
      if ∀ id < tree.size, canIndent (tree.ancestors id).length = true then
        some (tree.indented buffer)
      else none := by
  have noted (id : Nat) (hid : id < tree.size) :
      tree.depths[id]? = some (tree.ancestors id).length := by
    obtain ⟨depth, hvisit⟩ := (tree.mem_preorder_iff id).mpr hid
    refine getElem?_depths hid ⟨_, hvisit, rfl⟩ fun visit hvisit' hequal => ?_
    rw [h.length_ancestors hsize hvisit', hequal]
  have fits : tree.depths.all canIndent = true ↔
      ∀ id < tree.size, canIndent (tree.ancestors id).length = true := by
    have entry (id : Nat) (hid : id < tree.size) := Array.getElem?_eq_some_iff.mp (noted id hid)
    rw [Array.all_eq_true]
    constructor
    · intro hall id hid
      obtain ⟨hsize, hentry⟩ := entry id hid
      exact hentry ▸ hall id hsize
    · intro hall id hid
      obtain ⟨_, hentry⟩ := entry id (tree.size_depths ▸ hid)
      exact hentry ▸ hall id (tree.size_depths ▸ hid)
  have lines : tree.print buffer = tree.indented buffer := by
    rw [print, indented]
    refine congrArg (fun lines => String.join (Array.toList lines)) (Array.ext (by simp) ?_)
    intro id hline _
    rw [Array.size_mapIdx] at hline
    rw [Array.getElem_mapIdx, Array.getElem_mapIdx, Node.line_eq, Array.getD_eq_getD_getElem?,
      noted id hline, Option.getD_some]
  simp only [print?, fits, lines]

/-! ## The whole walk -/

/-- A walk through the tree keeps to the order of its source. It comes to every node once, to a node
before what is below it, and to siblings in their order, which is that of the array; it tells how
many ancestors each node has, and the printed lines are indented by twice as much. -/
structure WalksInOrder (tree : ParseTree) : Prop where
  once : tree.walkOrder.Perm (List.range tree.size)
  parents : ∀ outer inner,
    Relation.TransGen (fun parent child => child ∈ tree.children parent) outer inner →
      [outer, inner].Sublist tree.walkOrder
  roots : tree.roots.reverse.Sublist tree.walkOrder ∧
    tree.roots.reverse.Pairwise fun earlier later => earlier < tree.firstOf later
  siblings : ∀ parent < tree.size, (tree.children parent).reverse.Sublist tree.walkOrder ∧
    (tree.children parent).reverse.Pairwise fun earlier later => earlier < tree.firstOf later
  ancestors : ∀ id < tree.size, (tree.ancestors id).Nodup ∧ ∀ outer, outer ∈ tree.ancestors id ↔
    Relation.TransGen (fun parent child => child ∈ tree.children parent) outer id
  depths : ∀ visit ∈ tree.preorder, visit.2 = (tree.ancestors visit.1).length
  lines : ∀ buffer, tree.print? buffer =
    if ∀ id < tree.size, canIndent (tree.ancestors id).length = true then
      some (tree.indented buffer)
    else none

theorem Shows.walksInOrder (h : tree.Shows 0 forest) (hsize : tree.size = forest.size) :
    tree.WalksInOrder where
  once := h.perm_walkOrder hsize
  parents outer inner hpath := by
    have hinner : inner < tree.size := by
      obtain ⟨parent, -, hchild⟩ := Relation.TransGen.tail'_iff.mp hpath
      exact Nat.lt_trans (tree.siblings_lt hchild) (lt_size_of_child hchild)
    have hencloses := (h.encloses_iff hsize hinner).mpr hpath
    have hne : outer ≠ inner := Nat.ne_of_gt hencloses.2.2
    refine h.sublist_walkOrder hsize ?_ (by simpa using hne) (by simpa using .inl hencloses)
    simpa using ⟨hencloses.1, hinner⟩
  roots := by
    rw [h.roots_eq hsize, List.reverse_reverse]
    refine ⟨h.sublist_of_siblings hsize (fun id hid => ?_) h.pairwise_rootIds, h.pairwise_rootIds⟩
    have := (Forest.le_of_mem_rootIds hid).2
    omega
  siblings parent hparent := by
    obtain ⟨label, children, -, hnode, hchildren, hspan⟩ :=
      h.exists_contains (Nat.zero_le parent) (by omega)
    rw [← hspan] at hnode
    have heq := hchildren.children_eq hnode
    rw [hspan] at heq
    rw [heq, List.reverse_reverse]
    refine ⟨h.sublist_of_siblings hsize (fun id hid => ?_) hchildren.pairwise_rootIds,
      hchildren.pairwise_rootIds⟩
    have := (Forest.le_of_mem_rootIds hid).2
    omega
  ancestors id hid :=
    ⟨List.nodup_range.filter _, fun _ => mem_ancestors.trans (h.encloses_iff hsize hid)⟩
  depths _ hvisit := h.length_ancestors hsize hvisit
  lines := h.print?_eq hsize

/-- A walk through an array of nodes that passes the check keeps to the order of the source. A walk
through any array at all comes to every node of it and to an end. -/
theorem preorder_source_order (tree : ParseTree) :
    (tree.verify = .ok () → tree.WalksInOrder) ∧
    (∀ id, id ∈ tree.walkOrder ↔ id < tree.size) ∧
    tree.preorder.length < nodeWeight tree.size := by
  refine ⟨fun haccepted => ?_, fun id => ?_, tree.length_preorder_lt⟩
  · obtain ⟨forest, h⟩ := exists_forest_of_verify haccepted
    exact (shows_of_toList h).walksInOrder (size_of_toList h)
  · rw [← tree.mem_preorder_iff, walkOrder, List.mem_map]
    constructor
    · rintro ⟨visit, hvisit, rfl⟩
      exact ⟨visit.2, hvisit⟩
    · rintro ⟨depth, hvisit⟩
      exact ⟨(id, depth), hvisit, rfl⟩

/-- A message over a field of two tokens, which stands behind a token of its own. -/
def twoLevels : ParseTree :=
  ⟨#[⟨some 0, 1, false, none⟩, ⟨some 1, 1, false, none⟩, ⟨some 2, 1, false, none⟩,
    ⟨some 1, 3, false, some (.declaration .field)⟩,
    ⟨some 0, 5, false, some (.declaration (.scope .message))⟩, ⟨some 3, 1, false, none⟩]⟩

/-- Beside the tree that is sound, nodes whose sizes fit no tree. -/
theorem preorder_source_order_twoLevels :
    (twoLevels.verify = .ok () ∧ twoLevels.WalksInOrder) ∧
    (∀ id, id ∈ straddling.walkOrder ↔ id < straddling.size) ∧
      straddling.preorder.length < nodeWeight straddling.size := by
  have haccepted : twoLevels.verify = .ok () := by decide +kernel
  exact ⟨⟨haccepted, (preorder_source_order twoLevels).1 haccepted⟩,
    (preorder_source_order straddling).2⟩

example : twoLevels.preorder = [(4, 0), (0, 1), (3, 1), (1, 2), (2, 2), (5, 0)] := by
  decide +kernel

end ParseTree

/-! ## Trees that are not printed -/

namespace Forest

/-- Nodes that stand for nothing, each of them over the one before. -/
def tower : Nat → Forest
  | 0 => nil
  | height + 1 => tree ⟨none, false, none⟩ (tower height)

theorem size_tower (height : Nat) : (tower height).size = height := by
  induction height with
  | zero => rfl
  | succ height ih => rw [tower, tree, size, size, ih]

/-- The first node of a tower stands at its lowest level. -/
theorem mem_walk_tower (height start depth : Nat) :
    (start, depth + height) ∈ (tower (height + 1)).walk start depth := by
  induction height generalizing depth with
  | zero => exact List.mem_cons_self
  | succ height ih =>
    have below := ih (depth + 1)
    rw [Nat.add_assoc, Nat.add_comm 1] at below
    rw [tower, tree, walk]
    exact List.mem_cons_of_mem _ (List.mem_append_left _ below)

end Forest

namespace ParseTree

variable {tree : ParseTree} {id height : Nat}

/-- A tower as a flat tree. -/
def tower (height : Nat) : ParseTree := ⟨(Forest.tower height).encode.toArray⟩

theorem shows_tower (height : Nat) : (tower height).Shows 0 (.tower height) :=
  shows_of_toList List.toList_toArray

theorem size_tower (height : Nat) : (tower height).size = (Forest.tower height).size :=
  size_of_toList List.toList_toArray

/-- No node is its own ancestor. -/
theorem length_ancestors_lt (hid : id < tree.size) : (tree.ancestors id).length < tree.size := by
  have outside : ∃ outer ∈ List.range tree.size,
      ¬decide (tree.firstOf outer ≤ id ∧ id < outer) = true :=
    ⟨id, List.mem_range.mpr hid, by simp⟩
  have shorter := List.length_filter_lt_length_iff_exists.mpr outside
  rwa [List.length_range] at shorter

/-- A tower is printed if and only if its first line needs fewer than 2 ^ 16 blanks. -/
theorem print?_tower (height : Nat) (buffer : TokenBuffer) :
    (tower height).print? buffer = none ↔ 32768 < height := by
  have shows := shows_tower height
  have hsize : (tower height).size = height := (size_tower height).trans (Forest.size_tower height)
  rw [shows.print?_eq (size_tower height), hsize]
  split
  case isTrue fits =>
    refine iff_of_false (Option.some_ne_none _) fun tall => ?_
    obtain ⟨lower, rfl⟩ : ∃ lower, height = lower + 1 := ⟨height - 1, by omega⟩
    have visit : (0, 0 + lower) ∈ (tower (lower + 1)).preorder := by
      rw [shows.preorder_eq (size_tower (lower + 1))]
      exact Forest.mem_walk_tower lower 0 0
    have deepest := shows.length_ancestors (size_tower (lower + 1)) visit
    have first := fits 0 (Nat.succ_pos lower)
    rw [canIndent, ← deepest, decide_eq_true_iff, UInt16.size] at first
    omega
  case isFalse tooDeep =>
    refine iff_of_true rfl (Nat.lt_of_not_le fun low => tooDeep fun id hid => ?_)
    have fewer := length_ancestors_lt (hid.trans_eq hsize.symm)
    rw [canIndent, decide_eq_true_iff, UInt16.size]
    omega

/-- The lowest tower that passes the check and is not printed: its first node is at the depth
32768. -/
theorem unprinted_tower : (tower 32769).verify = .ok () ∧ (0, 32768) ∈ (tower 32769).preorder ∧
    ∀ buffer, (tower 32769).print? buffer = none := by
  have shows := shows_tower 32769
  have hsize := size_tower 32769
  refine ⟨shows.verify_eq_ok hsize, ?_, fun buffer => (print?_tower 32769 buffer).mpr (by decide)⟩
  rw [shows.preorder_eq hsize]
  exact Forest.mem_walk_tower 32768 0 0

end ParseTree

end ProtoFront
