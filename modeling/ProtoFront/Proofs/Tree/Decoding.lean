import ProtoFront.Proofs.Tree.Tiling

/-!
# Flat trees are forests

The check of a flat tree looks at one node after the other, and at each of them only at the sizes
that it meets on its way backwards. Still it accepts nothing but forests: where subtrees tile a
stretch of nodes there is a forest that is laid out in it (`ParseTree.Sane.exists_shows`), and no
two forests are laid out in the same way (`Forest.eq_of_encode_eq`). So every array of nodes that
is accepted can be read as one forest, and the walks over it are those of the forest
(`ParseTree.ReadsAs`).
-/

namespace ProtoFront

theorem Label.eq_of_node_eq {label other : Label} {below above : Nat}
    (h : label.node below = other.node above) : label = other ∧ below = above := by
  cases label
  cases other
  simp only [Label.node, Node.mk.injEq, Nat.add_right_cancel_iff] at h
  obtain ⟨rfl, rfl, rfl, rfl⟩ := h
  exact ⟨rfl, rfl⟩

namespace Forest

variable {forest first second children below : Forest} {label : Label} {id : Nat}

/-! ## One forest for each array -/

/-- A forest is empty, or there is a last tree in it. -/
theorem eq_nil_or_append_tree (forest : Forest) :
    forest = nil ∨ ∃ before label children, forest = before ++ tree label children := by
  induction forest with
  | nil => exact .inl rfl
  | cons label children rest _ ih =>
    right
    rcases ih with rfl | ⟨before, last, below, rfl⟩
    · exact ⟨nil, label, children, rfl⟩
    · exact ⟨cons label children before, last, below, rfl⟩

theorem encode_append_tree (before : Forest) (label : Label) (children : Forest) :
    (before ++ tree label children).encode =
      before.encode ++ children.encode ++ [label.node children.size] := by
  rw [encode_append, tree, encode, encode, List.append_assoc]

theorem eq_nil_of_encode_eq (h : [] = forest.encode) : forest = nil := by
  cases forest with
  | nil => rfl
  | cons label children rest => simp [encode] at h

/-- What has been laid out can be read in one way only: the size of the last node tells where the
trees below it begin. -/
theorem eq_of_encode_eq (h : first.encode = second.encode) : first = second := by
  induction hsize : first.size using Nat.strong_induction_on generalizing first second with
  | _ size ih =>
    rcases first.eq_nil_or_append_tree with rfl | ⟨before, label, children, rfl⟩
    · exact (eq_nil_of_encode_eq h).symm
    rcases second.eq_nil_or_append_tree with rfl | ⟨before', label', children', rfl⟩
    · exact eq_nil_of_encode_eq h.symm
    rw [encode_append_tree, encode_append_tree] at h
    obtain ⟨hfront, hlast⟩ := List.append_inj' h rfl
    obtain ⟨hlabel, hbelow⟩ := Label.eq_of_node_eq (List.singleton_inj.mp hlast)
    have hlength : children.encode.length = children'.encode.length := by
      rw [length_encode, length_encode, hbelow]
    obtain ⟨hbefore, hchildren⟩ := List.append_inj' hfront hlength
    rw [size_append, tree, Forest.size, Forest.size] at hsize
    rw [ih before.size (by omega) hbefore rfl, ih children.size (by omega) hchildren rfl, hlabel]

/-! ## The trees in a forest -/

/-- All trees in a forest, those below others included, in the order in which their roots are laid
out. Each is given by its label and what is below it. -/
def postorder : Forest → List (Label × Forest)
  | nil => []
  | cons label children rest => children.postorder ++ (label, children) :: rest.postorder

/-- The trees that a forest is made of. -/
def trees : Forest → List (Label × Forest)
  | nil => []
  | cons label children rest => (label, children) :: rest.trees

theorem length_postorder (forest : Forest) : forest.postorder.length = forest.size := by
  induction forest with
  | nil => rfl
  | cons label children rest ihc ihr =>
    rw [postorder, List.length_append, List.length_cons, ihc, ihr, size]
    omega

/-- Every node has the label of its tree and the size of it. -/
theorem encode_eq_map (forest : Forest) :
    forest.encode = forest.postorder.map fun tree => tree.1.node tree.2.size := by
  induction forest with
  | nil => rfl
  | cons label children rest ihc ihr =>
    rw [encode, postorder, List.map_append, List.map_cons, ihc, ihr]

/-- What is below a tree stands right in front of it. -/
theorem postorder_eq_append (h : forest.postorder[id]? = some (label, below)) :
    ∃ before after, before.length + below.size = id ∧
      forest.postorder = before ++ below.postorder ++ (label, below) :: after := by
  induction forest generalizing id with
  | nil => simp [postorder] at h
  | cons top children rest ihc ihr =>
    rw [postorder] at h ⊢
    rcases Nat.lt_trichotomy id children.size with hlt | rfl | hgt
    · rw [List.getElem?_append_left (by rwa [length_postorder])] at h
      obtain ⟨before, after, hid, hsplit⟩ := ihc h
      exact ⟨before, after ++ (top, children) :: rest.postorder, hid, by simp [hsplit]⟩
    · have hlast : children.size = children.postorder.length + 0 := children.length_postorder.symm
      rw [hlast, List.getElem?_append_right (Nat.le_add_right _ _)] at h
      simp only [Nat.add_zero, Nat.sub_self, List.getElem?_cons_zero, Option.some.injEq,
        Prod.mk.injEq] at h
      obtain ⟨rfl, rfl⟩ := h
      exact ⟨[], rest.postorder, by simp, by simp⟩
    · obtain ⟨later, rfl⟩ : ∃ later, id = children.postorder.length + (later + 1) :=
        ⟨id - children.size - 1, by rw [length_postorder]; omega⟩
      rw [List.getElem?_append_right (Nat.le_add_right _ _), Nat.add_sub_cancel_left,
        List.getElem?_cons_succ] at h
      obtain ⟨before, after, rfl, hsplit⟩ := ihr h
      refine ⟨children.postorder ++ (top, children) :: before, after, ?_, by simp [hsplit]⟩
      rw [List.length_append, List.length_cons]
      omega

/-- The numbers of the roots are the places of the trees that the forest is made of. -/
theorem map_rootIds {listed : List (Label × Forest)} (before after : List (Label × Forest))
    (h : listed = before ++ forest.postorder ++ after) :
    (forest.rootIds before.length).map (listed[·]?) = forest.trees.map some := by
  induction forest generalizing before with
  | nil => rfl
  | cons label children rest _ ih =>
    have hplace : listed[before.length + children.size]? = some (label, children) := by
      rw [h, postorder, ← length_postorder]
      simp
    have hrest := ih (before ++ children.postorder ++ [(label, children)])
      (by rw [h, postorder]; simp)
    rw [List.length_append, List.length_append, length_postorder, List.length_singleton] at hrest
    rw [rootIds, trees, List.map_cons, List.map_cons, hplace, hrest]

end Forest

namespace ParseTree

variable {tree : ParseTree} {forest first second : Forest} {start lower cursor id : Nat}

/-! ## A forest for each array that is accepted -/

/-- What the check asks of the nodes: sizes that are not zero and fit in front of the node, and
children that tile the subtree. -/
def Sane (tree : ParseTree) : Prop :=
  ∀ id < tree.size, tree.sizeAt id ≠ 0 ∧ tree.sizeAt id ≤ id + 1 ∧
    tree.tiles (tree.firstOf id) id = true

theorem defectAt?_eq_none_iff : tree.defectAt? id = none ↔
    tree.sizeAt id ≠ 0 ∧ tree.sizeAt id ≤ id + 1 ∧ tree.tiles (tree.firstOf id) id = true := by
  simp only [defectAt?]
  split
  case isTrue hzero => simp [hzero]
  case isFalse hpositive =>
    split
    case isTrue hlarge => simp [Nat.not_le.mpr hlarge]
    case isFalse hfits =>
      split
      case isTrue htiles => simp [hpositive, Nat.not_lt.mp hfits, htiles]
      case isFalse hgap => simp [hgap]

theorem verify_eq_ok_iff_sane : tree.verify = .ok () ↔ tree.Sane := by
  have hnone : (List.range tree.size).findSome? tree.defectAt? = none ↔ tree.Sane := by
    simp only [List.findSome?_eq_none_iff, List.mem_range, defectAt?_eq_none_iff, Sane]
  rw [verify, ← hnone]
  split
  case h_1 defect hdefect => simp [hdefect]
  case h_2 hsound => simp [hsound]

/-- Walking backwards over subtrees that are sane ends at the first node: the roots tile the array
without a check of their own. -/
theorem Sane.tiles_zero (h : tree.Sane) (hcursor : cursor ≤ tree.size) :
    tree.tiles 0 cursor = true := by
  induction cursor using Nat.strong_induction_on with
  | _ cursor ih =>
    rw [tiles]
    split
    case isFalse => rfl
    case isTrue habove =>
      obtain ⟨hpositive, hfits, -⟩ := h (cursor - 1) (by omega)
      dsimp only
      rw [if_neg (by omega)]
      exact ih _ (by omega) (by omega)

theorem Shows.append (hfirst : tree.Shows start first)
    (hsecond : tree.Shows (start + first.size) second) : tree.Shows start (first ++ second) := by
  induction first generalizing start with
  | nil => exact hsecond
  | cons label children rest _ ih =>
    obtain ⟨hchildren, hnode, hrest⟩ := hfirst
    refine ⟨hchildren, hnode, ih hrest ?_⟩
    rwa [Forest.size, ← Nat.add_assoc, ← Nat.add_assoc] at hsecond

/-- Where subtrees tile a stretch of nodes, there is a forest that is laid out in it. -/
theorem Sane.exists_shows (h : tree.Sane) (hlower : lower ≤ cursor) (hcursor : cursor ≤ tree.size)
    (htiles : tree.tiles lower cursor = true) :
    ∃ forest, lower + Forest.size forest = cursor ∧ tree.Shows lower forest := by
  induction cursor using Nat.strong_induction_on generalizing lower with
  | _ cursor ih =>
    rw [tiles] at htiles
    split at htiles
    case isFalse habove => exact ⟨.nil, by rw [Forest.size]; omega, trivial⟩
    case isTrue habove =>
      obtain ⟨last, rfl⟩ : ∃ last, cursor = last + 1 := ⟨cursor - 1, by omega⟩
      obtain ⟨hpositive, hfits, hbelow⟩ := h last (by omega)
      simp only [Nat.add_sub_cancel] at htiles
      split at htiles
      case isTrue hbad => cases htiles
      case isFalse hgood =>
        -- in front of the last subtree stands a forest, and another one is below its root
        have hfirst : tree.firstOf last = last + 1 - tree.sizeAt last := rfl
        obtain ⟨before, hbefore, hshows⟩ := ih (last + 1 - tree.sizeAt last) (by omega)
          (by omega) (by omega) htiles
        obtain ⟨children, hchildren, hinner⟩ := ih last (by omega) (by omega) (by omega) hbelow
        obtain ⟨node, hnode⟩ : ∃ node, tree.node? last = some node :=
          ⟨_, Array.getElem?_eq_getElem (by rw [size] at hcursor; omega)⟩
        have hsize : node.size = children.size + 1 := by
          have hat : tree.sizeAt last = node.size := by rw [sizeAt, hnode]; rfl
          omega
        refine ⟨before ++ .tree ⟨node.token?, node.failed, node.kind?⟩ children, ?_,
          hshows.append ?_⟩
        · rw [Forest.size_append, Forest.tree, Forest.size, Forest.size]
          omega
        · rw [hbefore, ← hfirst]
          refine ⟨hinner, ?_, trivial⟩
          rw [hchildren, hnode, Label.node, ← hsize]

theorem Shows.getElem?_encode (h : tree.Shows start forest) {place : Nat}
    (hplace : place < forest.size) : forest.encode[place]? = tree.node? (start + place) := by
  induction forest generalizing start place with
  | nil => exact absurd hplace (Nat.not_lt_zero _)
  | cons label children rest ihc ihr =>
    obtain ⟨hchildren, hnode, hrest⟩ := h
    rw [Forest.size] at hplace
    rw [Forest.encode]
    rcases Nat.lt_trichotomy place children.size with hlt | rfl | hgt
    · rw [List.getElem?_append_left (by rwa [Forest.length_encode]), ihc hchildren hlt]
    · rw [hnode, ← children.length_encode]
      simp
    · obtain ⟨later, rfl⟩ : ∃ later, place = children.size + (later + 1) :=
        ⟨place - children.size - 1, by omega⟩
      have hlater := ihr hrest (by omega : later < rest.size)
      rw [List.getElem?_append_right (by rw [Forest.length_encode]; omega), Forest.length_encode,
        Nat.add_sub_cancel_left, List.getElem?_cons_succ, hlater]
      exact congrArg tree.node? (by omega)

/-- A tree that shows a forest from end to end is laid out from it. -/
theorem Shows.toList_eq (h : tree.Shows 0 forest) (hsize : tree.size = forest.size) :
    tree.nodes.toList = forest.encode := by
  apply List.ext_getElem?
  intro place
  by_cases hplace : place < forest.size
  · rw [h.getElem?_encode hplace, Nat.zero_add, node?, Array.getElem?_toList]
  · rw [List.getElem?_eq_none (by rw [Array.length_toList, ← size]; omega),
      List.getElem?_eq_none (by rw [Forest.length_encode]; omega)]

/-! ## Reading a forest off an array -/

/-- A node is the root of a tree in the forest: the one that is laid out at its number. Its
children are the roots of what is below it, last first, and its subtree is that tree laid out. -/
structure ReadsAt (tree : ParseTree) (forest : Forest) (id : Nat) (label : Label)
    (below : Forest) : Prop where
  listed : forest.postorder[id]? = some (label, below)
  childIds : tree.children id = (below.rootIds (id - below.size)).reverse
  children : (tree.children id).map (forest.postorder[·]?) = (below.trees.map some).reverse
  subtree : tree.subtree id = (Forest.tree label below).encode

/-- The walks over the tree are those over the forest: its roots are the roots of the forest, last
first, and each of its nodes is the root of a tree in the forest. -/
structure ReadsAs (tree : ParseTree) (forest : Forest) : Prop where
  rootIds : tree.roots = (forest.rootIds 0).reverse
  roots : tree.roots.map (forest.postorder[·]?) = (forest.trees.map some).reverse
  nodes : ∀ id < tree.size, ∃ label below, tree.ReadsAt forest id label below

theorem size_of_toList (h : tree.nodes.toList = forest.encode) : tree.size = forest.size := by
  rw [size, ← Array.length_toList, h, Forest.length_encode]

theorem shows_of_toList (h : tree.nodes.toList = forest.encode) : tree.Shows 0 forest :=
  shows_of_nodes [] [] (by rw [h, List.nil_append, List.append_nil])

/-- A tree in the forest is laid out where it is listed. -/
theorem readsAt {label : Label} {below : Forest} (h : tree.nodes.toList = forest.encode)
    (hid : forest.postorder[id]? = some (label, below)) : tree.ReadsAt forest id label below := by
  obtain ⟨before, after, rfl, hsplit⟩ := Forest.postorder_eq_append hid
  have hnodes : tree.nodes.toList = before.map (fun tree => tree.1.node tree.2.size) ++
      (Forest.tree label below).encode ++ after.map fun tree => tree.1.node tree.2.size := by
    rw [h, forest.encode_eq_map, hsplit, Forest.encode_eq_map]
    simp [Forest.tree, Forest.postorder]
  obtain ⟨hbelow, hnode, -⟩ := shows_of_nodes _ _ hnodes
  rw [List.length_map] at hbelow hnode
  have hchildren := hbelow.children_eq hnode
  constructor
  case listed => exact hid
  case childIds => rw [hchildren, Nat.add_sub_cancel]
  case children => rw [hchildren, List.map_reverse, Forest.map_rootIds _ _ hsplit]
  case subtree =>
    have hspan : before.length + below.size + 1 =
        before.length + (Forest.tree label below).encode.length := by
      rw [Forest.length_encode, Forest.tree, Forest.size, Forest.size]
      omega
    rw [ParseTree.subtree, firstOf_of_node hnode, hspan, Array.toList_extract, hnodes]
    simp

/-- What has been laid out from a forest reads as that forest. -/
theorem readsAs (h : tree.nodes.toList = forest.encode) : tree.ReadsAs forest := by
  have hroots := (shows_of_toList h).roots_eq (size_of_toList h)
  constructor
  case rootIds => exact hroots
  case roots =>
    have hplaces := forest.map_rootIds [] [] (List.append_nil _).symm
    rw [hroots, List.map_reverse]
    exact congrArg List.reverse hplaces
  case nodes =>
    intro id hid
    obtain ⟨⟨label, below⟩, hlisted⟩ : ∃ listed, forest.postorder[id]? = some listed := by
      refine ⟨_, List.getElem?_eq_getElem ?_⟩
      rwa [Forest.length_postorder, ← size_of_toList h]
    exact ⟨label, below, readsAt h hlisted⟩

theorem exists_forest_of_verify (h : tree.verify = .ok ()) :
    ∃ forest : Forest, tree.nodes.toList = forest.encode := by
  have hsane := verify_eq_ok_iff_sane.mp h
  obtain ⟨forest, hsize, hshows⟩ := hsane.exists_shows (Nat.zero_le _) (Nat.le_refl _)
    (hsane.tiles_zero (Nat.le_refl _))
  exact ⟨forest, hshows.toList_eq (by omega)⟩

/-- The arrays that the check accepts are the flat forms of forests. What has been laid out from a
forest is accepted; what is accepted has been laid out from one forest and from no other, and its
walks are those over this forest; and what has been laid out from no forest is refused with a
defect. -/
theorem verify_iff_forest (tree : ParseTree) :
    (∀ forest : Forest, tree.nodes.toList = forest.encode → tree.verify = .ok ()) ∧
    (tree.verify = .ok () → ∃ forest : Forest, tree.nodes.toList = forest.encode ∧
      (∀ other : Forest, tree.nodes.toList = other.encode → other = forest) ∧
      tree.ReadsAs forest) ∧
    ((¬∃ forest : Forest, tree.nodes.toList = forest.encode) →
      ∃ defect, tree.verify = .error defect) := by
  refine ⟨?_, ?_, ?_⟩
  · intro forest h
    exact (shows_of_toList h).verify_eq_ok (size_of_toList h)
  · intro haccepted
    obtain ⟨forest, h⟩ := exists_forest_of_verify haccepted
    refine ⟨forest, h, ?_, readsAs h⟩
    intro other hother
    exact Forest.eq_of_encode_eq (hother.symm.trans h)
  · intro hnone
    cases hverify : tree.verify with
    | error defect => exact ⟨defect, rfl⟩
    | ok _ => exact absurd (exists_forest_of_verify hverify) hnone

/-- A name of one token, and a token beside it. -/
def nameAndLeaf : ParseTree :=
  ⟨#[⟨some 0, 1, false, none⟩, ⟨some 0, 2, false, some .name⟩, ⟨some 1, 1, false, none⟩]⟩

/-- A node of two over a name of two: the name begins in front of what the node claims. -/
def straddling : ParseTree :=
  ⟨#[⟨some 0, 1, false, none⟩, ⟨some 1, 1, false, none⟩, ⟨some 1, 2, false, some .name⟩,
    ⟨some 0, 2, false, none⟩]⟩

theorem verify_iff_forest_nameAndLeaf :
    (nameAndLeaf.verify = .ok () ∧ ∃ forest : Forest, nameAndLeaf.nodes.toList = forest.encode ∧
      (∀ other : Forest, nameAndLeaf.nodes.toList = other.encode → other = forest) ∧
      nameAndLeaf.ReadsAs forest) ∧
    (¬∃ forest : Forest, straddling.nodes.toList = forest.encode) ∧
      ∃ defect, straddling.verify = .error defect := by
  have haccepted : nameAndLeaf.verify = .ok () := by decide +kernel
  have hrefused : ¬∃ forest : Forest, straddling.nodes.toList = forest.encode := by
    rintro ⟨forest, h⟩
    have hverify := (verify_iff_forest straddling).1 forest h
    exact absurd hverify (by decide +kernel)
  exact ⟨⟨haccepted, (verify_iff_forest nameAndLeaf).2.1 haccepted⟩, hrefused,
    (verify_iff_forest straddling).2.2 hrefused⟩

end ParseTree

end ProtoFront
