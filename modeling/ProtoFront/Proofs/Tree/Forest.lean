import Mathlib.Data.List.Sort
import Mathlib.Logic.Relation
import ProtoFront.Tree.Basic

/-!
# Forests and flat trees

A flat tree is the postorder of an ordered forest, each node with the size of its subtree. The
forests are a type of their own here (`Forest`), and `Forest.encode` lays one out in an array. For
an array that is laid out in this way, the walks over siblings, children and the preorder are the
ones of the forest, and the subtrees of two nodes are either nested or apart.
-/

namespace ProtoFront

/-- What a node holds besides the size of its subtree. -/
structure Label where
  token? : Option Nat
  failed : Bool
  kind? : Option NodeKind
  deriving DecidableEq, Repr

/-- The node with a label over some number of nodes. -/
def Label.node (label : Label) (below : Nat) : Node :=
  ⟨label.token?, below + 1, label.failed, label.kind?⟩

/-- An ordered forest: nothing, or the label and the children of the first root, and the rest. -/
inductive Forest where
  | nil
  | cons (label : Label) (children rest : Forest)
  deriving DecidableEq, Repr

namespace Forest

/-- The number of nodes. -/
def size : Forest → Nat
  | nil => 0
  | cons _ children rest => children.size + 1 + rest.size

/-- The nodes, children before parents. -/
def encode : Forest → List Node
  | nil => []
  | cons label children rest => children.encode ++ label.node children.size :: rest.encode

/-- Two forests side by side. -/
def append : Forest → Forest → Forest
  | nil, other => other
  | cons label children rest, other => cons label children (rest.append other)

instance : Append Forest := ⟨append⟩

/-- A forest with one root. -/
def tree (label : Label) (children : Forest) : Forest := cons label children nil

@[simp] theorem cons_append (label : Label) (children rest other : Forest) :
    cons label children rest ++ other = cons label children (rest ++ other) := rfl

@[simp] theorem append_nil (forest : Forest) : forest ++ nil = forest := by
  induction forest with
  | nil => rfl
  | cons label children rest _ ih => rw [cons_append, ih]

theorem append_assoc (first second third : Forest) :
    first ++ second ++ third = first ++ (second ++ third) := by
  induction first with
  | nil => rfl
  | cons label children rest _ ih => rw [cons_append, cons_append, cons_append, ih]

@[simp] theorem encode_append (first second : Forest) :
    (first ++ second).encode = first.encode ++ second.encode := by
  induction first with
  | nil => rfl
  | cons label children rest _ ih =>
    rw [cons_append, encode, ih, encode, List.append_assoc, List.cons_append]

theorem length_encode (forest : Forest) : forest.encode.length = forest.size := by
  induction forest with
  | nil => rfl
  | cons label children rest ihc ihr =>
    rw [encode, List.length_append, List.length_cons, ihc, ihr, size]
    omega

@[simp] theorem size_append (first second : Forest) :
    (first ++ second).size = first.size + second.size := by
  rw [← length_encode, encode_append, List.length_append, length_encode, length_encode]

/-- A node with this label and these children is somewhere in the forest. -/
def Contains : Forest → Label → Forest → Prop
  | nil, _, _ => False
  | cons label children rest, label', children' => (label = label' ∧ children = children') ∨
      children.Contains label' children' ∨ rest.Contains label' children'

/-- The numbers of the roots, if the first node has the number `start`. -/
def rootIds (start : Nat) : Forest → List Nat
  | nil => []
  | cons _ children rest => (start + children.size) :: rest.rootIds (start + children.size + 1)

/-- The nodes with their depths, parents before children. -/
def walk (start depth : Nat) : Forest → List (Nat × Nat)
  | nil => []
  | cons _ children rest => (start + children.size, depth) ::
      (children.walk start (depth + 1) ++ rest.walk (start + children.size + 1) depth)

theorem le_of_mem_rootIds {forest : Forest} {start id : Nat} (h : id ∈ forest.rootIds start) :
    start ≤ id ∧ id < start + forest.size := by
  induction forest generalizing start with
  | nil => exact absurd h List.not_mem_nil
  | cons label children rest _ ih =>
    rw [size]
    rcases List.mem_cons.mp h with rfl | hrest
    · omega
    · have := ih hrest
      omega

end Forest

namespace ParseTree

variable {tree : ParseTree} {forest children rest : Forest} {label : Label} {start id other : Nat}

/-- The nodes of the tree from `start` on are those of the forest. -/
def Shows (tree : ParseTree) : Nat → Forest → Prop
  | _, .nil => True
  | start, .cons label children rest => tree.Shows start children ∧
      tree.node? (start + children.size) = some (label.node children.size) ∧
      tree.Shows (start + children.size + 1) rest

/-- A flat tree shows what it has been laid out from. -/
theorem shows_of_nodes (before after : List Node)
    (h : tree.nodes.toList = before ++ forest.encode ++ after) :
    tree.Shows before.length forest := by
  induction forest generalizing before after with
  | nil => trivial
  | cons label children rest ihc ihr =>
    rw [Forest.encode] at h
    refine ⟨ihc before (label.node children.size :: rest.encode ++ after) (by simp [h]), ?_, ?_⟩
    · rw [node?, ← Array.getElem?_toList, h, ← children.length_encode]
      simp
    · have hrest :=
        ihr (before ++ children.encode ++ [label.node children.size]) after (by simp [h])
      rw [List.length_append, List.length_append, children.length_encode] at hrest
      exact hrest

/-! ## Spans -/

theorem lt_size_of_kind {kind : NodeKind} (h : tree.kind? id = some kind) : id < tree.size := by
  by_contra hpast
  rw [kind?, node?, Array.getElem?_eq_none (Nat.not_lt.mp hpast)] at h
  simp at h

theorem kind_of_node {below : Nat} (h : tree.node? id = some (label.node below)) :
    tree.kind? id = label.kind? := by
  rw [kind?, h]
  rfl

theorem sizeAt_of_node (h : tree.node? id = some (label.node children.size)) :
    tree.sizeAt id = children.size + 1 := by
  rw [sizeAt, h]
  rfl

theorem firstOf_of_node (h : tree.node? (start + children.size) = some (label.node children.size)) :
    tree.firstOf (start + children.size) = start := by
  rw [firstOf, sizeAt_of_node h]
  omega

theorem Shows.le_firstOf (h : tree.Shows start forest) (lower : start ≤ id)
    (upper : id < start + forest.size) : start ≤ tree.firstOf id ∧ tree.firstOf id ≤ id := by
  induction forest generalizing start with
  | nil => exact absurd upper (by rw [Forest.size]; omega)
  | cons label children rest ihc ihr =>
    obtain ⟨hchildren, hnode, hrest⟩ := h
    rw [Forest.size] at upper
    rcases Nat.lt_trichotomy id (start + children.size) with hlt | rfl | hgt
    · exact ihc hchildren lower hlt
    · rw [firstOf_of_node hnode]
      omega
    · have := ihr hrest hgt (by omega)
      omega

/-- A root lies in no other subtree. -/
theorem Shows.root_lt_firstOf (h : tree.Shows start forest) (root : id ∈ forest.rootIds start)
    (above : id < other) (upper : other < start + forest.size) : id < tree.firstOf other := by
  induction forest generalizing start with
  | nil => exact absurd root List.not_mem_nil
  | cons label children rest _ ihr =>
    obtain ⟨-, -, hrest⟩ := h
    rw [Forest.size] at upper
    rcases List.mem_cons.mp root with rfl | hroot
    · have := hrest.le_firstOf above (by omega)
      omega
    · exact ihr hrest hroot (by omega)

/-- Two subtrees are nested or apart. -/
theorem Shows.nested_or_apart (h : tree.Shows start forest) (lower : start ≤ id)
    (above : id < other) (upper : other < start + forest.size) :
    tree.firstOf other ≤ tree.firstOf id ∨ id < tree.firstOf other := by
  induction forest generalizing start with
  | nil => exact absurd upper (by rw [Forest.size]; omega)
  | cons label children rest ihc ihr =>
    obtain ⟨hchildren, hnode, hrest⟩ := h
    rw [Forest.size] at upper
    -- the other node may be below the first root, that root, or beside it
    rcases Nat.lt_trichotomy other (start + children.size) with hlt | rfl | hgt
    · exact ihc hchildren lower hlt
    · rw [firstOf_of_node hnode]
      exact .inl (hchildren.le_firstOf lower above).1
    · by_cases hid : start + children.size < id
      · exact ihr hrest hid (by omega)
      · have := hrest.le_firstOf hgt (by omega)
        exact .inr (by omega)

/-- Every node has a label and children in the forest, and they are what the tree shows. -/
theorem Shows.exists_contains (h : tree.Shows start forest) (lower : start ≤ id)
    (upper : id < start + forest.size) : ∃ label children, forest.Contains label children ∧
      tree.node? id = some (label.node children.size) ∧
      tree.Shows (tree.firstOf id) children ∧ tree.firstOf id + children.size = id := by
  induction forest generalizing start with
  | nil => exact absurd upper (by rw [Forest.size]; omega)
  | cons label children rest ihc ihr =>
    obtain ⟨hchildren, hnode, hrest⟩ := h
    rw [Forest.size] at upper
    rcases Nat.lt_trichotomy id (start + children.size) with hlt | rfl | hgt
    · obtain ⟨label', children', hcontains, hfound⟩ := ihc hchildren lower hlt
      exact ⟨label', children', .inr (.inl hcontains), hfound⟩
    · refine ⟨label, children, .inl ⟨rfl, rfl⟩, hnode, ?_⟩
      rw [firstOf_of_node hnode]
      exact ⟨hchildren, rfl⟩
    · obtain ⟨label', children', hcontains, hfound⟩ := ihr hrest hgt (by omega)
      exact ⟨label', children', .inr (.inr hcontains), hfound⟩

/-! ## Walks -/

theorem siblings_self (lower : Nat) : tree.siblings lower lower = [] := by
  rw [siblings, if_neg (Nat.lt_irrefl _)]

/-- Walking backwards meets the roots of the forest, and then what lies in front of it. -/
theorem Shows.siblings_eq {lower : Nat} (h : tree.Shows start forest) (hlower : lower ≤ start) :
    tree.siblings lower (start + forest.size) =
      (forest.rootIds start).reverse ++ tree.siblings lower start := by
  induction forest generalizing start with
  | nil => rfl
  | cons label children rest _ ihr =>
    obtain ⟨-, hnode, hrest⟩ := h
    have hlast : tree.siblings lower (start + children.size + 1) =
        (start + children.size) :: tree.siblings lower start := by
      have hnext : max lower (start + children.size + 1 - max 1 (children.size + 1)) = start := by
        omega
      rw [siblings, if_pos (by omega), Nat.add_sub_cancel, sizeAt_of_node hnode, hnext]
    have hsize : start + (Forest.cons label children rest).size =
        start + children.size + 1 + rest.size := by
      rw [Forest.size]
      omega
    rw [hsize, ihr hrest (by omega), hlast, Forest.rootIds, List.reverse_cons, List.append_assoc]
    rfl

/-- The children of a node are the roots of the forest below it, last first. -/
theorem Shows.children_eq (h : tree.Shows start children)
    (hnode : tree.node? (start + children.size) = some (label.node children.size)) :
    tree.children (start + children.size) = (children.rootIds start).reverse := by
  rw [ParseTree.children, firstOf_of_node hnode, h.siblings_eq (Nat.le_refl _), siblings_self,
    List.append_nil]

/-- A node that is no root is the child of some node. -/
theorem Shows.root_or_child (h : tree.Shows start forest) (lower : start ≤ id)
    (upper : id < start + forest.size) :
    id ∈ forest.rootIds start ∨ ∃ parent < start + forest.size, id ∈ tree.children parent := by
  induction forest generalizing start with
  | nil => exact absurd upper (by rw [Forest.size]; omega)
  | cons label children rest ihc ihr =>
    obtain ⟨hchildren, hnode, hrest⟩ := h
    rw [Forest.size] at upper ⊢
    rcases Nat.lt_trichotomy id (start + children.size) with hlt | rfl | hgt
    · refine .inr ?_
      rcases ihc hchildren lower hlt with hroot | ⟨parent, hparent, hchild⟩
      · refine ⟨start + children.size, by omega, ?_⟩
        rwa [hchildren.children_eq hnode, List.mem_reverse]
      · exact ⟨parent, by omega, hchild⟩
    · exact .inl List.mem_cons_self
    · rcases ihr hrest hgt (by omega) with hroot | ⟨parent, hparent, hchild⟩
      · exact .inl (List.mem_cons_of_mem _ hroot)
      · exact .inr ⟨parent, by omega, hchild⟩

theorem lt_size_of_child {child : Nat} (h : child ∈ tree.children id) : id < tree.size := by
  by_contra hpast
  have hsize : tree.sizeAt id = 0 := by
    rw [sizeAt, node?, Array.getElem?_eq_none (Nat.not_lt.mp hpast)]
    rfl
  rw [children, firstOf, hsize, siblings, if_neg (by omega)] at h
  exact absurd h List.not_mem_nil

theorem Shows.roots_eq (h : tree.Shows 0 forest) (hsize : tree.size = forest.size) :
    tree.roots = (forest.rootIds 0).reverse := by
  have hwalk := h.siblings_eq (Nat.le_refl 0)
  rw [Nat.zero_add, siblings_self, List.append_nil] at hwalk
  rw [roots, hsize, hwalk]

theorem Shows.preorderFrom_eq (h : tree.Shows start forest) (depth : Nat)
    (visited : Array (Nat × Nat)) (pending : List (Nat × Nat)) :
    tree.preorderFrom visited ((forest.rootIds start).map (fun id => (id, depth)) ++ pending) =
      tree.preorderFrom (visited ++ (forest.walk start depth).toArray) pending := by
  induction forest generalizing start depth visited pending with
  | nil => simp [Forest.rootIds, Forest.walk]
  | cons label children rest ihc ihr =>
    obtain ⟨hchildren, hnode, hrest⟩ := h
    rw [Forest.rootIds, List.map_cons, List.cons_append, preorderFrom, hchildren.children_eq hnode,
      List.reverse_reverse, ihc hchildren, ihr hrest, Forest.walk]
    simp

/-- The preorder of a tree is the walk through its forest. -/
theorem Shows.preorder_eq (h : tree.Shows 0 forest) (hsize : tree.size = forest.size) :
    tree.preorder = forest.walk 0 0 := by
  have hwalk := h.preorderFrom_eq 0 #[] []
  rw [List.append_nil] at hwalk
  rw [preorder, h.roots_eq hsize, List.reverse_reverse, hwalk, preorderFrom]
  simp

/-! ## Ancestors -/

/-- Whether one node has another one below it: the other one lies in its subtree. -/
def Encloses (tree : ParseTree) (outer inner : Nat) : Prop :=
  outer < tree.size ∧ tree.firstOf outer ≤ inner ∧ inner < outer

theorem Shows.not_encloses_root (h : tree.Shows 0 forest) (hsize : tree.size = forest.size)
    (root : id ∈ forest.rootIds 0) : ¬tree.Encloses other id := by
  rintro ⟨hlt, hfirst, habove⟩
  have := h.root_lt_firstOf root habove (by omega)
  omega

/-- What has a child below it is its parent, or has the parent below it. -/
theorem Shows.encloses_child {parent : Nat} (h : tree.Shows 0 forest)
    (hsize : tree.size = forest.size) (hchild : id ∈ tree.children parent) :
    tree.Encloses other id ↔ other = parent ∨ tree.Encloses other parent := by
  have hparent := lt_size_of_child hchild
  obtain ⟨label, children, -, hnode, hchildren, hspan⟩ :=
    h.exists_contains (Nat.zero_le parent) (by omega)
  have hroot : id ∈ children.rootIds (tree.firstOf parent) := by
    rw [← hspan] at hnode
    have heq := hchildren.children_eq hnode
    rw [hspan] at heq
    rwa [heq, List.mem_reverse] at hchild
  have hid := Forest.le_of_mem_rootIds hroot
  constructor
  · rintro ⟨hlt, hfirst, habove⟩
    have hother := h.le_firstOf (Nat.zero_le other) (by omega)
    rcases Nat.lt_trichotomy other parent with hbelow | rfl | hbeyond
    · -- a node between a child and its parent starts behind the child
      have := hchildren.root_lt_firstOf hroot habove (by omega)
      omega
    · exact .inl rfl
    · rcases h.nested_or_apart (Nat.zero_le parent) hbeyond (by omega) with hnested | hapart
      · exact .inr ⟨hlt, by omega, hbeyond⟩
      · omega
  · rintro (rfl | ⟨hlt, hfirst, habove⟩)
    · exact ⟨hparent, by omega, by omega⟩
    · rcases h.nested_or_apart (Nat.zero_le parent) habove (by omega) with hnested | hapart
      · exact ⟨hlt, by omega, by omega⟩
      · omega

/-- The nodes that have a node below them are its parent, the parent of that, and so on. -/
theorem Shows.encloses_iff (h : tree.Shows 0 forest) (hsize : tree.size = forest.size)
    (hid : id < tree.size) : tree.Encloses other id ↔
      Relation.TransGen (fun parent child => child ∈ tree.children parent) other id := by
  constructor
  · intro hencloses
    -- on the number of nodes after this one: a parent comes behind its children
    induction hleft : tree.size - id using Nat.strong_induction_on generalizing id with
    | _ left ih =>
      rcases h.root_or_child (Nat.zero_le id) (by omega) with hroot | ⟨parent, hparent, hchild⟩
      · exact absurd hencloses (h.not_encloses_root hsize hroot)
      · rcases (h.encloses_child hsize hchild).mp hencloses with rfl | habove
        · exact .single hchild
        · have hbelow := ((h.encloses_child hsize hchild).mpr (.inl rfl)).2.2
          exact (ih (tree.size - parent) (by omega) (by omega) habove rfl).tail hchild
  · intro hpath
    induction hpath with
    | single hchild => exact (h.encloses_child hsize hchild).mpr (.inl rfl)
    | tail _ hchild ih =>
      exact (h.encloses_child hsize hchild).mpr (.inr (ih (lt_size_of_child hchild)))

end ParseTree

end ProtoFront
