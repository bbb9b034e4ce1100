import Mathlib.Data.List.Chain
import ProtoFront.Proofs.Tree.Productions

/-!
# What text messages are made of

The fields of a text message have commas, semicolons or terminators between them, and a comma or a
semicolon may follow the last one (`Production.textMessage`). A terminator is nowhere else than
between two fields. A forest is uniform if all that holds of every node in it (`Forest.Uniform`).
-/

namespace ProtoFront

/-! ## Productions -/

namespace Production

open RegularExpression

/-- A separator of text fields in the source. -/
def textSeparator : Production := just .comma + just .semicolon

/-- What stands between two text fields. -/
def textDivider : Production := textSeparator + char (.missing (some .terminator))

/-- Text fields, one in front of every divider. -/
def dividedFields : Production := (node .textField * textDivider).star

/-- The inside of a text message. -/
def textFields : Production :=
  perhaps (dividedFields * node .textField * perhaps textSeparator)

/-- A text message between certain brackets. -/
def bracketed (pair : Bracket) : Production :=
  just (.opener pair) * textFields * just (.closer pair)

/-- The children of a text message. -/
def textMessage : Production := bracketed .brace + bracketed .angle

example : textMessage.rmatch [.token (.opener .brace) none, .node .textField,
    .missing (some .terminator), .node .textField, .token .semicolon none,
    .token (.closer .brace) none] = true := by
  decide

/-- A text message in front of one more field. -/
def textOpening (pair : Bracket) : Production := just (.opener pair) * dividedFields

/-- A text message in front of its closing bracket. -/
def textContent (pair : Bracket) : Production := just (.opener pair) * textFields

variable {items : List Item} {pair : Bracket}

theorem mem_textOpening_of_opener (h : items ∈ (just (.opener pair)).matches') :
    items ∈ (textOpening pair).matches' := by
  rw [← List.append_nil items]
  exact Language.append_mem_mul h (Language.nil_mem_kstar _)

theorem mem_textContent_of_opener (h : items ∈ (just (.opener pair)).matches') :
    items ∈ (textContent pair).matches' := by
  rw [← List.append_nil items]
  exact Language.append_mem_mul h (.inl rfl)

theorem append_mem_textOpening {divider : List Item} (h : items ∈ (textOpening pair).matches')
    (hdivider : divider ∈ textDivider.matches') :
    items ++ .node .textField :: divider ∈ (textOpening pair).matches' := by
  obtain ⟨opener, hopener, fields, hfields, rfl⟩ := h
  have grows : dividedFields.matches' * (node .textField * textDivider).matches' ≤
      dividedFields.matches' := kstar_mul_le_kstar
  have more : fields ++ .node .textField :: divider ∈ dividedFields.matches' :=
    grows (Language.append_mem_mul hfields ⟨_, rfl, _, hdivider, rfl⟩)
  rw [List.append_assoc]
  exact Language.append_mem_mul hopener more

theorem append_mem_textContent {ending : List Item} (h : items ∈ (textOpening pair).matches')
    (hending : ending ∈ (perhaps textSeparator).matches') :
    items ++ .node .textField :: ending ∈ (textContent pair).matches' := by
  obtain ⟨opener, hopener, fields, hfields, rfl⟩ := h
  have last : fields ++ [.node .textField] ∈ (dividedFields * node .textField).matches' :=
    Language.append_mem_mul hfields rfl
  rw [List.append_assoc, List.append_cons]
  exact Language.append_mem_mul hopener (.inr (Language.append_mem_mul last hending))

theorem append_mem_textMessage {closer : List Item} (bracket : pair = .brace ∨ pair = .angle)
    (h : items ∈ (textContent pair).matches') (hcloser : closer ∈ (just (.closer pair)).matches') :
    items ++ closer ∈ textMessage.matches' := by
  have enclosed : items ++ closer ∈ (bracketed pair).matches' :=
    Language.append_mem_mul h hcloser
  rcases bracket with rfl | rfl
  · exact .inl enclosed
  · exact .inr enclosed

end Production

/-! ## Terminators between fields -/

/-- Whether a node is a text message or a terminator. -/
def Node.isText (node : Node) : Bool :=
  node.kind? == some .textMessage || node.kind? == some .terminator


/-- Two siblings: a terminator has text fields beside it. -/
def NodeKind.Adjoins (left right : Option NodeKind) : Prop :=
  (left = some .terminator → right = some .textField) ∧
    (right = some .terminator → left = some .textField)

namespace Forest

variable {buffer : TokenBuffer} {forest first second third children : Forest} {label : Label}

/-- The kinds of the roots. -/
def kinds : Forest → List (Option NodeKind)
  | nil => []
  | cons label _ rest => label.kind? :: rest.kinds

@[simp] theorem kinds_append : (first ++ second).kinds = first.kinds ++ second.kinds := by
  induction first with
  | nil => rfl
  | cons label children rest _ ih => rw [cons_append, kinds, ih, kinds, List.cons_append]

@[simp] theorem kinds_tree (label : Label) (children : Forest) :
    (tree label children).kinds = [label.kind?] := rfl

/-- No node is a text message or a terminator. -/
def Quiet (forest : Forest) : Prop := ∀ node ∈ forest.encode, node.isText = false

/-- No root is a terminator. -/
def Free (forest : Forest) : Prop := some .terminator ∉ forest.kinds

/-- The roots, where a field may follow: every terminator has fields beside it, but for the field
that follows. -/
structure Linked (forest : Forest) : Prop where
  adjoins : forest.kinds.IsChain NodeKind.Adjoins
  head : forest.kinds.head? ≠ some (some .terminator)

/-- Every terminator among the roots has fields beside it. -/
structure Divided (forest : Forest) : Prop extends forest.Linked where
  last : forest.kinds.getLast? ≠ some (some .terminator)

theorem free_nil : nil.Free := List.not_mem_nil

theorem free_tree (h : label.kind? ≠ some .terminator) : (tree label children).Free := by
  rw [Free, kinds_tree, List.mem_singleton]
  exact h.symm

theorem Free.append (h : first.Free) (h' : second.Free) : (first ++ second).Free := by
  rw [Free, kinds_append, List.mem_append]
  exact not_or.mpr ⟨h, h'⟩

theorem Free.divided (h : forest.Free) : forest.Divided where
  adjoins := List.isChain_iff_forall_rel_of_append_cons_cons.mpr fun left right _ _ hkinds =>
    ⟨fun hleft => absurd (by simp [hkinds, hleft]) h,
      fun hright => absurd (by simp [hkinds, hright]) h⟩
  head hhead := h (List.mem_of_head? hhead)
  last hlast := h (List.mem_of_getLast? hlast)

section

variable (border : first.kinds.getLast? ≠ some (some .terminator) ∨
  second.kinds.head? = some (some .textField))
include border

/-- Behind a terminator there may be a field, and behind others anything. -/
theorem Linked.append (h : first.Linked) (h' : second.Linked) : (first ++ second).Linked where
  adjoins := by
    rw [kinds_append]
    refine h.adjoins.append h'.adjoins fun left hleft right hright => ⟨?_, ?_⟩
    · rintro rfl
      have field := border.resolve_left fun other => other hleft
      exact Option.some.inj (Eq.trans (Eq.symm hright) field)
    · rintro rfl
      exact absurd hright h'.head
  head := by
    rw [kinds_append, List.head?_append, ne_eq, Option.or_eq_some_iff]
    exact not_or.mpr ⟨h.head, fun hsecond => h'.head hsecond.2⟩

theorem Linked.append_divided (h : first.Linked) (h' : second.Divided) :
    (first ++ second).Divided where
  toLinked := h.append border h'.toLinked
  last := by
    rw [kinds_append, List.getLast?_append, ne_eq, Option.or_eq_some_iff]
    refine not_or.mpr ⟨h'.last, fun ⟨hnone, hfirst⟩ => ?_⟩
    have field := border.resolve_left fun other => other hfirst
    rw [List.getLast?_eq_none_iff.mp hnone] at field
    cases field

end

theorem Divided.append_free (h : first.Divided) (h' : second.Free) : (first ++ second).Divided :=
  h.toLinked.append_divided (.inl h.last) h'.divided

/-- A field stands behind a terminator, or behind anything else. -/
theorem Linked.append_field (h : first.Linked) (h' : second.kinds = [some .textField]) :
    (first ++ second).Divided :=
  h.append_divided (.inr (by rw [h']; rfl)) (Free.divided (by rw [Free, h']; simp))

/-- A terminator stands behind a field. -/
theorem Linked.append_terminator (h : first.Linked)
    (h' : second.kinds = [some .textField, some .terminator]) : (first ++ second).Linked := by
  refine h.append (.inr (by rw [h']; rfl)) ⟨?_, by rw [h']; simp⟩
  rw [h', List.isChain_pair]
  exact ⟨by simp, fun _ => rfl⟩

/-- What stands beside a terminator. -/
theorem Divided.exists_neighbors (h : forest.Divided) {ids : List Nat}
    {kind? : Nat → Option NodeKind} (kinds : ids.map kind? = forest.kinds) {front back : List Nat}
    {id : Nat} (split : ids = front ++ id :: back) (hid : kind? id = some .terminator) :
    ∃ front' before after back', front = front' ++ [before] ∧ back = after :: back' ∧
      kind? before = some .textField ∧ kind? after = some .textField := by
  obtain ⟨⟨adjoins, head⟩, last⟩ := h
  rw [← kinds, split, List.map_append, List.map_cons, hid] at adjoins head last
  rcases front.eq_nil_or_concat with rfl | ⟨front', before, rfl⟩
  · exact absurd rfl head
  rcases back with _ | ⟨after, back'⟩
  · exact absurd List.getLast?_concat last
  rw [List.concat_eq_append, List.map_append, List.append_assoc, List.map_singleton,
    List.singleton_append, List.map_cons, List.isChain_append_cons_cons, List.isChain_cons_cons]
    at adjoins
  obtain ⟨-, left, right, -⟩ := adjoins
  exact ⟨front', before, after, back', List.concat_eq_append, rfl, left.2 rfl, right.1 rfl⟩

/-! ## Uniform forests -/

/-- The children of a node are divided. If it is a text message that bears no mark, they are all
that one is made of. A terminator is a leaf that stands for no token, and bears no mark. -/
structure Sequenced (buffer : TokenBuffer) (label : Label) (children : Forest) : Prop where
  divided : children.Divided
  message : label.kind? = some .textMessage → label.failed = false →
    children.items buffer ∈ Production.textMessage.matches'
  terminator : label.kind? = some .terminator →
    label = ⟨none, false, some .terminator⟩ ∧ children = nil

/-- All that holds of text messages and terminators holds of every node. -/
def Uniform (buffer : TokenBuffer) (forest : Forest) : Prop :=
  ∀ label children, forest.Contains label children → Sequenced buffer label children

theorem uniform_nil : nil.Uniform buffer := fun _ _ contains => contains.elim

theorem contains_append {label' : Label} {children' : Forest} :
    (first ++ second).Contains label' children' ↔
      first.Contains label' children' ∨ second.Contains label' children' := by
  induction first with
  | nil => exact (iff_of_eq (false_or _)).symm
  | cons label children rest _ ih => simp only [cons_append, Contains, ih, or_assoc]

theorem uniform_append :
    (first ++ second).Uniform buffer ↔ first.Uniform buffer ∧ second.Uniform buffer := by
  simp only [Uniform, contains_append, or_imp, forall_and]

theorem Uniform.tree (h : children.Uniform buffer) (sequenced : Sequenced buffer label children) :
    (tree label children).Uniform buffer := by
  rintro label' children' (⟨rfl, rfl⟩ | below | ⟨⟨⟩⟩)
  · exact sequenced
  · exact h _ _ below

theorem Contains.encode_subset (h : forest.Contains label children) :
    children.encode ++ [label.node children.size] ⊆ forest.encode := by
  induction forest with
  | nil => cases h
  | cons label' children' rest ihc ihr =>
    rw [encode]
    rcases h with ⟨rfl, rfl⟩ | below | later
    · exact List.append_subset.mpr ⟨List.subset_append_left _ _, by simp⟩
    · exact List.Subset.trans (ihc below) (List.subset_append_left _ _)
    · exact List.Subset.trans (ihr later) fun node hnode => by simp [hnode]

theorem exists_of_mem_kinds {kind? : Option NodeKind} (h : kind? ∈ forest.kinds) :
    ∃ node ∈ forest.encode, node.kind? = kind? := by
  induction forest with
  | nil => cases h
  | cons label children rest _ ih =>
    rw [encode]
    rcases List.mem_cons.mp h with rfl | hrest
    · exact ⟨label.node children.size, by simp, rfl⟩
    · obtain ⟨node, hnode, hkind⟩ := ih hrest
      exact ⟨node, by simp [hnode], hkind⟩

theorem Quiet.free (h : forest.Quiet) : forest.Free := by
  intro hkinds
  obtain ⟨node, hnode, hkind⟩ := exists_of_mem_kinds hkinds
  have other := h node hnode
  rw [Node.isText, hkind] at other
  cases other

/-- A node that is no text message and no terminator. -/
theorem sequenced_of_ne (divided : children.Divided) (message : label.kind? ≠ some .textMessage)
    (terminator : label.kind? ≠ some .terminator) : Sequenced buffer label children :=
  ⟨divided, fun hkind => absurd hkind message, fun hkind => absurd hkind terminator⟩

theorem Quiet.uniform (h : forest.Quiet) : forest.Uniform buffer := by
  intro label children contains
  have subset := contains.encode_subset
  have other : (label.node children.size).isText = false := h _ (subset (by simp))
  rw [Node.isText, Bool.or_eq_false_iff, beq_eq_false_iff_ne, beq_eq_false_iff_ne] at other
  have free : children.Free :=
    Quiet.free fun node hnode => h node (subset (List.mem_append_left _ hnode))
  exact sequenced_of_ne free.divided other.1 other.2

end Forest

namespace ParseTree

variable {tree : ParseTree} {buffer : TokenBuffer} {forest : Forest} {start id : Nat}

/-- The kinds of the roots of a forest in a tree. -/
theorem Shows.kinds_eq (h : tree.Shows start forest) :
    (forest.rootIds start).map tree.kind? = forest.kinds := by
  induction forest generalizing start with
  | nil => rfl
  | cons label children rest _ ih =>
    obtain ⟨-, hnode, hrest⟩ := h
    rw [Forest.rootIds, List.map_cons, ih hrest, kind_of_node hnode, Forest.kinds]

/-- The children of a text message that bears no mark are its opening bracket, fields with one
separator between any two of them and perhaps one behind the last, and the closing bracket. A
terminator is an unmarked leaf without a token, and its siblings to the left and to the right are
text fields. -/
structure SeparatesFields (tree : ParseTree) (buffer : TokenBuffer) : Prop where
  message : ∀ id node, tree.node? id = some node → node.kind? = some .textMessage →
    node.failed = false → tree.childItems buffer id ∈ Production.textMessage.matches'
  terminator : ∀ id node, tree.node? id = some node → node.kind? = some .terminator →
    node = ⟨none, 1, false, some .terminator⟩ ∧ ∃ parent front before after back,
      (tree.children parent).reverse = front ++ before :: id :: after :: back ∧
        tree.kind? before = some .textField ∧ tree.kind? after = some .textField

/-- What the tree shows of a node. -/
theorem Shows.exists_node (h : tree.Shows 0 forest) (hsize : tree.size = forest.size) {node : Node}
    (hnode : tree.node? id = some node) : ∃ label children, forest.Contains label children ∧
      node = label.node children.size ∧ tree.Shows (tree.firstOf id) children ∧
      (tree.children id).reverse = children.rootIds (tree.firstOf id) := by
  have hid : id < 0 + forest.size := by
    have hlt := (Array.getElem?_eq_some_iff.mp hnode).1
    rw [Nat.zero_add, ← hsize]
    exact hlt
  obtain ⟨label, children, contains, hlabel, below, hspan⟩ := h.exists_contains (Nat.zero_le id) hid
  have hchildren := below.children_eq (by rw [hspan]; exact hlabel)
  rw [hspan] at hchildren
  rw [hchildren, List.reverse_reverse]
  exact ⟨label, children, contains, Option.some.inj (hnode.symm.trans hlabel), below, rfl⟩

theorem separatesFields_of_uniform (h : tree.Shows 0 forest) (hsize : tree.size = forest.size)
    (uniform : forest.Uniform buffer) (free : forest.Free) : tree.SeparatesFields buffer where
  message id node hnode hkind unmarked := by
    obtain ⟨label, children, contains, rfl, below, hchildren⟩ := h.exists_node hsize hnode
    rw [childItems, hchildren, below.items_eq]
    exact (uniform _ _ contains).message hkind unmarked
  terminator id node hnode hkind := by
    obtain ⟨label, children, contains, rfl, -, -⟩ := h.exists_node hsize hnode
    obtain ⟨rfl, rfl⟩ := (uniform _ _ contains).terminator hkind
    have kind : tree.kind? id = some .terminator := kind_of_node hnode
    have hid : id < 0 + forest.size := by
      rw [Nat.zero_add, ← hsize]
      exact lt_size_of_kind kind
    refine ⟨rfl, ?_⟩
    rcases h.root_or_child (Nat.zero_le id) hid with root | ⟨parent, hparent, child⟩
    · -- no root is a terminator
      have hroot := List.mem_map_of_mem (f := tree.kind?) root
      rw [h.kinds_eq, kind] at hroot
      exact absurd hroot free
    · rw [Nat.zero_add, ← hsize] at hparent
      obtain ⟨label, children, contains, -, below, hchildren⟩ :=
        h.exists_node hsize (Array.getElem?_eq_getElem hparent)
      have child : id ∈ (tree.children parent).reverse := List.mem_reverse.mpr child
      obtain ⟨front, back, split⟩ := List.append_of_mem child
      obtain ⟨front, before, after, back, rfl, rfl, left, right⟩ :=
        (uniform _ _ contains).divided.exists_neighbors below.kinds_eq (hchildren.symm.trans split)
          kind
      refine ⟨parent, front, before, after, back, ?_, left, right⟩
      rw [split, List.append_assoc, List.singleton_append]

end ParseTree

end ProtoFront
