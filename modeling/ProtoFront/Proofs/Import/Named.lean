import ProtoFront.Import.Statement
import ProtoFront.Proofs.Composition.Trees
import ProtoFront.Proofs.Tree.Preorder

/-!
# What a file names in its import statements

Which paths a parsed file imports can be said of the array of its nodes alone. An import statement
of the file is a node that lies below no other, is tagged as an import and bears no mark; and the
path that it names is what the strings among the nodes below it say, one behind the other
(`ParseTree.importedPaths`). Reading the imports back from the roots of the tree and their children
finds these paths and no others, in the order of the source and each as often as it is named
(`map_path_imports`).

The nodes below an import statement are its children, because a statement that bears no mark is
made of tokens and nothing else.
-/

namespace ProtoFront

/-! ## Statements that are made of tokens -/

def Item.isToken : Item → Bool
  | token _ _ => true
  | _ => false

namespace Production

/-- Whether all that a production is made of passes a test. -/
def allItems (test : Item → Bool) : Production → Bool
  | .zero => true
  | .epsilon => true
  | .char item => test item
  | .plus first second => allItems test first && allItems test second
  | .comp first second => allItems test first && allItems test second
  | .star inner => allItems test inner

theorem of_allItems {test : Item → Bool} {production : Production} {items : List Item}
    (h : allItems test production = true) (made : items ∈ production.matches') :
    ∀ item ∈ items, test item = true := by
  induction production generalizing items with
  | zero => exact absurd made (Language.notMem_zero items)
  | epsilon =>
    obtain rfl := (Language.mem_one items).mp made
    exact fun item hitem => absurd hitem List.not_mem_nil
  | char letter =>
    obtain rfl := Set.mem_singleton_iff.mp made
    exact fun item hitem => List.mem_singleton.mp hitem ▸ h
  | plus first second ihf ihs =>
    obtain ⟨hfirst, hsecond⟩ := Bool.and_eq_true_iff.mp h
    rcases (Language.mem_add _ _ items).mp made with hmade | hmade
    · exact ihf hfirst hmade
    · exact ihs hsecond hmade
  | comp first second ihf ihs =>
    obtain ⟨hfirst, hsecond⟩ := Bool.and_eq_true_iff.mp h
    obtain ⟨front, hfront, back, hback, rfl⟩ := Language.mem_mul.mp made
    intro item hitem
    rcases List.mem_append.mp hitem with hitem | hitem
    · exact ihf hfirst hfront item hitem
    · exact ihs hsecond hback item hitem
  | star inner ih =>
    obtain ⟨parts, rfl, hparts⟩ := Language.mem_kstar.mp made
    intro item hitem
    obtain ⟨part, hpart, hitem⟩ := List.mem_flatten.mp hitem
    exact ih h (hparts part hpart) item hitem

end Production

/-- Nothing is below a node that shows a token. -/
theorem Label.eq_zero_of_isToken {buffer : TokenBuffer} {label : Label} {below : Nat}
    (h : ((label.node below).item buffer).isToken = true) : below = 0 := by
  by_contra inner
  by_cases real : label.token? = none
  · rw [Node.item, node, real] at h
    cases h
  · rw [label.item_node real (Nat.pos_of_ne_zero inner)] at h
    rcases hkind : label.kind? with _ | kind
    · rw [hkind] at h
      cases h
    · rw [hkind] at h
      cases h

namespace ParseTree

variable {tree : ParseTree} {buffer : TokenBuffer} {forest : Forest} {start id : Nat}

/-! ## The statements -/

/-- Whether a node is an import statement of the file: it lies below no other node, is tagged as an
import, and bears no mark. -/
def isImport (tree : ParseTree) (id : Nat) : Bool :=
  (tree.ancestors id).isEmpty && (tree.node? id).any fun node =>
    node.kind? == some (.declaration .importing) && !node.failed

/-- The nodes below a node. -/
def nodesBelow (tree : ParseTree) (id : Nat) : List Node :=
  (tree.nodes.extract (tree.firstOf id) id).toList

/-- What the strings below a node say, one behind the other. -/
def stringsBelow (tree : ParseTree) (buffer : TokenBuffer) (id : Nat) : String :=
  String.join ((((tree.nodesBelow id).filterMap Node.token?).filter fun token =>
    buffer.kindAt token == .stringLiteral).map fun token => Literal.unquote (buffer.text token))

/-- The paths that the import statements of a file name, in the order of the source and each as
often as it is named. -/
def importedPaths (tree : ParseTree) (buffer : TokenBuffer) : List String :=
  ((List.range tree.size).filter tree.isImport).map (tree.stringsBelow buffer)

/-! ## Roots -/

theorem Shows.isEmpty_ancestors_iff (h : tree.Shows 0 forest) (hsize : tree.size = forest.size)
    (hid : id < tree.size) : (tree.ancestors id).isEmpty = true ↔ id ∈ forest.rootIds 0 := by
  rw [List.isEmpty_iff, List.eq_nil_iff_forall_not_mem]
  simp only [mem_ancestors]
  constructor
  · intro alone
    rcases h.root_or_child (Nat.zero_le id) (by omega) with hroot | ⟨parent, -, hchild⟩
    · exact hroot
    · exact absurd ((h.encloses_child hsize hchild).mpr (.inl rfl)) (alone parent)
  · intro hroot outer
    exact h.not_encloses_root hsize hroot

/-- The roots are the nodes that lie below no other, in the order of the array. -/
theorem Shows.rootIds_eq_filter (h : tree.Shows 0 forest) (hsize : tree.size = forest.size) :
    forest.rootIds 0 = (List.range tree.size).filter fun id => (tree.ancestors id).isEmpty := by
  have ordered : (forest.rootIds 0).Pairwise (· < ·) := by
    refine h.pairwise_rootIds.imp_of_mem fun {earlier later} _ hlater hbefore => ?_
    have inside := Forest.le_of_mem_rootIds hlater
    exact hbefore.trans_le (h.le_firstOf inside.1 inside.2).2
  have sorted : ((List.range tree.size).filter fun id => (tree.ancestors id).isEmpty).Pairwise
      (· < ·) := List.pairwise_lt_range.filter _
  refine List.Perm.eq_of_pairwise' ordered sorted
    ((List.perm_ext_iff_of_nodup ordered.nodup sorted.nodup).mpr fun id => ?_)
  rw [List.mem_filter, List.mem_range]
  constructor
  · intro hroot
    have inside := (Forest.le_of_mem_rootIds hroot).2
    have hid : id < tree.size := by omega
    exact ⟨hid, (h.isEmpty_ancestors_iff hsize hid).mpr hroot⟩
  · rintro ⟨hid, alone⟩
    exact (h.isEmpty_ancestors_iff hsize hid).mp alone

theorem Shows.soundRoots_eq (h : tree.Shows 0 forest) (hsize : tree.size = forest.size) :
    tree.soundRoots .importing = (List.range tree.size).filter tree.isImport := by
  rw [soundRoots, h.roots_eq hsize, List.reverse_reverse, h.rootIds_eq_filter hsize,
    List.filter_filter]
  refine List.filter_congr fun id _ => ?_
  rw [isImport, Bool.and_comm]
  congr 1
  cases tree.node? id <;> rfl

/-! ## The path of a statement -/

/-- Only strings add to the path of a statement. -/
theorem path_foldl_withToken (tokens : List Nat) (statement : ImportStatement) :
    (tokens.foldl (fun statement token => statement.withToken buffer token) statement).path =
      statement.path ++ String.join ((tokens.filter fun token =>
        buffer.kindAt token == .stringLiteral).map fun token =>
          Literal.unquote (buffer.text token)) := by
  induction tokens generalizing statement with
  | nil => simp
  | cons token rest ih =>
    have path_withToken : (statement.withToken buffer token).path =
        if buffer.kindAt token == .stringLiteral then
          statement.path ++ Literal.unquote (buffer.text token)
        else statement.path := by
      rw [ImportStatement.withToken]
      split
      case h_1 hkind => rw [hkind]; rfl
      case h_2 hkind =>
        rw [hkind]
        split
        · rfl
        · split <;> rfl
      case h_3 other _ => rw [if_neg (by simpa using other)]
    rw [List.foldl_cons, ih, path_withToken, List.filter_cons]
    split
    · rw [List.map_cons, String.join_cons, String.append_assoc]
    · rfl

theorem Shows.extract_eq (h : tree.Shows start forest) (within : start + forest.size ≤ tree.size) :
    (tree.nodes.extract start (start + forest.size)).toList = forest.encode := by
  apply List.ext_getElem?
  intro place
  rw [Array.getElem?_toList, Array.getElem?_extract]
  by_cases hplace : place < forest.size
  · rw [h.getElem?_encode hplace, node?, if_pos (by rw [size] at within; omega)]
  · rw [if_neg (by omega), List.getElem?_eq_none (by rw [Forest.length_encode]; omega)]

/-- Where the roots are tokens there is nothing below them. -/
theorem Shows.tokens_rootIds (h : tree.Shows start forest)
    (tokens : ∀ item ∈ forest.items buffer, item.isToken = true) :
    (forest.rootIds start).filterMap (fun id => (tree.node? id).bind Node.token?) =
      forest.encode.filterMap Node.token? := by
  induction forest generalizing start with
  | nil => rfl
  | cons label children rest _ ih =>
    obtain ⟨-, hnode, hrest⟩ := h
    obtain ⟨first, later⟩ := List.forall_mem_cons.mp tokens
    have alone : children.encode = [] :=
      List.eq_nil_of_length_eq_zero (children.length_encode.trans (Label.eq_zero_of_isToken first))
    rw [Forest.rootIds, Forest.encode, alone, List.nil_append, List.filterMap_cons,
      List.filterMap_cons, hnode, ih hrest later]
    rfl

/-- The path of a complete import statement is what the strings below it say. -/
theorem Shows.path_importAt (h : tree.Shows 0 forest) (hsize : tree.size = forest.size)
    (complete : forest.Complete buffer) (himport : tree.isImport id = true) :
    (tree.importAt buffer id).path = tree.stringsBelow buffer id := by
  obtain ⟨node, hnode, hsound⟩ := (Option.any_eq_true _ _).mp (Bool.and_eq_true_iff.mp himport).2
  obtain ⟨hkind, hfailed⟩ := Bool.and_eq_true_iff.mp hsound
  have hid : id < tree.size := (Array.getElem?_eq_some_iff.mp hnode).1
  obtain ⟨label, children, contains, hlabel, below, hspan⟩ :=
    h.exists_contains (Nat.zero_le id) (by omega)
  obtain rfl := Option.some.inj (hnode.symm.trans hlabel)
  have unmarked : label.failed = false := (Bool.not_eq_true' _).mp hfailed
  have made := complete.production contains unmarked (beq_iff_eq.mp hkind)
  have tokens := Production.of_allItems (by decide : Production.allItems Item.isToken
    DeclarationKind.importing.production = true) made
  have hchildren := below.children_eq (by rw [hspan]; exact hlabel)
  have hextract := below.extract_eq (by omega)
  rw [hspan] at hchildren hextract
  rw [importAt, path_foldl_withToken, hchildren, List.reverse_reverse,
    below.tokens_rootIds tokens, stringsBelow, nodesBelow, hextract]
  exact String.empty_append

end ParseTree

/-- The imports that are read from the tree of a parse, also of broken input, have the paths that
its import statements name. -/
theorem TokenBuffer.map_path_imports (buffer : TokenBuffer) (fragment : Fragment)
    (syncLimit : Nat) :
    let tree := (buffer.parseTokens fragment syncLimit).tree
    (tree.imports buffer).map ImportStatement.path = tree.importedPaths buffer := by
  intro tree
  obtain ⟨forest, shows, hsize, complete⟩ := buffer.exists_complete_forest fragment syncLimit
  rw [ParseTree.imports, shows.soundRoots_eq hsize, ParseTree.importedPaths, List.map_map]
  refine List.map_congr_left fun id hid => ?_
  exact shows.path_importAt hsize complete (List.mem_filter.mp hid).2

end ProtoFront
