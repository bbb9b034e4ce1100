import ProtoFront.Proofs.Parse.Anchors
import ProtoFront.Proofs.Parse.Coverage
import ProtoFront.Proofs.Parse.Packages
import ProtoFront.Proofs.Symbol.Scopes
import ProtoFront.Proofs.Token.Lossless

/-!
# The names in the tree of a source

A token of a source that is not its end marker has a text, so the text under a node that is tagged
as a name is never empty: the node begins with the leaf of the token that it stands for. That, and
what makes the scopes of a walk readable from the tree, is what later stages rely on
(`ParseTree.Regular`). Every file that is parsed has such a tree, also where it is broken.
-/

namespace ProtoFront

open Lexer ParseState

/-! ## The texts of tokens -/

namespace TokenBuffer

variable {source : String} {keepComments : Bool} {index : Nat}

/-- A token in front of the end of a source has been made of a piece of it. -/
theorem exists_covers (h : (tokenize source keepComments).kindAt index ≠ .eof) :
    ∃ token piece, (tokenize source keepComments).token? index = some token ∧
      piece ∈ pieces source.toList ∧ Covers source.toList token piece := by
  have hsource : source.toList = [] ++ ((pieces source.toList).map Piece.text).flatten := by
    rw [List.nil_append, flatten_pieces]
  have covers : List.Forall₂ (Covers source.toList)
      (tokensFrom keepComments ⟨0, 0⟩ (pieces source.toList))
      ((pieces source.toList).filter (Piece.isKept keepComments)) := covers_tokensFrom [] hsource
  generalize hmade : tokensFrom keepComments ⟨0, 0⟩ (pieces source.toList) = made at covers
  have htokens : (tokenize source keepComments).tokens.toList =
      made ++ [endToken (linesFrom 0 source.toList)] := by
    rw [← hmade]
    rfl
  rw [kindAt, token?, ← Array.getElem?_toList, htokens] at h
  rw [token?, ← Array.getElem?_toList, htokens]
  by_cases hlt : index < made.length
  · rw [List.getElem?_append_left hlt, List.getElem?_eq_getElem hlt]
    have hpiece : index < ((pieces source.toList).filter (Piece.isKept keepComments)).length :=
      covers.length_eq ▸ hlt
    exact ⟨_, _, rfl, (List.mem_filter.mp (List.getElem_mem hpiece)).1,
      covers.get hlt hpiece⟩
  · rw [List.getElem?_append_right (Nat.not_lt.mp hlt)] at h
    rcases hend : index - made.length with _ | more
    · rw [hend] at h
      exact absurd rfl h
    · rw [hend] at h
      exact absurd rfl h

/-- A token in front of the end of a source has a text. -/
theorem text_ne_empty (h : (tokenize source keepComments).kindAt index ≠ .eof) :
    (tokenize source keepComments).text index ≠ "" := by
  obtain ⟨token, piece, htoken, hpiece, covers⟩ := exists_covers h
  have starts := (sound_pieces hpiece).starts (by rw [covers.kind]; exact Option.some_ne_none _)
  obtain ⟨c, cs, htext, -⟩ := starts
  rw [text_of_covers List.toList_toArray htoken covers, htext]
  intro hempty
  exact absurd (String.ofList_eq_empty_iff.mp hempty) (List.cons_ne_nil _ _)

end TokenBuffer

/-! ## The texts of subtrees -/

theorem join_ne_empty {texts : List String} {text : String} (h : text ∈ texts) (htext : text ≠ "") :
    String.join texts ≠ "" := by
  intro hempty
  have hchars := congrArg String.toList hempty
  rw [String.toList_join, String.toList_empty, List.flatMap_eq_nil_iff] at hchars
  exact htext (String.toList_eq_nil_iff.mp (hchars text h))

namespace ParseTree

variable {tree : ParseTree} {buffer : TokenBuffer} {forest : Forest} {start id other token : Nat}
variable {node : Node}

/-- The first node that a forest is laid out to is a leaf. -/
theorem Shows.sizeAt_start (h : tree.Shows start forest) (nonempty : forest ≠ .nil) :
    tree.sizeAt start = 1 := by
  induction forest with
  | nil => exact absurd rfl nonempty
  | cons label children rest ihc _ =>
    obtain ⟨hchildren, hnode, -⟩ := h
    cases children with
    | nil => exact sizeAt_of_node hnode
    | cons => exact ihc hchildren (by rintro ⟨⟩)

/-- A subtree begins with a leaf. -/
theorem Shows.sizeAt_firstOf (h : tree.Shows 0 forest) (hsize : tree.size = forest.size)
    (hid : id < tree.size) : tree.sizeAt (tree.firstOf id) = 1 := by
  obtain ⟨label, children, -, hnode, hchildren, hspan⟩ :=
    h.exists_contains (Nat.zero_le id) (by omega)
  cases children with
  | nil =>
    have hfirst : tree.firstOf id = id := hspan
    rw [hfirst]
    exact sizeAt_of_node hnode
  | cons => exact hchildren.sizeAt_start (by rintro ⟨⟩)

theorem mem_subtree (lower : tree.firstOf id ≤ other) (upper : other ≤ id)
    (h : tree.node? other = some node) : node ∈ tree.subtree id := by
  obtain ⟨hlt, hget⟩ := Array.getElem?_eq_some_iff.mp h
  rw [subtree, Array.mem_toList_iff, Array.mem_extract_iff_getElem]
  refine ⟨other - tree.firstOf id, by omega, ?_⟩
  rw [← hget]
  congr 1
  omega

theorem mem_leafTokens (h : tree.node? id = some node) (leaf : tree.sizeAt id = 1)
    (htoken : tree.tokenAt? id = some token) : token ∈ tree.leafTokens := by
  have hleaf : node.isLeaf = true := by
    rw [sizeAt, h] at leaf
    exact beq_iff_eq.mpr leaf
  rw [tokenAt?, h] at htoken
  refine List.mem_filterMap.mpr ⟨node, Array.mem_toList_iff.mpr (Array.mem_of_getElem? h), ?_⟩
  rw [if_pos hleaf]
  exact htoken

/-- The text of a subtree has the text of every leaf in it. -/
theorem subtreeText_ne_empty (lower : tree.firstOf id ≤ other) (upper : other ≤ id)
    (leaf : tree.sizeAt other = 1) (htoken : tree.tokenAt? other = some token)
    (htext : buffer.text token ≠ "") : tree.subtreeText buffer id ≠ "" := by
  obtain ⟨node, hnode, hnamed⟩ := Option.bind_eq_some_iff.mp htoken
  have hleaf : node.isLeaf = true := by
    rw [sizeAt, hnode] at leaf
    exact beq_iff_eq.mpr leaf
  refine join_ne_empty (List.mem_filterMap.mpr ⟨node, mem_subtree lower upper hnode, ?_⟩) htext
  rw [if_pos hleaf, hnamed]
  rfl

/-- The text under a leaf is that of its token. -/
theorem subtreeText_of_leaf (leaf : tree.sizeAt id = 1) (htoken : tree.tokenAt? id = some token) :
    tree.subtreeText buffer id = buffer.text token := by
  obtain ⟨node, hnode, hnamed⟩ := Option.bind_eq_some_iff.mp htoken
  obtain ⟨hlt, hget⟩ := Array.getElem?_eq_some_iff.mp hnode
  have hleaf : node.isLeaf = true := by
    rw [sizeAt, hnode] at leaf
    exact beq_iff_eq.mpr leaf
  have alone : tree.subtree id = [node] := by
    rw [subtree, firstOf, leaf, Nat.add_sub_cancel,
      Array.extract_succ_right (Nat.lt_succ_self _) hlt]
    simp [hget]
  have texts : ([node].filterMap fun node =>
      if node.isLeaf then node.token?.map buffer.text else none) = [buffer.text token] := by
    rw [List.filterMap_cons, if_pos hleaf, hnamed]
    rfl
  rw [subtreeText, alone, texts, String.join_cons, String.join_nil, String.append_empty]

/-! ## The tree of a file -/

/-- The tree of a file: it is laid out from a forest, it is tidy, the scopes in it pair up, and its
names are not empty. -/
structure Regular (tree : ParseTree) (buffer : TokenBuffer) : Prop where
  shown : ∃ forest, tree.Shows 0 forest ∧ tree.size = forest.size
  tidy : tree.Tidy
  follows : tree.Follows [] tree.events []
  spelled : ∀ {id}, tree.kind? id = some .name → tree.subtreeText buffer id ≠ ""

/-- A name stands for a token. -/
theorem Tidy.exists_nameToken? (tidy : tree.Tidy) (buffer : TokenBuffer) {name : Nat}
    (h : tree.findChild? id .name = some name) : ∃ token, tree.nameToken? id = some token ∧
      tree.tokenAt? name = some token ∧
      tree.nameText? buffer id = some (tree.subtreeText buffer name) := by
  obtain ⟨token, htoken⟩ := tidy.named (kind_of_findChild? h).2
  refine ⟨token, ?_, htoken, ?_⟩
  · rw [nameToken?, h]
    exact htoken
  · rw [nameText?, h, Option.map_some]

/-- The name of a declaration is one token, except for the names of packages. -/
theorem Tidy.text_nameToken? (tidy : tree.Tidy) (buffer : TokenBuffer)
    (inner : tree.kind? id ≠ some (.declaration .package)) :
    (tree.nameToken? id).map buffer.text = tree.nameText? buffer id := by
  rcases hname : tree.findChild? id .name with _ | name
  · rw [nameToken?, nameText?, hname]
    rfl
  · obtain ⟨hchild, hkind⟩ := kind_of_findChild? hname
    obtain ⟨token, htoken, hstands, htext⟩ := tidy.exists_nameToken? buffer hname
    rw [htoken, htext, subtreeText_of_leaf (tidy.lone hchild hkind inner) hstands, Option.map_some]

theorem declaredName?_eq (tree : ParseTree) (buffer : TokenBuffer) (id : Nat) :
    tree.declaredName? buffer id = (tree.nameToken? id).map buffer.text := by
  simp only [declaredName?, nameToken?, Option.bind_eq_bind, Option.map_eq_bind, Option.bind_assoc,
    Function.comp_def]
  rfl

/-- The text of a name is not empty. -/
theorem Regular.nameText_ne_empty {name : String} (regular : tree.Regular buffer)
    (h : tree.nameText? buffer id = some name) : name ≠ "" := by
  obtain ⟨child, hchild, rfl⟩ := Option.map_eq_some_iff.mp h
  exact regular.spelled (kind_of_findChild? hchild).2

end ParseTree

/-! ## Every parse of a source -/

namespace TokenBuffer

variable {buffer : TokenBuffer}

/-- The leaves of a parse stand for the significant tokens. -/
theorem leafTokens_parseTokens (buffer : TokenBuffer) (fragment : Fragment) (syncLimit : Nat) :
    (buffer.parseTokens fragment syncLimit).tree.leafTokens = buffer.significantIndices := by
  have sound := buffer.sound_initial fragment syncLimit
  have ended := sound.pending_run _ (price_initial_le buffer.cursor fragment syncLimit)
  have hrun := sound.accounted_run (stepBound buffer.cursor.rest.length)
  rw [accounted, (sound.run _).rest_eq_nil ended, List.map_nil, List.append_nil] at hrun
  rw [← buffer.map_index_significant]
  exact hrun

theorem anchored_parseTokens (buffer : TokenBuffer) (fragment : Fragment) (syncLimit : Nat) :
    (buffer.parseTokens fragment syncLimit).tree.Anchored := by
  have rooted := (Leads.run _ (stepBound buffer.cursor.rest.length)).keeps_sound Rooted
    (buffer.sound_initial fragment syncLimit) (rooted_initial buffer.cursor fragment syncLimit)
    fun u sound rooted => rooted.step sound
  exact rooted.anchored

theorem follows_parseTokens (buffer : TokenBuffer) (fragment : Fragment) (syncLimit : Nat) :
    (buffer.parseTokens fragment syncLimit).tree.Follows []
      (buffer.parseTokens fragment syncLimit).tree.events [] := by
  have sound := buffer.sound_initial fragment syncLimit
  have ended := sound.pending_run _ (price_initial_le buffer.cursor fragment syncLimit)
  have shaped := (shaped_initial buffer.cursor fragment syncLimit).run sound
    (stepBound buffer.cursor.rest.length)
  cases shaped with
  | going _ _ pending => exact absurd ended (by rw [pending]; exact List.cons_ne_nil _ _)
  | finished forest _ lays paired =>
    have hsize : (buffer.parseTokens fragment syncLimit).tree.size = forest.size := lays.size_eq
    have hshows : (buffer.parseTokens fragment syncLimit).tree.Shows 0 forest :=
      ParseTree.shows_of_nodes [] [] (by rw [List.nil_append, List.append_nil]; exact lays)
    have follows := ParseTree.follows_walk hshows hsize 0 hshows (by omega) paired
      (fun id hid => ParseTree.enclosingScopes_root hshows hsize hid) (by simp)
    rwa [← hshows.preorder_eq hsize] at follows

/-- The tree of every file is regular, if the text of no significant token is empty. -/
theorem regular_parseTokens (buffer : TokenBuffer) (syncLimit : Nat)
    (spelled : ∀ index ∈ buffer.significantIndices, buffer.text index ≠ "") :
    (buffer.parseTokens .file syncLimit).tree.Regular buffer := by
  obtain ⟨forest, hsize, shows⟩ := buffer.exists_forest .file syncLimit
  have tidy := buffer.tidy_parseTokens syncLimit
  have texts {id token : Nat} (leaf : (buffer.parseTokens .file syncLimit).tree.sizeAt id = 1)
      (htoken : (buffer.parseTokens .file syncLimit).tree.tokenAt? id = some token) :
      buffer.text token ≠ "" := by
    obtain ⟨node, hnode, -⟩ := Option.bind_eq_some_iff.mp htoken
    refine spelled token ?_
    rw [← buffer.leafTokens_parseTokens .file syncLimit]
    exact ParseTree.mem_leafTokens hnode leaf htoken
  refine ⟨⟨forest, shows, hsize⟩, tidy, buffer.follows_parseTokens .file syncLimit, ?_⟩
  intro id hkind
  obtain ⟨token, htoken⟩ := tidy.named hkind
  have htoken : (buffer.parseTokens .file syncLimit).tree.tokenAt? id = some token := htoken
  have hid := ParseTree.lt_size_of_tokenAt? htoken
  have below := shows.le_firstOf (Nat.zero_le id) (by omega)
  have hfirst := shows.sizeAt_firstOf hsize hid
  by_cases leaf : (buffer.parseTokens .file syncLimit).tree.sizeAt id = 1
  · exact ParseTree.subtreeText_ne_empty below.2 le_rfl leaf htoken (texts leaf htoken)
  · -- the name of a package has parts, and stands for the token of the first one
    have branching : 1 < (buffer.parseTokens .file syncLimit).tree.sizeAt id := by
      have hbegins := below.2
      rw [ParseTree.firstOf] at hbegins
      omega
    have anchored := buffer.anchored_parseTokens .file syncLimit id token branching htoken
    rcases anchored with hbegins | lacks
    · exact ParseTree.subtreeText_ne_empty le_rfl below.2 hfirst hbegins (texts hfirst hbegins)
    · rw [lacks.kind] at hkind
      cases hkind

/-- The tree of every source is regular, also of one that is broken. -/
theorem regular_tokenize (source : String) (keepComments : Bool) (syncLimit : Nat) :
    ((tokenize source keepComments).parseTokens .file syncLimit).tree.Regular
      (tokenize source keepComments) :=
  regular_parseTokens _ syncLimit fun index hindex =>
    text_ne_empty ((mem_significantIndices.mp hindex).1 index le_rfl)

end TokenBuffer

end ProtoFront
