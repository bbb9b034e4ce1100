import ProtoFront.Proofs.Composition.Trees
import ProtoFront.Proofs.Symbol.Collect
import ProtoFront.Proofs.Token.Words
import ProtoFront.Proofs.Tree.Decoding

/-!
# How names are spelled

A name that bears no mark is spelled with words that have dots between them, perhaps with a dot in
front if it refers to something. So the text below such a node has no empty part and does not end
with a dot (`spelled_parse`).
-/

namespace ProtoFront

open Production

/-! ## The tokens of a forest -/

/-- The tokens of the leaves that stand for one. -/
def Forest.leafTokens (forest : Forest) : List Nat :=
  forest.encode.filterMap fun node => if node.isLeaf then node.token? else none

namespace Forest

variable {buffer : TokenBuffer} {forest children : Forest} {label : Label}
variable {kind : TokenKind} {word? : Option ContextWord} {item : Item} {items : List Item}

theorem eq_nil_of_isLeaf (h : (label.node children.size).isLeaf = true) : children = nil := by
  cases children with
  | nil => rfl
  | cons =>
    have alone := Nat.succ.inj (beq_iff_eq.mp h)
    rw [size] at alone
    omega

theorem leafTokens_over (label : Label) (inner : 0 < children.size) :
    (tree label children).leafTokens = children.leafTokens := by
  have branching : (label.node children.size).isLeaf = false :=
    beq_eq_false_iff_ne.mpr (Nat.succ_ne_succ_iff.mpr inner.ne')
  rw [leafTokens, leafTokens, tree, encode, encode, List.filterMap_append, List.filterMap_cons,
    branching]
  exact List.append_nil _

/-- A forest whose first root shows a token begins with the leaf of it. -/
theorem exists_token_of_items (h : forest.items buffer = .token kind word? :: items) :
    ∃ token rest, buffer.item token = .token kind word? ∧
      forest.leafTokens = token :: leafTokens rest ∧ rest.items buffer = items := by
  cases forest with
  | nil => cases h
  | cons label children rest =>
    obtain ⟨hitem, hrest⟩ := List.cons.inj h
    rw [Node.item] at hitem
    split at hitem
    case h_1 => cases hitem
    case h_2 => cases hitem
    case h_3 token htoken hkind =>
      split at hitem
      case isTrue hleaf =>
        obtain rfl := eq_nil_of_isLeaf hleaf
        refine ⟨token, rest, hitem, ?_, hrest⟩
        rw [leafTokens, encode, encode, List.nil_append, List.filterMap_cons, if_pos hleaf, htoken]
        rfl
      case isFalse => cases hitem

end Forest

/-! ## Words with dots between them -/

/-- Whether an item is a token that may stand for a name. -/
def Item.isWord : Item → Bool
  | token kind _ => kind.isIdentifierLike
  | _ => false

theorem Item.isWord_of_mem_words {item : Item} (h : item ∈ words) : item.isWord = true := by
  revert item
  decide

theorem Production.exists_of_mem_oneOf {allowed items : List Item}
    (h : items ∈ (oneOf allowed).matches') : ∃ item ∈ allowed, items = [item] := by
  induction allowed with
  | nil => exact h.elim
  | cons first rest ih =>
    rcases h with hfirst | hrest
    · exact ⟨first, List.mem_cons_self, hfirst⟩
    · obtain ⟨item, hitem, hitems⟩ := ih hrest
      exact ⟨item, List.mem_cons_of_mem _ hitem, hitems⟩

/-- The tokens of words, as they follow each other among other tokens. -/
structure TokenBuffer.Names (buffer : TokenBuffer) (tokens named : List Nat) : Prop where
  among : named.Sublist tokens
  words : ∀ token ∈ named, (buffer.kindAt token).isIdentifierLike = true

namespace Forest

variable {buffer : TokenBuffer} {forest : Forest} {tokens named : List Nat}

/-- A forest whose first root shows a word begins with the leaf of that word. -/
theorem exists_word_of_items {item : Item} {items : List Item} (word : item ∈ words)
    (h : forest.items buffer = item :: items) : ∃ token rest,
      (buffer.kindAt token).isIdentifierLike = true ∧
      forest.leafTokens = token :: leafTokens rest ∧ rest.items buffer = items := by
  have hword := Item.isWord_of_mem_words word
  cases item with
  | token kind word? =>
    obtain ⟨token, rest, hitem, htokens, hrest⟩ := exists_token_of_items h
    rw [← hitem] at hword
    exact ⟨token, rest, hword, htokens, hrest⟩
  | _ => cases hword

/-- A forest that shows a dot and a word begins with their leaves. -/
theorem exists_part_of_items {part items : List Item}
    (hpart : part ∈ (just .dot * oneOf words).matches') (h : forest.items buffer = part ++ items) :
    ∃ dot token rest, buffer.kindAt dot = .dot ∧ (buffer.kindAt token).isIdentifierLike = true ∧
      forest.leafTokens = dot :: token :: leafTokens rest ∧ rest.items buffer = items := by
  obtain ⟨_, rfl, _, hword, rfl⟩ := hpart
  obtain ⟨item, word, rfl⟩ := exists_of_mem_oneOf hword
  obtain ⟨dot, behind, hdot, hfirst, hbehind⟩ := exists_token_of_items h
  obtain ⟨token, rest, hkind, hsecond, hrest⟩ := exists_word_of_items word hbehind
  refine ⟨dot, token, rest, (Item.token.inj hdot).1, hkind, ?_, hrest⟩
  rw [hfirst, hsecond]

/-- Words with a dot in front of each. -/
theorem exists_names_of_star
    (dots : ∀ token, buffer.kindAt token = .dot → buffer.text token = ".")
    (h : forest.items buffer ∈ (just .dot * oneOf words).star.matches') :
    ∃ named, buffer.Names forest.leafTokens named ∧
      String.join (forest.leafTokens.map buffer.text) =
        String.join (named.map fun token => "." ++ buffer.text token) := by
  obtain ⟨parts, hparts, each⟩ := Language.mem_kstar.mp h
  clear h
  induction parts generalizing forest with
  | nil =>
    cases forest with
    | nil => exact ⟨[], ⟨List.nil_sublist _, nofun⟩, rfl⟩
    | cons => cases hparts
  | cons part parts ih =>
    obtain ⟨hpart, hlater⟩ := List.forall_mem_cons.mp each
    obtain ⟨dot, token, rest, hdot, hword, htokens, hrest⟩ := exists_part_of_items hpart hparts
    obtain ⟨named, ⟨among, words⟩, htext⟩ := ih hrest hlater
    refine ⟨token :: named, ⟨?_, ?_⟩, ?_⟩
    · rw [htokens]
      exact (among.cons_cons token).cons dot
    · exact List.forall_mem_cons.mpr ⟨hword, words⟩
    · rw [htokens, List.map_cons, List.map_cons, List.map_cons, String.join_cons, String.join_cons,
        String.join_cons, htext, dots dot hdot, String.append_assoc]

end Forest

/-- Texts with dots between them. -/
theorem intercalate_cons (first : String) (rest : List String) :
    ".".intercalate (first :: rest) = first ++ String.join (rest.map ("." ++ ·)) := by
  induction rest generalizing first with
  | nil => rw [String.intercalate_singleton, List.map_nil, String.join_nil, String.append_empty]
  | cons second rest ih =>
    rw [String.intercalate_cons_cons, ih, List.map_cons, String.join_cons, String.append_assoc,
      String.append_assoc]

namespace Forest

variable {buffer : TokenBuffer} {forest : Forest}

/-- What is spelled with words and dots has the texts of the words, with dots between them. -/
theorem exists_names_of_dotted
    (dots : ∀ token, buffer.kindAt token = .dot → buffer.text token = ".")
    (h : forest.items buffer ∈ dotted.matches') :
    ∃ named, named ≠ [] ∧ buffer.Names forest.leafTokens named ∧
      String.join (forest.leafTokens.map buffer.text) =
        ".".intercalate (named.map buffer.text) := by
  rw [Production.dotted, RegularExpression.matches'_mul] at h
  obtain ⟨_, hword, items, hstar, hitems⟩ := Language.mem_mul.mp h
  obtain ⟨item, word, rfl⟩ := exists_of_mem_oneOf hword
  rw [List.singleton_append] at hitems
  obtain ⟨token, rest, hkind, htokens, hrest⟩ := exists_word_of_items word hitems.symm
  rw [← hrest] at hstar
  obtain ⟨named, ⟨among, words⟩, htext⟩ := exists_names_of_star dots hstar
  refine ⟨token :: named, List.cons_ne_nil _ _, ⟨?_, ?_⟩, ?_⟩
  · rw [htokens]
    exact among.cons_cons token
  · exact List.forall_mem_cons.mpr ⟨hkind, words⟩
  · rw [htokens, List.map_cons, String.join_cons, htext, List.map_cons, intercalate_cons,
      List.map_map]
    rfl

/-- What a name is spelled with: words with dots between them, perhaps with a dot in front if it
refers to something. -/
theorem exists_names {kind : NodeKind}
    (dots : ∀ token, buffer.kindAt token = .dot → buffer.text token = ".")
    (named : kind.isName = true) (h : forest.items buffer ∈ kind.spelling.matches') :
    ∃ dot named, (dot = "" ∨ dot = "." ∧ kind ≠ .name) ∧ named ≠ [] ∧
      buffer.Names forest.leafTokens named ∧
      String.join (forest.leafTokens.map buffer.text) =
        dot ++ ".".intercalate (named.map buffer.text) := by
  cases kind with
  | name =>
    obtain ⟨named, nonempty, names, htext⟩ := exists_names_of_dotted dots h
    exact ⟨"", named, .inl rfl, nonempty, names, by rw [htext, String.empty_append]⟩
  | reference kind =>
    rw [NodeKind.spelling, RegularExpression.matches'_mul] at h
    obtain ⟨front, hfront, items, hdotted, hitems⟩ := Language.mem_mul.mp h
    rcases hfront with rfl | rfl
    · rw [List.nil_append] at hitems
      rw [hitems] at hdotted
      obtain ⟨named, nonempty, names, htext⟩ := exists_names_of_dotted dots hdotted
      exact ⟨"", named, .inl rfl, nonempty, names, by rw [htext, String.empty_append]⟩
    · rw [List.singleton_append] at hitems
      obtain ⟨token, rest, hdot, htokens, hrest⟩ := exists_token_of_items hitems.symm
      rw [← hrest] at hdotted
      obtain ⟨named, nonempty, ⟨among, words⟩, htext⟩ := exists_names_of_dotted dots hdotted
      refine ⟨".", named, .inr ⟨rfl, nofun⟩, nonempty, ⟨?_, words⟩, ?_⟩
      · rw [htokens]
        exact among.cons token
      · rw [htokens, List.map_cons, String.join_cons, htext, dots token (Item.token.inj hdot).1]
  | _ => cases named

end Forest

/-! ## The text below a node -/

namespace ParseTree

/-- The tokens of the leaves of a subtree. -/
def tokensIn (tree : ParseTree) (id : Nat) : List Nat :=
  (tree.subtree id).filterMap fun node => if node.isLeaf then node.token? else none

variable {tree : ParseTree} {buffer : TokenBuffer} {children : Forest} {label : Label}
variable {start id : Nat}

/-- The text below a node is made of the texts of those tokens. -/
theorem subtreeText_eq (tree : ParseTree) (buffer : TokenBuffer) (id : Nat) :
    tree.subtreeText buffer id = String.join ((tree.tokensIn id).map buffer.text) := by
  rw [subtreeText, tokensIn, List.map_filterMap]
  refine congrArg String.join (List.filterMap_congr fun node _ => ?_)
  cases node.isLeaf <;> rfl

/-- There are no more tokens below a node than nodes. -/
theorem length_tokensIn_le (tree : ParseTree) (id : Nat) :
    (tree.tokensIn id).length ≤ tree.sizeAt id := by
  refine (List.length_filterMap_le _ _).trans ?_
  rw [subtree, Array.length_toList, Array.size_extract, firstOf]
  omega

/-- The subtree of a node is laid out from what is below it. -/
theorem Shows.subtree_eq (h : tree.Shows start children)
    (hnode : tree.node? (start + children.size) = some (label.node children.size)) :
    tree.subtree (start + children.size) = (Forest.tree label children).encode := by
  have shows : tree.Shows start (.tree label children) := ⟨h, hnode, trivial⟩
  have hsize : (Forest.tree label children).size = children.size + 1 := rfl
  have inside := (Array.getElem?_eq_some_iff.mp hnode).1
  apply List.ext_getElem?
  intro place
  rw [subtree, firstOf_of_node hnode, Array.getElem?_toList, Array.getElem?_extract]
  by_cases hplace : place < children.size + 1
  · rw [if_pos (by omega), shows.getElem?_encode (by omega), node?]
  · rw [if_neg (by omega), List.getElem?_eq_none]
    rw [Forest.length_encode]
    omega

theorem Shows.tokensIn_eq (h : tree.Shows start children)
    (hnode : tree.node? (start + children.size) = some (label.node children.size)) :
    tree.tokensIn (start + children.size) = (Forest.tree label children).leafTokens := by
  rw [tokensIn, h.subtree_eq hnode, Forest.leafTokens]

end ParseTree

/-! ## Names in the tree of a source -/

section

variable {buffer : TokenBuffer} {label : Label} {children : Forest}

/-- What a node is made of is shown by a forest with the same tokens. -/
theorem Forest.exists_parts (nonempty : parts buffer label children ≠ []) :
    ∃ forest : Forest, forest.items buffer = parts buffer label children ∧
      forest.leafTokens = (tree label children).leafTokens := by
  obtain ⟨_ | token, failed, kind?⟩ := label
  · cases children <;> exact absurd rfl nonempty
  · cases children with
    | nil => exact ⟨.leaf (some token) failed none, rfl, rfl⟩
    | cons first below rest =>
      refine ⟨cons first below rest, rfl, (leafTokens_over _ ?_).symm⟩
      rw [size]
      omega

end

namespace TokenBuffer

variable {source : String} {keepComments : Bool}

/-- A name in the tree of a source is spelled as names are, if it bears no mark or is a leaf. -/
theorem spelled_node {fragment : Fragment} {syncLimit id : Nat} {node : Node} {kind : NodeKind}
    (h : ((tokenize source keepComments).parseTokens fragment syncLimit).tree.node? id = some node)
    (sound : node.failed = false ∨ node.token? ≠ none ∧ node.isLeaf = true)
    (hkind : node.kind? = some kind) (named : kind.isName = true) :
    node.token? ≠ none ∧ ∃ dot named, (dot = "" ∨ dot = "." ∧ kind ≠ .name) ∧ named ≠ [] ∧
      (tokenize source keepComments).Names
        (((tokenize source keepComments).parseTokens fragment syncLimit).tree.tokensIn id) named ∧
      ((tokenize source keepComments).parseTokens fragment syncLimit).tree.subtreeText
        (tokenize source keepComments) id =
          dot ++ ".".intercalate (named.map (tokenize source keepComments).text) := by
  have dots : ∀ token, (tokenize source keepComments).kindAt token = .dot →
      (tokenize source keepComments).text token = "." := by
    intro token hdot
    exact text_eq_spelling (by rw [hdot]; rfl)
  generalize tokenize source keepComments = buffer at *
  obtain ⟨forest, shows, hsize, complete⟩ := buffer.exists_complete_forest fragment syncLimit
  have hid := (Array.getElem?_eq_some_iff.mp h).1
  obtain ⟨label, children, contains, hlabel, below, hspan⟩ :=
    shows.exists_contains (Nat.zero_le id) (by rw [Nat.zero_add, ← hsize]; exact hid)
  obtain rfl := Option.some.inj (h.symm.trans hlabel)
  have settled : label.failed = false ∨ label.token? ≠ none ∧ children = .nil :=
    sound.imp_right fun ⟨real, leaf⟩ => ⟨real, Forest.eq_nil_of_isLeaf leaf⟩
  have spelled := (complete.made contains).spelled settled kind hkind named
  have nonempty : Forest.parts buffer label children ≠ [] := by
    intro hnil
    rw [hnil] at spelled
    exact kind.nil_notMem_spelling spelled
  obtain ⟨shown, hparts, htokens⟩ := Forest.exists_parts nonempty
  rw [← hparts] at spelled
  obtain ⟨dot, named, hdot, hnamed, names, htext⟩ := Forest.exists_names dots named spelled
  have hbelow := below.tokensIn_eq (by rw [hspan]; exact hlabel)
  rw [hspan, ← htokens] at hbelow
  refine ⟨?_, dot, named, hdot, hnamed, ?_, ?_⟩
  · intro hnone
    exact nonempty (Forest.parts_of_missing hnone)
  · rw [hbelow]
    exact names
  · rw [ParseTree.subtreeText_eq, hbelow, htext]

end TokenBuffer

/-- In the tree of every source, also of a broken one, a name or a reference that bears no mark
stands for a token, and its text is the texts of one word or more with dots between them. What
refers to something may have a dot in front. No word is empty or has a dot in it. -/
theorem spelled_parse (source : String) (keepComments : Bool) (fragment : Fragment)
    (syncLimit : Nat) :
    ∃ parsed, (tokenize source keepComments).parse fragment syncLimit = .ok parsed ∧
      ∀ id node kind, parsed.tree.node? id = some node → node.failed = false →
        node.kind? = some kind → kind.isName = true →
        node.token? ≠ none ∧ ∃ dot named, (dot = "" ∨ dot = "." ∧ kind ≠ .name) ∧ named ≠ [] ∧
          named.Sublist (parsed.tree.tokensIn id) ∧
          (∀ token ∈ named,
            ((tokenize source keepComments).kindAt token).isIdentifierLike = true ∧
            Lexer.isWord ((tokenize source keepComments).text token).toList = true) ∧
          parsed.tree.subtreeText (tokenize source keepComments) id =
            dot ++ ".".intercalate (named.map (tokenize source keepComments).text) := by
  refine ⟨_, TokenBuffer.parse_eq_ok _ fragment syncLimit (by simp [tokenize]), ?_⟩
  intro id node kind hnode unmarked hkind named
  obtain ⟨real, dot, tokens, hdot, nonempty, ⟨among, words⟩, htext⟩ :=
    TokenBuffer.spelled_node hnode (.inl unmarked) hkind named
  refine ⟨real, dot, tokens, hdot, nonempty, among, ?_, htext⟩
  intro token htoken
  exact ⟨words token htoken, TokenBuffer.isWord_text (words token htoken)⟩

/-- A field whose type is looked up from the outside. -/
def dottedType : String := "message M \x7b .a . b c = 1; \x7d"

theorem spelled_parse_dottedType :
    ∃ parsed, (tokenize dottedType false).parse .file 10 = .ok parsed ∧
      parsed.tree.node? 7 = some ⟨some 3, 5, false, some (.reference .fieldType)⟩ ∧
      parsed.tree.subtreeText (tokenize dottedType false) 7 = ".a.b" ∧
      ∃ dot named, (dot = "" ∨ dot = "." ∧ NodeKind.reference .fieldType ≠ .name) ∧ named ≠ [] ∧
        named.Sublist (parsed.tree.tokensIn 7) ∧
        ".a.b" = dot ++ ".".intercalate (named.map (tokenize dottedType false).text) := by
  obtain ⟨parsed, hparsed, spelled⟩ := spelled_parse dottedType false .file 10
  obtain rfl : (tokenize dottedType false).parseTokens .file 10 = parsed :=
    Except.ok.inj ((TokenBuffer.parse_tokenize dottedType false 10).symm.trans hparsed)
  have hnode : ((tokenize dottedType false).parseTokens .file 10).tree.node? 7 =
      some ⟨some 3, 5, false, some (.reference .fieldType)⟩ := by
    decide +kernel
  have htext : ((tokenize dottedType false).parseTokens .file 10).tree.subtreeText
      (tokenize dottedType false) 7 = ".a.b" := by
    decide +kernel
  obtain ⟨-, dot, named, hdot, nonempty, among, -, hspelled⟩ := spelled 7 _ _ hnode rfl rfl rfl
  exact ⟨_, hparsed, hnode, htext, dot, named, hdot, nonempty, among, htext.symm.trans hspelled⟩

end ProtoFront
