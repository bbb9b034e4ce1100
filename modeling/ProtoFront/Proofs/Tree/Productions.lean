import Mathlib.Computability.RegularExpressions
import Mathlib.Order.CompletePartialOrder
import ProtoFront.Proofs.Parse.Stack
import ProtoFront.Proofs.Tree.Forest

/-!
# What declarations and names are made of

A complete declaration is made of certain children in a certain order. For every kind of declaration
that order is a regular expression over what a child shows of itself: the token of an untagged leaf,
else the tag (`DeclarationKind.production`). A name is made of words with dots between them
(`NodeKind.spelling`). A forest is complete if every unmarked declaration and name somewhere in it
is (`Forest.Complete`).
-/

namespace ProtoFront

/-! ## What a child shows -/

/-- A child of a node, seen from the node. -/
inductive Item where
  /-- an untagged leaf: its token, and the word of a context that the token spells -/
  | token (kind : TokenKind) (word? : Option ContextWord)
  /-- a tagged node, a leaf or not -/
  | node (kind : NodeKind)
  /-- an untagged node over others -/
  | group
  /-- a node that stands for no token of the source -/
  | missing (kind? : Option NodeKind)
  deriving DecidableEq, Repr

/-- The item of a token. -/
def TokenBuffer.item (buffer : TokenBuffer) (index : Nat) : Item :=
  .token (buffer.kindAt index)
    (if buffer.kindAt index = .identifier then ContextWord.ofText? (buffer.text index) else none)

/-- The item of a node. -/
def Node.item (buffer : TokenBuffer) (node : Node) : Item :=
  match node.token?, node.kind? with
  | none, kind? => .missing kind?
  | some _, some kind => .node kind
  | some index, none => if node.isLeaf then buffer.item index else .group

/-- The item of a node over others. -/
def Item.closed : Option NodeKind → Item
  | some kind => .node kind
  | none => .group

theorem Label.item_node {buffer : TokenBuffer} (label : Label) {below : Nat}
    (real : label.token? ≠ none) (h : 0 < below) :
    (label.node below).item buffer = Item.closed label.kind? := by
  have inner : (label.node below).isLeaf = false :=
    beq_eq_false_iff_ne.mpr (Nat.succ_ne_succ_iff.mpr h.ne')
  rcases label with ⟨_ | token, failed, _ | kind⟩
  · exact absurd rfl real
  · exact absurd rfl real
  · exact if_neg (Bool.eq_false_iff.mp inner)
  · rfl

/-- The item of the node with the number `id`. -/
def ParseTree.item (tree : ParseTree) (buffer : TokenBuffer) (id : Nat) : Item :=
  ((tree.node? id).map (Node.item buffer)).getD (.missing none)

/-- The children of a node, first child first. -/
def ParseTree.childItems (tree : ParseTree) (buffer : TokenBuffer) (id : Nat) : List Item :=
  (tree.children id).reverse.map (tree.item buffer)

/-! ## Productions -/

/-- What the children of a node may be. -/
abbrev Production := RegularExpression Item

namespace Production

open RegularExpression

def oneOf (items : List Item) : Production := (items.map char).sum

def perhaps (production : Production) : Production := 1 + production

/-- A token that spells no word of a context. -/
def just (kind : TokenKind) : Production := char (.token kind none)

/-- A reserved word. -/
def word (word : Keyword) : Production := just (.keyword word)

/-- A word of a context. -/
def contextual (word : ContextWord) : Production := char (.token .identifier (some word))

def node (kind : NodeKind) : Production := char (.node kind)

/-- Identifiers, words of a context or not. -/
def identifiers : List Item :=
  (none :: ContextWord.all.map some).map fun word? => .token .identifier word?

/-- All that may stand for a name. -/
def words : List Item :=
  identifiers ++ (Keyword.all.map TokenKind.keyword ++ ScalarType.all.map TokenKind.scalar).map
    fun kind => .token kind none

/-- Words with dots between them. -/
def dotted : Production := oneOf words * (just .dot * oneOf words).star

def strings : Production := just .stringLiteral * (just .stringLiteral).star

/-- The value of an option. -/
def value : Production :=
  strings + oneOf ([.token .intLiteral none, .token .floatLiteral none] ++ words) +
    (just .minus + just .plus) *
      oneOf ([.token .intLiteral none, .token .floatLiteral none] ++ identifiers) +
    node .textMessage + node .textList

/-- Any number of statements. -/
def statements : Production :=
  (just .semicolon + oneOf ((NodeKind.all.filter fun kind => kind.category = .declaration).map
    Item.node)).star

/-- The name and the number of a field or an enum value. -/
def numbered (number : Production) : Production := node .name * just .equals * number

/-- The end of a statement that may have a list of options. -/
def ending : Production := perhaps (char .group) * just .semicolon

def modifier : Production :=
  oneOf ([.kwOptional, .kwRequired, .kwRepeated].map fun word => .token (.keyword word) none)

/-- Items with commas between them. -/
def separated (item : Production) : Production := item * (just .comma * item).star

/-- A type in parentheses, perhaps a stream. -/
def parenthesized (kind : ReferenceKind) : Production :=
  just (.opener .paren) * perhaps (contextual .wordStream) * node (.reference kind) *
    just (.closer .paren)

end Production

open Production in
/-- What the children of a complete declaration are. An option has no word and no semicolon when it
is an item of a list. -/
def DeclarationKind.production : DeclarationKind → Production
  | syntaxLevel => word .kwSyntax * just .equals * strings * just .semicolon
  | edition => word .kwEdition * just .equals * strings * just .semicolon
  | importing => word .kwImport * perhaps (contextual .wordPublic + contextual .wordWeak) *
      strings * just .semicolon
  | package => word .kwPackage * node .name * just .semicolon
  | option => word .kwOption * node .optionName * just .equals * value * just .semicolon +
      node .optionName * just .equals * value
  | scope kind => word kind.word * node .name * just (.opener .brace) * statements *
      node .scopeClose
  | extend => word .kwExtend * node (.reference .extendeeType) * just (.opener .brace) *
      statements * just (.closer .brace)
  | field => perhaps modifier * node (.reference .fieldType) * numbered (just .intLiteral) * ending
  | mapField => perhaps modifier * word .kwMap * just (.opener .angle) *
      node (.reference .mapKeyType) * just .comma * node (.reference .mapValueType) *
      just (.closer .angle) * numbered (just .intLiteral) * ending
  | enumValue => numbered (perhaps (just .minus) * just .intLiteral) * ending
  | rpc => word .kwRpc * node .name * parenthesized .rpcInputType * contextual .wordReturns *
      parenthesized .rpcOutputType *
      (just .semicolon + just (.opener .brace) * statements * just (.closer .brace))
  | reserved => word .kwReserved *
      separated (oneOf ([.node .range, .token .stringLiteral none] ++ words)) * just .semicolon
  | extensions => word .kwExtensions * separated (node .range) * ending

example : DeclarationKind.field.production.rmatch [.node (.reference .fieldType), .node .name,
    .token .equals none, .token .intLiteral none, .group, .token .semicolon none] = true := by
  decide

/-- Whether a kind is one of the nodes that names become. -/
def NodeKind.isName : NodeKind → Bool
  | reference _ | name => true
  | _ => false

open Production in
/-- What a name is spelled with. What is referred to may begin with a dot. -/
def NodeKind.spelling : NodeKind → Production
  | reference _ => perhaps (just .dot) * dotted
  | name => dotted
  | _ => 0

theorem Production.mem_oneOf {item : Item} {items : List Item} :
    [item] ∈ (oneOf items).matches' ↔ item ∈ items := by
  induction items with
  | nil => simp [oneOf]
  | cons first rest ih =>
    rw [oneOf, List.map_cons, List.sum_cons, RegularExpression.matches'_add, Language.mem_add,
      RegularExpression.matches'_char, List.mem_cons]
    exact or_congr List.singleton_inj ih

theorem Production.mem_identifiers (word? : Option ContextWord) :
    .token .identifier word? ∈ identifiers := by
  rcases word? with _ | word
  · decide
  · cases word <;> decide

/-- Nothing that is complete is empty. -/
theorem DeclarationKind.nil_notMem_production (kind : DeclarationKind) :
    [] ∉ kind.production.matches' := by
  rw [← RegularExpression.rmatch_iff_matches']
  cases kind with
  | scope kind => cases kind <;> decide
  | _ => decide

theorem NodeKind.nil_notMem_spelling (kind : NodeKind) : [] ∉ kind.spelling.matches' := by
  rw [← RegularExpression.rmatch_iff_matches']
  cases kind with
  | declaration kind => exact Bool.false_ne_true
  | reference kind => cases kind <;> decide
  | _ => decide

/-! ## Complete forests -/

/-- Kinds that are neither declarations nor names, of which nothing is asked. -/
def NodeKind.isBare : NodeKind → Bool
  | declaration _ | reference _ | name => false
  | _ => true

theorem NodeKind.ne_declaration {tag? : Option NodeKind} (h : tag?.all NodeKind.isBare = true)
    (kind : DeclarationKind) : tag? ≠ some (.declaration kind) := by
  rintro rfl
  cases h

theorem NodeKind.isName_eq_false {tag? : Option NodeKind} {kind : NodeKind}
    (h : tag?.all NodeKind.isBare = true) (hkind : tag? = some kind) : kind.isName = false := by
  subst hkind
  cases kind <;> first | rfl | cases h

namespace Forest

variable {buffer : TokenBuffer} {forest first second children : Forest} {label : Label}

/-- The items of the roots. -/
def items (buffer : TokenBuffer) : Forest → List Item
  | nil => []
  | cons label children rest => (label.node children.size).item buffer :: rest.items buffer

@[simp] theorem items_append :
    (first ++ second).items buffer = first.items buffer ++ second.items buffer := by
  induction first with
  | nil => rfl
  | cons label children rest _ ih => rw [cons_append, items, ih, items, List.cons_append]

theorem size_pos_of_items_ne_nil (h : forest.items buffer ≠ []) : 0 < forest.size := by
  cases forest with
  | nil => exact absurd rfl h
  | cons label children rest =>
    rw [size]
    omega

/-- The items that a node is made of: those of its children, or the one of its token. -/
def parts (buffer : TokenBuffer) (label : Label) (children : Forest) : List Item :=
  match label.token?, children with
  | none, _ => []
  | some token, nil => [buffer.item token]
  | some _, children => children.items buffer

theorem parts_of_missing (missing : label.token? = none) : parts buffer label children = [] := by
  simp only [parts, missing]

theorem parts_over {token : Nat} (real : label.token? = some token) (inner : 0 < children.size) :
    parts buffer label children = children.items buffer := by
  cases children with
  | nil => cases inner
  | cons => simp only [parts, real]

/-- A node that bears no mark has all its children if it is a declaration, and is spelled as a name
if it is a name. A name that is a leaf always is. -/
structure Made (buffer : TokenBuffer) (label : Label) (children : Forest) : Prop where
  declared : label.failed = false → ∀ kind, label.kind? = some (.declaration kind) →
    children.items buffer ∈ kind.production.matches'
  spelled : label.failed = false ∨ label.token? ≠ none ∧ children = nil →
    ∀ kind, label.kind? = some kind → kind.isName = true →
      parts buffer label children ∈ kind.spelling.matches'

/-- Every node is made of what it should be made of. -/
def Complete (buffer : TokenBuffer) : Forest → Prop
  | nil => True
  | cons label children rest =>
    Made buffer label children ∧ children.Complete buffer ∧ rest.Complete buffer

theorem complete_nil : nil.Complete buffer := trivial

theorem complete_append :
    (first ++ second).Complete buffer ↔ first.Complete buffer ∧ second.Complete buffer := by
  induction first with
  | nil => exact (iff_of_eq (true_and _)).symm
  | cons label children rest _ ih => simp only [cons_append, Complete, ih, and_assoc]

theorem Complete.tree (h : children.Complete buffer) (made : Made buffer label children) :
    (tree label children).Complete buffer := ⟨made, h, trivial⟩

/-- Nothing is asked of bare nodes. -/
theorem made_of_isBare (bare : label.kind?.all NodeKind.isBare = true) :
    Made buffer label children where
  declared _ _ hkind := absurd hkind (NodeKind.ne_declaration bare _)
  spelled _ _ hkind named :=
    absurd named (Bool.eq_false_iff.mp (NodeKind.isName_eq_false bare hkind))

theorem Complete.made (h : forest.Complete buffer) (contains : forest.Contains label children) :
    Made buffer label children := by
  induction forest with
  | nil => cases contains
  | cons label' children' rest ihc ihr =>
    obtain ⟨hmade, hchildren, hrest⟩ := h
    rcases contains with ⟨rfl, rfl⟩ | hbelow | hlater
    · exact hmade
    · exact ihc hchildren hbelow
    · exact ihr hrest hlater

theorem Complete.production (h : forest.Complete buffer) (contains : forest.Contains label children)
    (unmarked : label.failed = false) {kind : DeclarationKind}
    (hkind : label.kind? = some (.declaration kind)) :
    children.items buffer ∈ kind.production.matches' :=
  (h.made contains).declared unmarked kind hkind

end Forest

/-- What the roots of a forest show in a tree. -/
theorem ParseTree.Shows.items_eq {tree : ParseTree} {buffer : TokenBuffer} {forest : Forest}
    {start : Nat} (h : tree.Shows start forest) :
    (forest.rootIds start).map (tree.item buffer) = forest.items buffer := by
  induction forest generalizing start with
  | nil => rfl
  | cons label children rest _ ih =>
    obtain ⟨-, hnode, hrest⟩ := h
    rw [Forest.rootIds, List.map_cons, ih hrest, Forest.items, ParseTree.item, hnode]
    rfl

end ProtoFront
