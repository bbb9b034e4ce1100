import ProtoFront.Proofs.Bundle.Files
import ProtoFront.Proofs.Symbol.Package
import ProtoFront.Proofs.Symbol.Spellings

/-!
# What symbols are inside of

The name of a symbol says what the symbol is inside of: if it has a dot, what is in front of the
last dot is the name of its package, or of the message or service around it. These are symbols of
the same file, and are inside of other symbols in turn. So every part of a name that ends in
front of a dot is the name of something that can contain others, in every bundle whose package
statements bear no marks (`Bundle.containers_load`).
-/

namespace ProtoFront

open Lexer

/-! ## Names made of words -/

theorem mem_tail_inits {words taken : List String} :
    taken ∈ words.inits.tail ↔ taken ≠ [] ∧ taken <+: words := by
  cases words with
  | nil => simp
  | cons first rest =>
    rw [List.inits_cons, List.tail_cons, List.mem_map, List.prefix_cons_iff]
    simp only [List.mem_inits]
    constructor
    · rintro ⟨front, hfront, rfl⟩
      exact ⟨List.cons_ne_nil _ _, .inr ⟨front, rfl, hfront⟩⟩
    · rintro ⟨some, rfl | ⟨front, rfl, hfront⟩⟩
      · exact absurd rfl some
      · exact ⟨front, hfront, rfl⟩

/-- The packages that a name made of words is in are made of its first words. -/
theorem mem_dottedPrefixes_intercalate {words : List String} {package : String}
    (nonempty : words ≠ []) (each : ∀ word ∈ words, isWord word.toList = true) :
    package ∈ dottedPrefixes (".".intercalate words) ↔
      ∃ taken, taken ≠ [] ∧ taken <+: words ∧ ".".intercalate taken = package := by
  have parts : (".".intercalate words).toList.splitOn '.' = words.map String.toList := by
    rw [String.toList_intercalate]
    refine List.splitOn_intercalate '.' (List.forall_mem_map.mpr fun word hword => ?_) ?_
    · exact dot_notMem_of_isWord (each word hword)
    · exact List.map_eq_nil_iff.not.mpr nonempty
  have kept : (words.map String.toList).filter (· ≠ []) = words.map String.toList := by
    refine List.filter_eq_self.mpr (List.forall_mem_map.mpr fun word hword => ?_)
    rw [decide_eq_true_iff]
    intro hnil
    have hword := each word hword
    rw [hnil] at hword
    cases hword
  have back : (words.map String.toList).map String.ofList = words := by
    rw [List.map_map]
    exact List.map_id'' (fun word => String.ofList_toList) words
  rw [dottedPrefixes, parts, kept, back, List.mem_map]
  simp only [mem_tail_inits, and_assoc]

/-- What ends in front of a dot of a name ends in front of its last dot, or before. -/
theorem eq_or_exists_of_last_dot {scope word outer inner : String} (plain : '.' ∉ word.toList)
    (h : scope ++ "." ++ word = outer ++ "." ++ inner) :
    outer = scope ∨ ∃ rest, scope = outer ++ "." ++ rest := by
  have chars : scope.toList ++ '.' :: word.toList = outer.toList ++ '.' :: inner.toList := by
    simpa using congrArg String.toList h
  rcases List.append_eq_append_iff.mp chars with ⟨more, houter, hword⟩ | ⟨more, hscope, hinner⟩
  · cases more with
    | nil => exact .inl (String.toList_inj.mp (by rw [houter, List.append_nil]))
    | cons c more =>
      rw [List.cons_append] at hword
      exact absurd (by rw [(List.cons.inj hword).2]; simp) plain
  · cases more with
    | nil => exact .inl (String.toList_inj.mp (by rw [hscope, List.append_nil]))
    | cons c more =>
      obtain ⟨rfl, -⟩ := List.cons.inj hinner
      exact .inr ⟨String.ofList more, String.toList_inj.mp (by simp [hscope])⟩

/-! ## Containers -/

/-- Whether such a symbol has its name in front of the names of what is inside of it. -/
def SymbolKind.contains : SymbolKind → Bool
  | package | message | service => true
  | _ => false

theorem SymbolKind.isAggregate_of_contains {kind : SymbolKind} (h : kind.contains = true) :
    kind.isAggregate = true := by
  cases kind <;> first | rfl | cases h

theorem SymbolKind.contains_iff {kind : SymbolKind} :
    kind.contains = true ↔ kind = package ∨ kind = message ∨ kind = service := by
  cases kind <;> simp [contains]

/-- Whether a symbol is directly inside of another one. -/
def Symbol.IsInside (symbol container : Symbol) : Prop :=
  container.kind.contains = true ∧
    ∃ word : String, '.' ∉ word.toList ∧ symbol.name = container.name ++ "." ++ word

/-- Whether each of some symbols whose name has a dot is directly inside of one of them. -/
def Contained (symbols : List Symbol) : Prop :=
  ∀ symbol ∈ symbols, '.' ∈ symbol.name.toList → ∃ container ∈ symbols, symbol.IsInside container

/-- A symbol whose name has parts is inside of what is named by all of them but the last. -/
theorem Symbol.exists_isInside {symbols : List Symbol} {symbol : Symbol} {parts : List String}
    {last : String} (hname : symbol.name = ".".intercalate (parts ++ [last]))
    (plain : '.' ∉ last.toList) (dotted : '.' ∈ symbol.name.toList)
    (named : parts ≠ [] → ∃ container ∈ symbols,
      container.kind.contains = true ∧ container.name = ".".intercalate parts) :
    ∃ container ∈ symbols, symbol.IsInside container := by
  by_cases outermost : parts = []
  · rw [hname, outermost, List.nil_append, String.intercalate_singleton] at dotted
    exact absurd dotted plain
  · obtain ⟨container, hcontainer, contains, hparts⟩ := named outermost
    refine ⟨container, hcontainer, contains, last, plain, ?_⟩
    rw [hname, hparts, String.intercalate_append_of_ne_nil outermost (List.cons_ne_nil _ _),
      String.intercalate_singleton]

/-- From the container of a symbol to its container and so on, one comes to all parts of the name
that end in front of a dot. -/
theorem Contained.exists_container {symbols : List Symbol} {symbol : Symbol}
    {outer inner : String} (contained : Contained symbols) (hsymbol : symbol ∈ symbols)
    (hname : symbol.name = outer ++ "." ++ inner) :
    ∃ container ∈ symbols, container.kind.contains = true ∧ container.name = outer := by
  induction hlength : symbol.name.length using Nat.strong_induction_on
    generalizing symbol inner with
  | _ length ih =>
    have dotted : '.' ∈ symbol.name.toList := by simp [hname]
    obtain ⟨container, hcontainer, contains, word, plain, hword⟩ := contained symbol hsymbol dotted
    rcases eq_or_exists_of_last_dot plain (hword.symm.trans hname) with rfl | ⟨rest, hrest⟩
    · exact ⟨container, hcontainer, contains, rfl⟩
    · have shorter : container.name.length < length := by
        rw [← hlength, hword, String.length_append, String.length_append]
        exact Nat.lt_of_lt_of_le (Nat.lt_add_of_pos_right Nat.one_pos) (Nat.le_add_right _ _)
      exact ih _ shorter hcontainer hrest rfl

namespace ParseTree

variable {tree : ParseTree} {buffer : TokenBuffer} {id parent outer file : Nat}

/-! ## The scope of a node and its parent -/

/-- Whether the names in a tree are words, and those of packages words with dots between them. -/
structure Worded (tree : ParseTree) (buffer : TokenBuffer) : Prop where
  word : ∀ {id name}, tree.kind? id ≠ some (.declaration .package) →
    tree.nameText? buffer id = some name → isWord name.toList = true
  words : ∀ {id name}, tree.kind? id = some (.declaration .package) →
    tree.nameText? buffer id = some name →
    ∃ words, words ≠ [] ∧ (∀ word ∈ words, isWord word.toList = true) ∧
      name = ".".intercalate words

/-- Everything in a node that is no package statement is in the same package as the node. -/
theorem Regular.packageBefore?_of_encloses (regular : tree.Regular buffer)
    (h : tree.Encloses outer id) (inner : tree.kind? outer ≠ some (.declaration .package)) :
    tree.packageBefore? buffer id = tree.packageBefore? buffer outer := by
  obtain ⟨forest, shows, hsize⟩ := regular.shown
  have ⟨houter, hfirst, habove⟩ := h
  rw [shows.packageBefore?_eq hsize regular.tidy, shows.packageBefore?_eq hsize regular.tidy]
  refine congrArg List.getLast? (List.filterMap_congr fun root _ => ?_)
  refine if_congr (and_congr_right fun hkind => ?_) rfl rfl
  -- the package statement is a root, so that it is in front of the node, or behind it
  have hroot := regular.tidy.roots hkind
  rw [shows.roots_eq hsize, List.mem_reverse] at hroot
  have hlt := lt_size_of_kind hkind
  have begins := (shows.le_firstOf (Nat.zero_le root) (by omega)).2
  have apart : root ≠ id := by
    rintro rfl
    exact shows.not_encloses_root hsize hroot h
  have other : root ≠ outer := by
    rintro rfl
    exact inner hkind
  rw [and_iff_left apart, and_iff_left other]
  rcases Nat.lt_or_gt_of_ne other with hfront | hbehind
  · have := shows.root_lt_firstOf hroot hfront (by omega)
    omega
  · have := shows.nested_or_apart (Nat.zero_le outer) hbehind (by omega)
    omega

/-- The scope of a child is that of its parent, with the name that the parent adds. -/
theorem Regular.scopeParts_child (regular : tree.Regular buffer)
    (hchild : id ∈ tree.children parent)
    (inner : tree.kind? parent ≠ some (.declaration .package)) :
    tree.scopeParts buffer id =
      tree.scopeParts buffer parent ++ (tree.scopeName? buffer parent).toList := by
  obtain ⟨forest, shows, hsize⟩ := regular.shown
  have encloses := (shows.encloses_child hsize hchild).mpr (.inl rfl)
  rw [scopeParts, regular.packageBefore?_of_encloses encloses inner,
    enclosingScopes_child shows hsize hchild, scopeParts, List.append_assoc]
  split
  case isTrue =>
    rw [List.reverse_cons, List.filterMap_append, List.filterMap_cons, List.filterMap_nil]
    cases tree.scopeName? buffer parent <;> rfl
  case isFalse closed =>
    have unnamed : tree.scopeName? buffer parent = none := by
      rw [scopeName?]
      split
      case h_1 hkind => exact absurd (by rw [hkind]; rfl) closed
      case h_2 hkind => exact absurd (by rw [hkind]; rfl) closed
      case h_3 => rfl
    rw [unnamed, Option.toList_none, List.append_nil]

/-! ## The symbols of a tree -/

/-- What a node declares is among the symbols. -/
theorem Regular.mem_symbols (regular : tree.Regular buffer) {symbol : Symbol}
    (hid : id < tree.size) (h : symbol ∈ tree.symbolsAt buffer file id) :
    symbol ∈ tree.symbols buffer file := by
  obtain ⟨forest, shows, hsize⟩ := regular.shown
  rw [regular.symbols_eq, List.mem_flatMap]
  exact ⟨id, (shows.perm_walkOrder hsize).mem_iff.mpr (List.mem_range.mpr hid), h⟩

variable {name package : String}

/-- A package statement that has a name declares the packages that the name is in. -/
theorem Regular.exists_package (regular : tree.Regular buffer)
    (hkind : tree.kind? id = some (.declaration .package))
    (hname : tree.nameText? buffer id = some name) (among : package ∈ dottedPrefixes name) :
    ∃ symbol ∈ tree.symbols buffer file, symbol.kind.contains = true ∧ symbol.name = package := by
  obtain ⟨child, hchild, -⟩ := Option.map_eq_some_iff.mp hname
  obtain ⟨token, htoken, -⟩ := regular.tidy.exists_nameToken? buffer hchild
  refine ⟨⟨package, .package, file, token⟩, ?_, rfl, rfl⟩
  refine regular.mem_symbols (lt_size_of_kind hkind) ?_
  rw [symbolsAt, hkind, hname, htoken]
  exact List.mem_map_of_mem among

/-- A declaration of a kind that makes containers declares one of its name, if it has one. -/
theorem Regular.exists_declared (regular : tree.Regular buffer) {kind : DeclarationKind}
    {symbolKind : SymbolKind} (hkind : tree.kind? id = some (.declaration kind))
    (makes : SymbolKind.ofDeclaration? kind = some symbolKind)
    (contains : symbolKind.contains = true) (hname : tree.nameText? buffer id = some name) :
    ∃ symbol ∈ tree.symbols buffer file, symbol.kind.contains = true ∧
      symbol.name = tree.fullName buffer id name := by
  have inner : kind ≠ .package := by
    rintro rfl
    cases makes
  obtain ⟨child, hchild, -⟩ := Option.map_eq_some_iff.mp hname
  obtain ⟨token, htoken, -⟩ := regular.tidy.exists_nameToken? buffer hchild
  refine ⟨⟨tree.fullName buffer id name, symbolKind, file, token⟩, ?_, contains, rfl⟩
  refine regular.mem_symbols (lt_size_of_kind hkind) ?_
  rw [symbolsAt, hkind, hname, htoken]
  simp only [declares_of_ne inner, makes]
  exact List.mem_singleton.mpr rfl

/-- A message or service that adds its name to a scope declares a symbol of that name. -/
theorem Regular.exists_scope (regular : tree.Regular buffer)
    (hname : tree.scopeName? buffer id = some name) :
    ∃ symbol ∈ tree.symbols buffer file, symbol.kind.contains = true ∧
      symbol.name = tree.fullName buffer id name := by
  rw [scopeName?] at hname
  split at hname
  case h_1 hkind => exact regular.exists_declared hkind rfl rfl hname
  case h_2 hkind => exact regular.exists_declared hkind rfl rfl hname
  case h_3 => cases hname

/-- The package of a node is declared. -/
theorem Regular.exists_of_packageBefore? (regular : tree.Regular buffer)
    (worded : tree.Worded buffer) (h : tree.packageBefore? buffer id = some package) :
    ∃ symbol ∈ tree.symbols buffer file, symbol.kind.contains = true ∧ symbol.name = package := by
  obtain ⟨root, -, hroot⟩ := List.exists_of_findSome?_eq_some h
  obtain ⟨⟨hkind, -⟩, hname⟩ := Option.ite_none_right_eq_some.mp hroot
  obtain ⟨words, nonempty, each, rfl⟩ := worded.words hkind hname
  exact regular.exists_package hkind hname
    ((mem_dottedPrefixes_intercalate nonempty each).mpr ⟨words, nonempty, List.prefix_rfl, rfl⟩)

/-- With no message or service around it, the scope of a node is its package. -/
theorem Regular.exists_of_unscoped (regular : tree.Regular buffer) (worded : tree.Worded buffer)
    (inside : tree.scopeParts buffer id ≠ []) (unscoped : tree.enclosingScopes id = []) :
    ∃ symbol ∈ tree.symbols buffer file, symbol.kind.contains = true ∧
      symbol.name = ".".intercalate (tree.scopeParts buffer id) := by
  rw [scopeParts, unscoped, List.reverse_nil, List.filterMap_nil, List.append_nil] at inside ⊢
  rcases hpackage : tree.packageBefore? buffer id with _ | package
  · rw [hpackage] at inside
    exact absurd rfl inside
  · rw [Option.toList_some, String.intercalate_singleton]
    exact regular.exists_of_packageBefore? worded hpackage

/-- The scope of a node is that of a message or service around it, or its package. -/
theorem Regular.exists_of_scopeParts (regular : tree.Regular buffer) (worded : tree.Worded buffer)
    (hid : id < tree.size) (inside : tree.scopeParts buffer id ≠ []) :
    ∃ symbol ∈ tree.symbols buffer file, symbol.kind.contains = true ∧
      symbol.name = ".".intercalate (tree.scopeParts buffer id) := by
  obtain ⟨forest, shows, hsize⟩ := regular.shown
  -- from a node to its parent, which is behind it, until there is a name or no scope is left
  induction hheight : tree.size - id using Nat.strong_induction_on generalizing id with
  | _ height ih =>
    rcases shows.root_or_child (Nat.zero_le id) (by omega) with hroot | ⟨parent, -, hchild⟩
    · exact regular.exists_of_unscoped worded inside (enclosingScopes_root shows hsize hroot)
    · obtain ⟨hparent, -, habove⟩ := (shows.encloses_child hsize hchild).mpr (.inl rfl)
      by_cases hpackage : tree.kind? parent = some (.declaration .package)
      · refine regular.exists_of_unscoped worded inside ?_
        have hroot := regular.tidy.roots hpackage
        rw [shows.roots_eq hsize, List.mem_reverse] at hroot
        rw [enclosingScopes_child shows hsize hchild, hpackage,
          enclosingScopes_root shows hsize hroot]
        rfl
      · rw [regular.scopeParts_child hchild hpackage] at inside ⊢
        rcases hname : tree.scopeName? buffer parent with _ | name
        · rw [hname, Option.toList_none, List.append_nil] at inside
          rw [Option.toList_none, List.append_nil]
          exact ih _ (by omega) hparent inside rfl
        · exact regular.exists_scope hname

/-- Every symbol of a tree is directly inside of one of them, if its name has a dot. -/
theorem Regular.contained (regular : tree.Regular buffer) (worded : tree.Worded buffer) :
    Contained (tree.symbols buffer file) := by
  intro symbol hsymbol dotted
  obtain ⟨forest, shows, hsize⟩ := regular.shown
  obtain ⟨id, name, hid, hname, -, ⟨hkind, -, among⟩ | ⟨hkind, hfull⟩⟩ :=
    regular.cases_of_mem_symbols hsymbol
  · obtain ⟨words, nonempty, each, rfl⟩ := worded.words hkind hname
    obtain ⟨taken, some, front, htaken⟩ := (mem_dottedPrefixes_intercalate nonempty each).mp among
    rcases List.eq_nil_or_concat' taken with rfl | ⟨before, last, rfl⟩
    · exact absurd rfl some
    have plain := dot_notMem_of_isWord (each last (front.subset (by simp)))
    refine symbol.exists_isInside htaken.symm plain dotted fun inside => ?_
    exact regular.exists_package hkind hname
      ((mem_dottedPrefixes_intercalate nonempty each).mpr
        ⟨before, inside, (List.prefix_append before [last]).trans front, rfl⟩)
  · have hlt := List.mem_range.mp ((shows.perm_walkOrder hsize).mem_iff.mp hid)
    have plain := dot_notMem_of_isWord (worded.word hkind hname)
    exact symbol.exists_isInside hfull plain dotted (regular.exists_of_scopeParts worded hlt)

end ParseTree

/-! ## The symbols of a bundle -/

namespace TokenBuffer

variable {source : String} {syncLimit id : Nat} {node : Node}

/-- A name in the tree of a source is made of words, if it bears no mark or is a leaf. -/
theorem exists_words_of_name
    (hnode : ((tokenize source false).parseTokens .file syncLimit).tree.node? id = some node)
    (hkind : node.kind? = some .name)
    (sound : node.failed = false ∨ node.token? ≠ none ∧ node.isLeaf = true) :
    ∃ words, words ≠ [] ∧ words.length ≤ node.size ∧ (∀ word ∈ words, isWord word.toList = true) ∧
      ((tokenize source false).parseTokens .file syncLimit).tree.subtreeText
        (tokenize source false) id = ".".intercalate words := by
  obtain ⟨-, dot, named, hdot, nonempty, ⟨among, words⟩, htext⟩ :=
    spelled_node hnode sound hkind rfl
  obtain rfl : dot = "" := hdot.resolve_right fun ⟨_, other⟩ => other rfl
  refine ⟨named.map (tokenize source false).text, List.map_eq_nil_iff.not.mpr nonempty, ?_, ?_, ?_⟩
  · have below := ParseTree.length_tokensIn_le
      ((tokenize source false).parseTokens .file syncLimit).tree id
    rw [ParseTree.sizeAt, hnode] at below
    rw [List.length_map]
    exact among.length_le.trans below
  · exact List.forall_mem_map.mpr fun token htoken => isWord_text (words token htoken)
  · rw [htext, String.empty_append]

/-- In the tree of a source whose package statements bear no marks, names are made of words. -/
theorem worded_tokenize (source : String) (syncLimit : Nat)
    (unmarked : ∀ node ∈ ((tokenize source false).parseTokens .file syncLimit).tree.nodes,
      node.kind? = some (.declaration .package) → node.failed = false) :
    ((tokenize source false).parseTokens .file syncLimit).tree.Worded (tokenize source false) := by
  have regular := regular_tokenize source false syncLimit
  have outward := ((tokenize source false).marked_parseTokens .file syncLimit).1
  obtain ⟨forest, shows, hsize⟩ := regular.shown
  refine ⟨fun {id name} inner hname => ?_, fun {id name} hkind hname => ?_⟩
  · obtain ⟨child, hfound, rfl⟩ := Option.map_eq_some_iff.mp hname
    obtain ⟨hchild, hkind⟩ := ParseTree.kind_of_findChild? hfound
    obtain ⟨node, hnode, htag⟩ := Option.bind_eq_some_iff.mp hkind
    have lone : node.size = 1 := by
      have hsize := regular.tidy.lone hchild hkind inner
      rwa [ParseTree.sizeAt, hnode] at hsize
    have real : node.token? ≠ none := by
      obtain ⟨token, htoken⟩ := regular.tidy.named hkind
      rw [hnode, Option.bind_some] at htoken
      exact Option.ne_none_iff_exists'.mpr ⟨token, htoken⟩
    obtain ⟨words, nonempty, short, each, htext⟩ :=
      exists_words_of_name hnode htag (.inr ⟨real, beq_iff_eq.mpr lone⟩)
    obtain ⟨word, rfl⟩ := List.length_eq_one_iff.mp
      (Nat.le_antisymm (lone ▸ short) (List.length_pos_iff.mpr nonempty))
    rw [htext, String.intercalate_singleton]
    exact each word List.mem_cons_self
  · obtain ⟨child, hfound, rfl⟩ := Option.map_eq_some_iff.mp hname
    obtain ⟨hchild, hnamed⟩ := ParseTree.kind_of_findChild? hfound
    obtain ⟨node, hnode, htag⟩ := Option.bind_eq_some_iff.mp hnamed
    -- marks travel outwards, so a marked name would be in a marked statement
    have sound : node.failed = false := by
      obtain ⟨statement, hstatement, hpackage⟩ := Option.bind_eq_some_iff.mp hkind
      have clean := unmarked statement (Array.mem_of_getElem? hstatement) hpackage
      by_contra failed
      have marked := outward id child ((shows.encloses_child hsize hchild).mpr (.inl rfl))
        (by rw [ParseTree.isFailed, hnode]; simpa using failed)
      rw [ParseTree.isFailed, hstatement] at marked
      exact Bool.noConfusion (clean.symm.trans marked)
    obtain ⟨words, nonempty, -, each, htext⟩ := exists_words_of_name hnode htag (.inl sound)
    exact ⟨words, nonempty, each, htext⟩

end TokenBuffer

namespace Bundle

variable {bundle : Bundle} {log : List LogEvent} {search : ImportSearch} {store : FileStore}
variable {syncLimit : Nat} {entry : Path} {symbol : Symbol} {outer inner : String}

/-- What is found under a name are the symbols of that name. -/
theorem mem_lookup_symbolTable : symbol ∈ bundle.symbolTable.lookup outer ↔
    symbol ∈ bundle.symbolTable.symbols ∧ symbol.name = outer := by
  obtain ⟨table, htable, hsymbols⟩ := bundle.exists_symbolTable
  rw [← Array.mem_toList_iff, bundle.perm_symbolTable.mem_iff, htable, table.lookup_sorted,
    hsymbols, List.mem_filter, beq_iff_eq]

/-- Names are closed under containers. In a bundle whose package statements bear no marks, whatever
else is broken in it, every part of the name of a symbol that ends in front of a dot is the name of
a package, message or service that the same file declares. So the first part of a name with dots
can be looked up wherever the whole name can. -/
theorem containers_load (h : load search store syncLimit entry = .ok (bundle, log))
    (unmarked : ∀ file ∈ bundle.files, ∀ node ∈ file.parsed.tree.nodes,
      node.kind? = some (.declaration .package) → node.failed = false)
    (hsymbol : symbol ∈ bundle.symbolTable.symbols) (hname : symbol.name = outer ++ "." ++ inner) :
    ∃ container ∈ bundle.symbolTable.symbols,
      container.file = symbol.file ∧ container.name = outer ∧
      (container.kind = .package ∨ container.kind = .message ∨ container.kind = .service) ∧
      container.kind.isAggregate = true ∧ container ∈ bundle.symbolTable.lookup outer := by
  have loaded := loaded_of_load h
  obtain ⟨file, hfile, hdeclared⟩ := mem_symbolTable.mp hsymbol
  have hmem := Array.mem_of_getElem? hfile
  have worded : file.parsed.tree.Worded file.buffer := by
    obtain ⟨source, limit, hbuffer, hparsed⟩ := loaded.parsed file hmem
    have clean := unmarked file hmem
    rw [hparsed, hbuffer] at clean ⊢
    exact TokenBuffer.worded_tokenize source limit clean
  obtain ⟨container, hcontainer, contains, houter⟩ :=
    ((loaded.regular hmem).contained worded).exists_container hdeclared hname
  have hsame := ParseTree.file_of_mem_symbols hcontainer
  have listed : container ∈ bundle.symbolTable.symbols :=
    mem_symbolTable.mpr ⟨file, by rwa [hsame], by rwa [hsame]⟩
  exact ⟨container, listed, hsame, houter, SymbolKind.contains_iff.mp contains,
    SymbolKind.isAggregate_of_contains contains, mem_lookup_symbolTable.mpr ⟨listed, houter⟩⟩

/-- A file with scopes in scopes and a field without a name. -/
def scopesSource : String :=
  "package a.b; message M \x7b message N \x7b enum E \x7b Z = 0; \x7d \x7d int32 = 1; \x7d"

/-- A store with that file alone. -/
def scopesStore : FileStore :=
  (MemoryStore.mk [(⟨"/main.proto"⟩, scopesSource)]).toFileStore ⟨[], [], []⟩

theorem load_scopesStore : ∃ bundle log,
    load ⟨[]⟩ scopesStore 10 ⟨"/main.proto"⟩ = .ok (bundle, log) ∧
      bundle.files = #[.ofSource ⟨[]⟩ scopesStore 10 ⟨"/main.proto"⟩ scopesSource] := by
  have hmain : scopesStore.loadSource ⟨"/main.proto"⟩ = .ok (⟨"/main.proto"⟩, scopesSource) := rfl
  have alone : (SourceFile.ofSource ⟨[]⟩ scopesStore 10 ⟨"/main.proto"⟩
      scopesSource).dependencies = [] := by decide +kernel
  rw [load, hmain]
  refine ⟨_, _, rfl, ?_⟩
  rw [Loading.fresh, alone, discover, loadQueue]
  rfl

theorem containers_load_scopesStore : ∃ bundle log symbol,
    load ⟨[]⟩ scopesStore 10 ⟨"/main.proto"⟩ = .ok (bundle, log) ∧
    (∀ file ∈ bundle.files, ∀ node ∈ file.parsed.tree.nodes,
      node.kind? = some (.declaration .package) → node.failed = false) ∧
    (∃ file ∈ bundle.files, file.parsed.diagnostics ≠ []) ∧
    symbol ∈ bundle.symbolTable.symbols ∧ symbol.name = "a.b.M" ++ "." ++ "N.Z" ∧
    ∃ container ∈ bundle.symbolTable.symbols,
      container.file = symbol.file ∧ container.name = "a.b.M" ∧
      (container.kind = .package ∨ container.kind = .message ∨ container.kind = .service) ∧
      container.kind.isAggregate = true ∧ container ∈ bundle.symbolTable.lookup "a.b.M" := by
  obtain ⟨bundle, log, hload, hfiles⟩ := load_scopesStore
  have unmarked : ∀ file ∈ bundle.files, ∀ node ∈ file.parsed.tree.nodes,
      node.kind? = some (.declaration .package) → node.failed = false := by
    rw [hfiles]
    decide +kernel
  have broken : ∃ file ∈ bundle.files, file.parsed.diagnostics ≠ [] := by
    rw [hfiles]
    exact ⟨_, Array.mem_singleton.mpr rfl, by decide +kernel⟩
  have declared : (⟨"a.b.M.N.Z", .enumValue, 0, 14⟩ : Symbol) ∈ bundle.symbolTable.symbols := by
    refine mem_symbolTable.mpr ⟨.ofSource ⟨[]⟩ scopesStore 10 ⟨"/main.proto"⟩ scopesSource, ?_, ?_⟩
    · rw [hfiles]
      rfl
    · decide +kernel
  have named : "a.b.M.N.Z" = "a.b.M" ++ "." ++ "N.Z" := by decide
  exact ⟨bundle, log, _, hload, unmarked, broken, declared, named,
    containers_load hload unmarked declared named⟩

end Bundle

end ProtoFront
