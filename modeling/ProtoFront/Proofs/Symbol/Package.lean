import ProtoFront.Import.Statement
import ProtoFront.Proofs.Composition.Trees
import ProtoFront.Proofs.Symbol.Collect

/-!
# The package of a file

The package of a file is read in three places: it is looked for among the roots
(`ParseTree.packageName?`), and the walks that collect symbols and resolve references set it when
they come to its statement. In a file without faults that has one package statement they all find
the same name. But the walks do so behind the statement only: what stands in front of it is declared
and looked up outside the package (`package_parse`).
-/

namespace ProtoFront

open ParseState

/-! ## Trees without marks -/

/-- A child that shows a kind has that kind. -/
theorem ParseTree.kind_of_item {tree : ParseTree} {buffer : TokenBuffer} {id : Nat}
    {kind : NodeKind} (h : tree.item buffer id = .node kind) : tree.kind? id = some kind := by
  rw [item] at h
  rcases hnode : tree.node? id with _ | node
  · rw [hnode] at h
    cases h
  · rw [hnode, Option.map_some, Option.getD_some, Node.item] at h
    rw [kind?, hnode, Option.bind_some]
    split at h
    case h_1 => cases h
    case h_2 hkind => rw [hkind, Item.node.inj h]
    case h_3 =>
      split at h
      · cases h
      · cases h

namespace TokenBuffer

variable {buffer : TokenBuffer} {fragment : Fragment} {syncLimit : Nat}

/-- Where nothing is reported nothing is marked. -/
theorem failed_of_diagnostics_nil {id : Nat} {node : Node}
    (clean : (buffer.parseTokens fragment syncLimit).diagnostics = [])
    (h : (buffer.parseTokens fragment syncLimit).tree.node? id = some node) :
    node.failed = false := by
  have marked := (buffer.marked_parseTokens fragment syncLimit).2
  by_contra failed
  refine marked (ParseTree.failsFrom_zero_iff.mpr ⟨node, ?_, by simpa using failed⟩) clean
  exact Array.mem_of_getElem? h

/-- A package statement in a file without faults has a name. -/
theorem exists_name_of_package {statement : Nat}
    (clean : (buffer.parseTokens fragment syncLimit).diagnostics = [])
    (hkind : (buffer.parseTokens fragment syncLimit).tree.kind? statement =
      some (.declaration .package)) :
    ∃ name, (buffer.parseTokens fragment syncLimit).tree.findChild? statement .name =
      some name := by
  obtain ⟨forest, shows, hsize, complete⟩ := buffer.exists_complete_forest fragment syncLimit
  obtain ⟨node, hnode, htag⟩ := Option.bind_eq_some_iff.mp hkind
  have hid := ParseTree.lt_size_of_kind hkind
  have unmarked := failed_of_diagnostics_nil clean hnode
  obtain ⟨label, children, contains, hlabel, below, hspan⟩ :=
    shows.exists_contains (Nat.zero_le statement) (by omega)
  obtain rfl := Option.some.inj (hnode.symm.trans hlabel)
  have made := complete.production contains unmarked htag
  -- the name is what stands between the word and the semicolon
  have named : Item.node .name ∈ children.items buffer := by
    rw [DeclarationKind.production, RegularExpression.matches'_mul, RegularExpression.matches'_mul,
      Language.mem_mul] at made
    obtain ⟨front, hfront, semicolon, -, hitems⟩ := made
    obtain ⟨word, -, name, hname, rfl⟩ := Language.mem_mul.mp hfront
    rw [← hitems, show name = [.node .name] from hname]
    simp
  rw [← below.items_eq] at named
  obtain ⟨child, hchild, hitem⟩ := List.mem_map.mp named
  have hchildren := below.children_eq (by rw [hspan]; exact hlabel)
  rw [hspan] at hchildren
  have among : child ∈ ((buffer.parseTokens fragment syncLimit).tree.children statement).filter
      fun child => (buffer.parseTokens fragment syncLimit).tree.kind? child == some .name := by
    rw [List.mem_filter, hchildren, List.mem_reverse]
    exact ⟨hchild, beq_iff_eq.mpr (ParseTree.kind_of_item hitem)⟩
  exact Option.isSome_iff_exists.mp (List.getLast?_isSome.mpr (List.ne_nil_of_mem among))

end TokenBuffer

/-! ## Trees with one package statement -/

/-- Whether a scope is a package or something in it. -/
def InPackage (package scope : String) : Prop :=
  scope = package ∨ ∃ rest, scope = package ++ "." ++ rest

theorem inPackage_intercalate (package : String) (parts : List String) :
    InPackage package (".".intercalate (package :: parts)) := by
  cases parts with
  | nil => exact .inl (String.intercalate_singleton)
  | cons first rest => exact .inr ⟨_, String.intercalate_cons_cons⟩

namespace ParseTree

variable {tree : ParseTree} {buffer : TokenBuffer} {id statement : Nat} {package : String}

/-- Behind the package statement its package is set. -/
theorem packageBefore?_behind
    (only : ∀ id, tree.kind? id = some (.declaration .package) ↔ id = statement)
    (root : statement ∈ tree.roots) (begins : tree.firstOf statement ≤ statement)
    (named : tree.nameText? buffer statement = some package) (behind : statement < id) :
    tree.packageBefore? buffer id = some package := by
  rcases hfound : tree.packageBefore? buffer id with _ | found
  · have unset := List.findSome?_eq_none_iff.mp hfound statement root
    rw [if_pos ⟨(only statement).mpr rfl, by omega, behind.ne⟩, named] at unset
    cases unset
  · obtain ⟨other, -, hother⟩ := List.exists_of_findSome?_eq_some hfound
    obtain ⟨⟨hkind, -⟩, hname⟩ := Option.ite_none_right_eq_some.mp hother
    obtain rfl := (only other).mp hkind
    rw [← named, hname]

/-- In front of the package statement no package is set. -/
theorem packageBefore?_in_front
    (only : ∀ id, tree.kind? id = some (.declaration .package) ↔ id = statement)
    (front : id < tree.firstOf statement) : tree.packageBefore? buffer id = none := by
  refine List.findSome?_eq_none_iff.mpr fun other _ => if_neg ?_
  rintro ⟨hkind, hfirst, -⟩
  obtain rfl := (only other).mp hkind
  omega

/-- The package is looked for in the only package statement. -/
theorem packageName?_eq {node : Node}
    (only : ∀ id, tree.kind? id = some (.declaration .package) ↔ id = statement)
    (root : statement ∈ tree.roots) (hnode : tree.node? statement = some node)
    (unmarked : node.failed = false) (named : tree.nameText? buffer statement = some package) :
    tree.packageName? buffer = some package := by
  have hkind : node.kind? = some (.declaration .package) := by
    have hkind := (only statement).mpr rfl
    rwa [kind?, hnode, Option.bind_some] at hkind
  have among : statement ∈ tree.soundRoots .package := by
    rw [soundRoots, List.mem_filter, List.mem_reverse, hnode]
    refine ⟨root, Bool.and_eq_true_iff.mpr ⟨beq_iff_eq.mpr hkind, ?_⟩⟩
    rw [unmarked]
    rfl
  have alone {other : Nat} (hother : other ∈ tree.soundRoots .package) : other = statement := by
    have hsound := (List.mem_filter.mp hother).2
    split at hsound
    case h_1 found hfound =>
      rw [Bool.and_eq_true, beq_iff_eq] at hsound
      exact (only other).mp (Option.bind_eq_some_iff.mpr ⟨found, hfound, hsound.1⟩)
    case h_2 => cases hsound
  obtain ⟨name, hname, htext⟩ := Option.map_eq_some_iff.mp named
  rw [packageName?]
  cases hroots : tree.soundRoots .package with
  | nil =>
    rw [hroots] at among
    cases among
  | cons first rest =>
    obtain rfl : first = statement := alone (by rw [hroots]; exact List.mem_cons_self)
    rw [List.findSome?_cons, hname]
    exact congrArg some htext

/-! ## Names inside a package -/

theorem scopeParts_of_some (h : tree.packageBefore? buffer id = some package) :
    tree.scopeParts buffer id =
      package :: (tree.enclosingScopes id).reverse.filterMap (tree.scopeName? buffer) := by
  rw [scopeParts, h]
  rfl

/-- The full name of what is declared where a package is set begins with that package. -/
theorem fullName_of_some (h : tree.packageBefore? buffer id = some package) (name : String) :
    ∃ rest, tree.fullName buffer id name = package ++ "." ++ rest := by
  rw [fullName, scopeParts_of_some h]
  cases (tree.enclosingScopes id).reverse.filterMap (tree.scopeName? buffer) with
  | nil => exact ⟨_, String.intercalate_cons_cons⟩
  | cons first rest => exact ⟨_, String.intercalate_cons_cons⟩

/-- A symbol is declared at a node. At a package statement it is a package that the name there is
in, and at any other node it has the full name of the name there. -/
theorem Regular.cases_of_mem_symbols (regular : tree.Regular buffer) {file : Nat} {symbol : Symbol}
    (h : symbol ∈ tree.symbols buffer file) :
    ∃ id name, id ∈ tree.walkOrder ∧ tree.nameText? buffer id = some name ∧
      tree.nameToken? id = some symbol.token ∧
      ((tree.kind? id = some (.declaration .package) ∧ symbol.kind = .package ∧
          symbol.name ∈ dottedPrefixes name) ∨
        (tree.kind? id ≠ some (.declaration .package) ∧
          symbol.name = tree.fullName buffer id name)) := by
  rw [regular.symbols_eq] at h
  obtain ⟨id, hid, hsymbol⟩ := List.mem_flatMap.mp h
  rw [symbolsAt] at hsymbol
  split at hsymbol
  case h_1 kind hkind =>
    split at hsymbol
    case h_1 name token hname htoken =>
      refine ⟨id, name, hid, hname, ?_⟩
      by_cases hpackage : kind = .package
      · subst hpackage
        obtain ⟨package, among, rfl⟩ := List.mem_map.mp hsymbol
        exact ⟨htoken, .inl ⟨hkind, rfl, among⟩⟩
      · rw [declares_of_ne hpackage] at hsymbol
        obtain ⟨symbolKind, -, rfl⟩ := List.mem_map.mp hsymbol
        exact ⟨htoken, .inr ⟨by rw [hkind]; simpa using hpackage, rfl⟩⟩
    case h_2 => cases hsymbol
  case h_2 => cases hsymbol

/-- A symbol that is no package is declared at a node, under the full name of its own name. -/
theorem Regular.exists_of_mem_symbols (regular : tree.Regular buffer) {file : Nat} {symbol : Symbol}
    (h : symbol ∈ tree.symbols buffer file) (inner : symbol.kind ≠ .package) :
    ∃ id name, id ∈ tree.walkOrder ∧ tree.nameText? buffer id = some name ∧
      tree.nameToken? id = some symbol.token ∧ symbol.name = tree.fullName buffer id name := by
  obtain ⟨id, name, hid, hname, htoken, ⟨-, hpackage, -⟩ | ⟨-, hfull⟩⟩ :=
    regular.cases_of_mem_symbols h
  · exact absurd hpackage inner
  · exact ⟨id, name, hid, hname, htoken, hfull⟩

end ParseTree

/-- In a source without faults that has one package statement, the roots name the same package as
the walks that collect symbols and resolve references find. Behind the statement that package
is set: every symbol declared there has a name that begins with it, and every reference there is
looked up from a scope inside it. In front of the statement no package is set, so that names are
declared and looked up as in a file without a package. -/
theorem package_parse (source : String) (keepComments : Bool) (syncLimit file : Nat)
    {parsed : ParsedFile} {statement : Nat}
    (hparse : (tokenize source keepComments).parse .file syncLimit = .ok parsed)
    (clean : parsed.diagnostics = [])
    (only : ∀ id, parsed.tree.kind? id = some (.declaration .package) ↔ id = statement) :
    ∃ package, package ≠ "" ∧
      parsed.tree.packageName? (tokenize source keepComments) = some package ∧
      (∀ before event after, parsed.tree.events = before ++ event :: after →
        (statement < event.id →
          (before.foldl (parsed.tree.moveScope (tokenize source keepComments)) .empty).package =
            package ∧
          InPackage package
            (before.foldl (parsed.tree.moveScope (tokenize source keepComments)) .empty).current) ∧
        (event.id < parsed.tree.firstOf statement →
          (before.foldl (parsed.tree.moveScope (tokenize source keepComments)) .empty).package =
            "")) ∧
      ∀ symbol ∈ parsed.tree.symbols (tokenize source keepComments) file,
        symbol.kind ≠ .package → ∃ id name,
          parsed.tree.nameToken? id = some symbol.token ∧
          symbol.name = parsed.tree.fullName (tokenize source keepComments) id name ∧
          (statement < id → ∃ rest, symbol.name = package ++ "." ++ rest) ∧
          (id < parsed.tree.firstOf statement →
            symbol.name = ".".intercalate ((parsed.tree.enclosingScopes id).reverse.filterMap
              (parsed.tree.scopeName? (tokenize source keepComments)) ++ [name])) := by
  have hmade := TokenBuffer.parse_tokenize source keepComments syncLimit
  obtain rfl := Except.ok.inj (hmade.symm.trans hparse)
  have regular := TokenBuffer.regular_tokenize source keepComments syncLimit
  generalize tokenize source keepComments = buffer at *
  have hkind := (only statement).mpr rfl
  obtain ⟨name, hname⟩ := TokenBuffer.exists_name_of_package clean hkind
  obtain ⟨node, hnode, -⟩ := Option.bind_eq_some_iff.mp hkind
  have unmarked := TokenBuffer.failed_of_diagnostics_nil clean hnode
  generalize (buffer.parseTokens .file syncLimit).tree = tree at *
  obtain ⟨package, named⟩ : ∃ package, tree.nameText? buffer statement = some package :=
    ⟨_, by rw [ParseTree.nameText?, hname, Option.map_some]⟩
  have root := regular.tidy.roots hkind
  obtain ⟨forest, shows, hsize⟩ := regular.shown
  have hid := ParseTree.lt_size_of_kind hkind
  have begins := (shows.le_firstOf (Nat.zero_le statement) (by omega)).2
  have behind {id : Nat} (hid : statement < id) : tree.packageBefore? buffer id = some package :=
    ParseTree.packageBefore?_behind only root begins named hid
  refine ⟨package, regular.nameText_ne_empty named,
    ParseTree.packageName?_eq only root hnode unmarked named, ?_, ?_⟩
  · intro before event after hevents
    rw [ParseTree.scopes_eq regular.tidy shows hsize regular.follows hevents]
    refine ⟨fun hid => ⟨?_, ?_⟩, fun hid => ?_⟩
    · rw [ParseTree.scopeAt, behind hid, Option.getD_some]
    · rw [regular.current_scopeAt, ParseTree.scopeParts_of_some (behind hid)]
      exact inPackage_intercalate package _
    · rw [ParseTree.scopeAt, ParseTree.packageBefore?_in_front only hid, Option.getD_none]
  · intro symbol hsymbol inner
    obtain ⟨id, name, -, -, htoken, hfull⟩ := regular.exists_of_mem_symbols hsymbol inner
    refine ⟨id, name, htoken, hfull, fun hid => ?_, fun hid => ?_⟩
    · rw [hfull]
      exact ParseTree.fullName_of_some (behind hid) name
    · rw [hfull, ParseTree.fullName, ParseTree.scopeParts,
        ParseTree.packageBefore?_in_front only hid]
      rfl

/-- A package statement between two messages. -/
def splitPackage : String :=
  "message M \x7b M m = 1; \x7d package a; message N \x7b N n = 2; \x7d"

/-- The parse of `splitPackage`, in which node 14 is the package statement. -/
def splitPackageParse : ParsedFile :=
  ⟨⟨#[⟨some 0, 1, false, none⟩, ⟨some 1, 1, false, some .name⟩, ⟨some 2, 1, false, none⟩,
    ⟨some 3, 1, false, some (.reference .fieldType)⟩, ⟨some 4, 1, false, some .name⟩,
    ⟨some 5, 1, false, none⟩, ⟨some 6, 1, false, none⟩, ⟨some 7, 1, false, none⟩,
    ⟨some 3, 6, false, some (.declaration .field)⟩, ⟨some 8, 1, false, some .scopeClose⟩,
    ⟨some 0, 11, false, some (.scope .message)⟩, ⟨some 9, 1, false, none⟩,
    ⟨some 10, 1, false, some .name⟩, ⟨some 11, 1, false, none⟩,
    ⟨some 9, 4, false, some (.declaration .package)⟩, ⟨some 12, 1, false, none⟩,
    ⟨some 13, 1, false, some .name⟩, ⟨some 14, 1, false, none⟩,
    ⟨some 15, 1, false, some (.reference .fieldType)⟩, ⟨some 16, 1, false, some .name⟩,
    ⟨some 17, 1, false, none⟩, ⟨some 18, 1, false, none⟩, ⟨some 19, 1, false, none⟩,
    ⟨some 15, 6, false, some (.declaration .field)⟩, ⟨some 20, 1, false, some .scopeClose⟩,
    ⟨some 12, 11, false, some (.scope .message)⟩]⟩, [], []⟩

theorem parse_splitPackage :
    (tokenize splitPackage false).parse .file 10 = .ok splitPackageParse := by
  have made : (tokenize splitPackage false).parseTokens .file 10 = splitPackageParse := by
    decide +kernel
  rw [TokenBuffer.parse_tokenize, made]

theorem only_splitPackage (id : Nat) :
    splitPackageParse.tree.kind? id = some (.declaration .package) ↔ id = 14 := by
  have among : ∀ id < 26, splitPackageParse.tree.kind? id = some (.declaration .package) →
      id = 14 := by decide
  constructor
  · intro hkind
    exact among id (ParseTree.lt_size_of_kind hkind) hkind
  · rintro rfl
    rfl

theorem package_parse_splitPackage :
    (tokenize splitPackage false).parse .file 10 = .ok splitPackageParse ∧
      splitPackageParse.diagnostics = [] ∧
      (∀ id, splitPackageParse.tree.kind? id = some (.declaration .package) ↔ id = 14) ∧
      ∃ package, package ≠ "" ∧
        splitPackageParse.tree.packageName? (tokenize splitPackage false) = some package ∧
        (∀ before event after, splitPackageParse.tree.events = before ++ event :: after →
          14 < event.id → InPackage package (before.foldl
            (splitPackageParse.tree.moveScope (tokenize splitPackage false)) .empty).current) ∧
        ∀ symbol ∈ splitPackageParse.tree.symbols (tokenize splitPackage false) 0,
          symbol.kind ≠ .package → ∃ id name,
            splitPackageParse.tree.nameToken? id = some symbol.token ∧
            symbol.name = splitPackageParse.tree.fullName (tokenize splitPackage false) id name ∧
            (14 < id → ∃ rest, symbol.name = package ++ "." ++ rest) := by
  obtain ⟨package, nonempty, found, scopes, symbols⟩ :=
    package_parse splitPackage false 10 0 parse_splitPackage rfl only_splitPackage
  refine ⟨parse_splitPackage, rfl, only_splitPackage, package, nonempty, found, ?_, ?_⟩
  · intro before event after hevents hid
    exact ((scopes before event after hevents).1 hid).2
  · intro symbol hsymbol inner
    obtain ⟨id, name, htoken, hname, hbehind, -⟩ := symbols symbol hsymbol inner
    exact ⟨id, name, htoken, hname, hbehind⟩

/-- The message in front of the package statement is declared outside the package, and the type of
its field is looked up outside it. -/
theorem outside_package_splitPackage :
    (tokenize splitPackage false).parse .file 10 = .ok splitPackageParse ∧
      splitPackageParse.diagnostics = [] ∧
      (∀ id, splitPackageParse.tree.kind? id = some (.declaration .package) ↔ id = 14) ∧
      splitPackageParse.tree.packageName? (tokenize splitPackage false) = some "a" ∧
      ⟨"M", .message, 0, 1⟩ ∈ splitPackageParse.tree.symbols (tokenize splitPackage false) 0 ∧
      (¬∃ rest, "M" = "a" ++ "." ++ rest) ∧
      ∃ before after,
        splitPackageParse.tree.events = before ++ .reference 3 .fieldType :: after ∧
        (before.foldl (splitPackageParse.tree.moveScope (tokenize splitPackage false))
          .empty).current = "M" ∧ ¬InPackage "a" "M" := by
  have other : ¬∃ rest, "M" = "a" ++ "." ++ rest := by
    rintro ⟨rest, hrest⟩
    have hchars := congrArg String.toList hrest
    simp at hchars
  refine ⟨parse_splitPackage, rfl, only_splitPackage, ?_, ?_, other,
    [.declaration 10 (.scope .message), .declaration 8 .field],
    [.scopeClose 9, .declaration 14 .package, .declaration 25 (.scope .message),
      .declaration 23 .field, .reference 18 .fieldType, .scopeClose 24], ?_, ?_, ?_⟩
  · decide +kernel
  · decide +kernel
  · decide +kernel
  · decide +kernel
  · rintro (hsame | hinner)
    · exact absurd hsame (by decide)
    · exact other hinner

end ProtoFront
