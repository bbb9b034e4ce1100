import ProtoFront.Proofs.Symbol.Texts

/-!
# The names of symbols

Which symbols a node of a tree declares can be said without a walk (`ParseTree.symbolsAt`): the full
name of a declaration has the package in front of it, the names of the messages and services around
it, and its own name as its parts. Collecting the symbols of a file with a stack of scopes finds
these symbols and no others, in the order of the tree (`symbols_parse`).
-/

namespace ProtoFront

namespace ParseTree

section
variable (tree : ParseTree) (buffer : TokenBuffer) (file : Nat)

/-- What a declaration adds to the names of the declarations inside it: messages and services add
their own names, all others nothing. -/
def scopeName? (id : Nat) : Option String :=
  match tree.kind? id with
  | some (.scope .message) | some (.scope .service) => tree.nameText? buffer id
  | _ => none

/-- The parts of the name of the scope that a node is in, outermost first. -/
def scopeParts (id : Nat) : List String :=
  (tree.packageBefore? buffer id).toList ++
    (tree.enclosingScopes id).reverse.filterMap (tree.scopeName? buffer)

/-- The full name of what is declared at a node. -/
def fullName (id : Nat) (name : String) : String :=
  ".".intercalate (tree.scopeParts buffer id ++ [name])

/-- The symbols that a declaration makes of its name. A package statement declares the packages
that its name is in. Messages, enums, enum values, services, rpcs, fields and oneofs each declare
one symbol, all others nothing. -/
def declares (id : Nat) (kind : DeclarationKind) (name : String) (token : Nat) : List Symbol :=
  let one (symbolKind : SymbolKind) : List Symbol :=
    [⟨tree.fullName buffer id name, symbolKind, file, token⟩]
  match kind with
  | .package => (dottedPrefixes name).map fun package => ⟨package, .package, file, token⟩
  | .scope .message => one .message
  | .scope .enum => one .enum
  | .scope .service => one .service
  | .scope .oneof => one .oneof
  | .enumValue => one .enumValue
  | .rpc => one .rpc
  | .field | .mapField => one .field
  | .syntaxLevel | .edition | .importing | .option | .extend | .reserved | .extensions => []

/-- The symbols that a node declares: declarations that have a name do. -/
def symbolsAt (id : Nat) : List Symbol :=
  match tree.kind? id with
  | some (.declaration kind) =>
    match tree.nameText? buffer id, tree.nameToken? id with
    | some name, some token => tree.declares buffer file id kind name token
    | _, _ => []
  | _ => []

end

variable {tree : ParseTree} {buffer : TokenBuffer} {id : Nat} {file : Nat}

/-! ## The scope of a node -/

/-- A frame adds the name of a message or service. -/
theorem Tidy.part?_frameAt (tidy : tree.Tidy)
    (scope : (tree.kind? id).any NodeKind.opensScope = true) :
    ScopeStack.part? (tree.frameAt buffer id) = tree.scopeName? buffer id := by
  obtain ⟨kind, hkind, hopens⟩ := (Option.any_eq_true _ _).mp scope
  obtain ⟨scope, hscope⟩ := NodeKind.eq_scope_of_opensScope hopens
  rw [hscope] at hkind
  have inner : tree.kind? id ≠ some (.declaration .package) := by
    rw [hkind]
    rintro ⟨⟩
  rw [ScopeStack.part?, frameAt, scopeName?, hkind, declaredName?_eq,
    tidy.text_nameToken? buffer inner]
  cases scope <;> rfl

theorem Regular.ne_empty_of_mem_scopeParts (regular : tree.Regular buffer) {part : String}
    (h : part ∈ tree.scopeParts buffer id) : part ≠ "" := by
  rcases List.mem_append.mp h with hpackage | hscope
  · obtain ⟨root, -, hroot⟩ := List.exists_of_findSome?_eq_some (Option.mem_toList.mp hpackage)
    exact regular.nameText_ne_empty (Option.ite_none_right_eq_some.mp hroot).2
  · obtain ⟨scope, -, hname⟩ := List.mem_filterMap.mp hscope
    rw [scopeName?] at hname
    split at hname
    · exact regular.nameText_ne_empty hname
    · exact regular.nameText_ne_empty hname
    · cases hname

/-- The scope of a node is called by its parts, with dots between them. -/
theorem Regular.current_scopeAt (regular : tree.Regular buffer) (id : Nat) :
    (tree.scopeAt buffer id).current = ".".intercalate (tree.scopeParts buffer id) := by
  have names : ((tree.enclosingScopes id).map (tree.frameAt buffer)).reverse.filterMap
      ScopeStack.part? = (tree.enclosingScopes id).reverse.filterMap (tree.scopeName? buffer) := by
    rw [← List.map_reverse, List.filterMap_map]
    refine List.filterMap_congr fun scope hscope => ?_
    have opens := (mem_enclosingScopes.mp (List.mem_reverse.mp hscope)).2
    exact regular.tidy.part?_frameAt opens
  rw [← foldl_qualify fun part hpart => regular.ne_empty_of_mem_scopeParts hpart,
    ScopeStack.current, scopeAt, names, scopeParts, List.foldl_append]
  rcases tree.packageBefore? buffer id with _ | package <;> rfl

theorem Regular.qualify_scopeAt (regular : tree.Regular buffer) (id : Nat) (name : String) :
    qualify (tree.scopeAt buffer id).current name = tree.fullName buffer id name := by
  rw [regular.current_scopeAt, fullName]
  exact qualify_intercalate (fun part hpart => regular.ne_empty_of_mem_scopeParts hpart) name

/-! ## Walks -/

/-- What is collected at events depends on the scope that the tree shows there. -/
theorem Regular.collect_events {α : Type} {collect : ScopeStack → List TreeEvent → List α}
    {found : ScopeStack → TreeEvent → List α} (regular : tree.Regular buffer)
    (nil : ∀ scopes, collect scopes [] = [])
    (cons : ∀ scopes event rest, collect scopes (event :: rest) =
      found scopes event ++ collect (tree.moveScope buffer scopes event) rest) :
    collect .empty tree.events =
      tree.events.flatMap fun event => found (tree.scopeAt buffer event.id) event := by
  obtain ⟨forest, shows, hsize⟩ := regular.shown
  have remaining (before after : List TreeEvent) (h : tree.events = before ++ after) :
      collect (before.foldl (tree.moveScope buffer) .empty) after =
        after.flatMap fun event => found (tree.scopeAt buffer event.id) event := by
    induction after generalizing before with
    | nil => rw [nil, List.flatMap_nil]
    | cons event rest ih =>
      have later := ih (before ++ [event]) (by rw [h, List.append_assoc]; rfl)
      rw [List.foldl_append, List.foldl_cons, List.foldl_nil] at later
      rw [cons, List.flatMap_cons, later, scopes_eq regular.tidy shows hsize regular.follows h]
  exact remaining [] tree.events rfl

/-- The same, node by node. -/
theorem Regular.collect_walk {α : Type} (regular : tree.Regular buffer)
    (collect : ScopeStack → List TreeEvent → List α) (found : ScopeStack → TreeEvent → List α)
    (nil : ∀ scopes, collect scopes [] = [])
    (cons : ∀ scopes event rest, collect scopes (event :: rest) =
      found scopes event ++ collect (tree.moveScope buffer scopes event) rest) :
    collect .empty tree.events = tree.walkOrder.flatMap fun id =>
      (tree.event? id).toList.flatMap (found (tree.scopeAt buffer id)) := by
  rw [regular.collect_events nil cons, events_eq]
  induction tree.walkOrder with
  | nil => rfl
  | cons id rest ih =>
    rw [List.filterMap_cons, List.flatMap_cons, ← ih]
    rcases hevent : tree.event? id with _ | event
    · rfl
    · obtain rfl := event?_id hevent
      simp

/-! ## Symbols -/

theorem declares_of_ne {kind : DeclarationKind} {name : String} {token : Nat}
    (inner : kind ≠ .package) : tree.declares buffer file id kind name token =
      (SymbolKind.ofDeclaration? kind).toList.map fun symbolKind =>
        ⟨tree.fullName buffer id name, symbolKind, file, token⟩ := by
  cases kind with
  | package => exact absurd rfl inner
  | scope kind => cases kind <;> rfl
  | _ => rfl

/-- A declaration other than a package makes a symbol of its name inside its scope. -/
theorem Regular.symbolAt?_scopeAt (regular : tree.Regular buffer) {kind : DeclarationKind}
    {token : Nat} {name : String} (inner : kind ≠ .package)
    (hkind : tree.kind? id = some (.declaration kind)) (htoken : tree.nameToken? id = some token)
    (hname : tree.nameText? buffer id = some name) :
    (tree.symbolAt? buffer file (tree.scopeAt buffer id) id kind).toList =
      tree.declares buffer file id kind name token := by
  have htext := regular.tidy.text_nameToken? buffer (by rw [hkind]; simpa using inner)
  rw [htoken, hname, Option.map_some, Option.some.injEq] at htext
  rw [declares_of_ne inner, symbolAt?, htoken, ← htext, ← regular.qualify_scopeAt]
  rcases SymbolKind.ofDeclaration? kind with _ | symbolKind <;> rfl

/-- A package statement makes symbols of the packages that its name is in. -/
theorem symbolsOf_package {name token : Nat} (scopes : ScopeStack)
    (hname : tree.findChild? id .name = some name) (htoken : tree.tokenAt? name = some token) :
    tree.symbolsOf buffer file scopes (.declaration id .package) =
      tree.declares buffer file id .package (tree.subtreeText buffer name) token := by
  have hpackage : tree.packageAt? buffer id = some (tree.subtreeText buffer name, token) := by
    rw [packageAt?, hname, Option.bind_eq_bind, Option.bind_some, ← tokenAt?, htoken]
    rfl
  rw [symbolsOf, hpackage, declares, ← packagePrefixes_eq]

theorem symbolsOf_of_ne {kind : DeclarationKind} (scopes : ScopeStack) (inner : kind ≠ .package) :
    tree.symbolsOf buffer file scopes (.declaration id kind) =
      (tree.symbolAt? buffer file scopes id kind).toList := by
  cases kind with
  | package => exact absurd rfl inner
  | _ => rfl

/-- A declaration without a name makes no symbols. -/
theorem symbolsOf_unnamed {kind : DeclarationKind} (scopes : ScopeStack)
    (unnamed : tree.findChild? id .name = none) :
    tree.symbolsOf buffer file scopes (.declaration id kind) = [] := by
  by_cases hpackage : kind = .package
  · subst hpackage
    rw [symbolsOf, packageAt?, unnamed]
    rfl
  · have htoken : tree.nameToken? id = none := by
      rw [nameToken?, unnamed]
      rfl
    rw [symbolsOf_of_ne scopes hpackage, symbolAt?, htoken]
    rcases SymbolKind.ofDeclaration? kind with _ | symbolKind <;> rfl

/-- A walk finds at a node what the node declares. -/
theorem Regular.symbolsOf_scopeAt (regular : tree.Regular buffer) (file id : Nat) :
    (tree.event? id).toList.flatMap (tree.symbolsOf buffer file (tree.scopeAt buffer id)) =
      tree.symbolsAt buffer file id := by
  rcases hkind : tree.kind? id with _ | kind
  · rw [event?, symbolsAt, hkind]
    rfl
  cases kind with
  | declaration kind =>
    have hevent : tree.event? id = some (.declaration id kind) := by rw [event?, hkind]
    rw [hevent, Option.toList_some, List.flatMap_singleton, symbolsAt, hkind]
    rcases hname : tree.findChild? id .name with _ | name
    · rw [symbolsOf_unnamed _ hname, nameText?, hname]
      rfl
    · obtain ⟨token, htoken, hstands, htext⟩ := regular.tidy.exists_nameToken? buffer hname
      rw [htext, htoken]
      by_cases hpackage : kind = .package
      · subst hpackage
        exact symbolsOf_package _ hname hstands
      · rw [symbolsOf_of_ne _ hpackage]
        exact regular.symbolAt?_scopeAt hpackage hkind htoken htext
  | _ =>
    rw [event?, symbolsAt, hkind]
    rfl

/-- A declaration other than a package declares what its kind makes of the token of its name. -/
theorem Regular.symbolsAt_eq (regular : tree.Regular buffer) {kind : DeclarationKind} {name : Nat}
    (inner : kind ≠ .package) (hkind : tree.kind? id = some (.declaration kind))
    (hname : tree.findChild? id .name = some name) : ∃ token, tree.tokenAt? name = some token ∧
      tree.symbolsAt buffer file id =
        tree.declares buffer file id kind (buffer.text token) token := by
  obtain ⟨token, htoken, hstands, htext⟩ := regular.tidy.exists_nameToken? buffer hname
  have spelled := regular.tidy.text_nameToken? buffer (by rw [hkind]; simpa using inner)
  rw [htoken, Option.map_some] at spelled
  exact ⟨token, hstands, by rw [symbolsAt, hkind, ← spelled, htoken]⟩

/-- A package statement declares the packages that its name is in, at its first token. -/
theorem Tidy.symbolsAt_package (tidy : tree.Tidy) {name : Nat}
    (hkind : tree.kind? id = some (.declaration .package))
    (hname : tree.findChild? id .name = some name) : ∃ token, tree.tokenAt? name = some token ∧
      tree.symbolsAt buffer file id =
        (dottedPrefixes (tree.subtreeText buffer name)).map fun package =>
          ⟨package, .package, file, token⟩ := by
  obtain ⟨token, htoken, hstands, htext⟩ := tidy.exists_nameToken? buffer hname
  refine ⟨token, hstands, ?_⟩
  rw [symbolsAt, hkind, htext, htoken]
  rfl

/-- What declares a symbol is a declaration of one of these kinds, and it has a name. -/
theorem kind_of_mem_symbolsAt {symbol : Symbol} (h : symbol ∈ tree.symbolsAt buffer file id) :
    (∃ kind ∈ [.package, .scope .message, .scope .enum, .enumValue, .scope .service, .rpc, .field,
      .mapField, .scope .oneof], tree.kind? id = some (.declaration kind)) ∧
      ∃ name, tree.findChild? id .name = some name := by
  rw [symbolsAt] at h
  split at h
  case h_2 => cases h
  case h_1 kind hkind =>
    split at h
    case h_2 => cases h
    case h_1 name token hname _ =>
      obtain ⟨child, hchild, -⟩ := Option.map_eq_some_iff.mp hname
      refine ⟨⟨kind, ?_, hkind⟩, child, hchild⟩
      cases kind with
      | scope kind => cases kind <;> simp
      | syntaxLevel | edition | importing | option | extend | reserved | extensions => cases h
      | _ => simp

/-- A walk collects what the nodes declare, in the order of the tree. -/
theorem Regular.symbols_eq (regular : tree.Regular buffer) (file : Nat) :
    tree.symbols buffer file = tree.walkOrder.flatMap (tree.symbolsAt buffer file) := by
  rw [symbols, regular.collect_walk (tree.symbolsFrom buffer file) (tree.symbolsOf buffer file)
    (fun _ => rfl) fun _ _ _ => rfl]
  exact List.flatMap_congr fun id _ => regular.symbolsOf_scopeAt file id

theorem file_of_mem_symbolsOf {scopes : ScopeStack} {event : TreeEvent} {symbol : Symbol}
    (h : symbol ∈ tree.symbolsOf buffer file scopes event) : symbol.file = file := by
  fun_cases symbolsOf tree buffer file scopes event
  case case1 id package token hpackage =>
    rw [symbolsOf, hpackage] at h
    obtain ⟨name, -, rfl⟩ := List.mem_map.mp h
    rfl
  case case2 id hpackage =>
    rw [symbolsOf, hpackage] at h
    cases h
  case case3 id kind inner =>
    rw [symbolsOf_of_ne scopes inner] at h
    obtain ⟨symbolKind, -, hname⟩ := Option.bind_eq_some_iff.mp (Option.mem_toList.mp h)
    obtain ⟨token, -, hsymbol⟩ := Option.bind_eq_some_iff.mp hname
    obtain rfl := Option.some.inj hsymbol
    rfl
  all_goals cases h

/-- Every symbol of a file is in that file. -/
theorem file_of_mem_symbols {symbol : Symbol} (h : symbol ∈ tree.symbols buffer file) :
    symbol.file = file := by
  have among {scopes : ScopeStack} {events : List TreeEvent}
      (hsymbol : symbol ∈ tree.symbolsFrom buffer file scopes events) : symbol.file = file := by
    fun_induction symbolsFrom tree buffer file scopes events
    case case1 => cases hsymbol
    case case2 ih =>
      rcases List.mem_append.mp hsymbol with hfirst | hlater
      · exact file_of_mem_symbolsOf hfirst
      · exact ih hlater
  exact among h

end ParseTree

/-- A source can be parsed, as it has at least the token of its end. -/
theorem TokenBuffer.parse_tokenize (source : String) (keepComments : Bool) (syncLimit : Nat) :
    (tokenize source keepComments).parse .file syncLimit =
      .ok ((tokenize source keepComments).parseTokens .file syncLimit) := by
  rw [parse, if_neg]
  simp [tokenize]

/-- The symbols of a source, also of a broken one, are what the nodes of its tree declare, in
preorder. A walk comes to every node once. A message, enum, enum value, service, rpc, field, map
field or oneof that has a name declares one symbol, whose full name has these parts: the name of
the last package statement in front of it, the names of the messages and services around it, the
outermost first, and its own name. A package statement, which is always a root, declares the
packages that its name is in. Nothing else declares a symbol, and nothing that has no name. -/
theorem symbols_parse (source : String) (keepComments : Bool) (syncLimit file : Nat) :
    ∃ parsed, (tokenize source keepComments).parse .file syncLimit = .ok parsed ∧
      parsed.tree.symbols (tokenize source keepComments) file =
        parsed.tree.walkOrder.flatMap
          (parsed.tree.symbolsAt (tokenize source keepComments) file) ∧
      parsed.tree.walkOrder.Perm (List.range parsed.tree.size) ∧
      (∀ id kind symbolKind name, parsed.tree.kind? id = some (.declaration kind) →
        (kind, symbolKind) ∈ [(.scope .message, .message), (.scope .enum, .enum),
          (.enumValue, .enumValue), (.scope .service, .service), (.rpc, .rpc), (.field, .field),
          (.mapField, .field), (.scope .oneof, SymbolKind.oneof)] →
        parsed.tree.findChild? id .name = some name →
        ∃ token, parsed.tree.tokenAt? name = some token ∧
          parsed.tree.symbolsAt (tokenize source keepComments) file id =
            [⟨parsed.tree.fullName (tokenize source keepComments) id
              ((tokenize source keepComments).text token), symbolKind, file, token⟩]) ∧
      (∀ id name, parsed.tree.kind? id = some (.declaration .package) →
        parsed.tree.findChild? id .name = some name →
        ∃ token, parsed.tree.tokenAt? name = some token ∧
          parsed.tree.symbolsAt (tokenize source keepComments) file id =
            (dottedPrefixes (parsed.tree.subtreeText (tokenize source keepComments) name)).map
              fun package => ⟨package, .package, file, token⟩) ∧
      (∀ id, parsed.tree.kind? id = some (.declaration .package) → id ∈ parsed.tree.roots) ∧
      ∀ id, parsed.tree.symbolsAt (tokenize source keepComments) file id ≠ [] →
        (∃ kind ∈ [.package, .scope .message, .scope .enum, .enumValue, .scope .service, .rpc,
          .field, .mapField, .scope .oneof],
          parsed.tree.kind? id = some (.declaration kind)) ∧
        ∃ name, parsed.tree.findChild? id .name = some name := by
  have regular := TokenBuffer.regular_tokenize source keepComments syncLimit
  obtain ⟨forest, shows, hsize⟩ := regular.shown
  refine ⟨_, TokenBuffer.parse_tokenize source keepComments syncLimit, regular.symbols_eq file,
    shows.perm_walkOrder hsize, ?_, fun id name => regular.tidy.symbolsAt_package,
    fun id => regular.tidy.roots, ?_⟩
  · intro id kind symbolKind name hkind hpair hname
    have inner : kind ≠ .package := by
      rintro rfl
      revert hpair
      simp
    obtain ⟨token, htoken, hsymbols⟩ := regular.symbolsAt_eq inner hkind hname
    refine ⟨token, htoken, hsymbols.trans ?_⟩
    simp only [List.mem_cons, Prod.mk.injEq, List.not_mem_nil, or_false] at hpair
    rcases hpair with ⟨rfl, rfl⟩ | ⟨rfl, rfl⟩ | ⟨rfl, rfl⟩ | ⟨rfl, rfl⟩ | ⟨rfl, rfl⟩ |
      ⟨rfl, rfl⟩ | ⟨rfl, rfl⟩ | ⟨rfl, rfl⟩ <;> rfl
  · intro id declared
    obtain ⟨symbol, hsymbol⟩ := List.exists_mem_of_ne_nil _ declared
    exact ParseTree.kind_of_mem_symbolsAt hsymbol

/-- A source with a declaration of every kind that declares symbols, an extension and a message
without a name, in two packages. -/
def declaringSource : String :=
  "package p.q; message M \x7b int32 a = 1; map<int32, M> b = 2; oneof c \x7b M d = 3; \x7d " ++
  "enum E \x7b F = 0; \x7d \x7d message \x7b M e = 1; \x7d ; extend M \x7b M f = 4; \x7d " ++
  "package r; service S \x7b rpc G (M) returns (M); \x7d"

/-- The nodes of the tree declare these symbols: the enum, the oneof and the extension add nothing
to the names of what they hold, and the message without a name declares nothing. -/
theorem symbols_parse_declaringSource :
    ∃ parsed, (tokenize declaringSource false).parse .file 10 = .ok parsed ∧
      parsed.tree.symbols (tokenize declaringSource false) 1 =
        parsed.tree.walkOrder.flatMap
          (parsed.tree.symbolsAt (tokenize declaringSource false) 1) ∧
      parsed.tree.symbols (tokenize declaringSource false) 1 =
        [⟨"p", .package, 1, 1⟩, ⟨"p.q", .package, 1, 1⟩, ⟨"p.q.M", .message, 1, 6⟩,
          ⟨"p.q.M.a", .field, 1, 9⟩, ⟨"p.q.M.b", .field, 1, 19⟩, ⟨"p.q.M.c", .oneof, 1, 24⟩,
          ⟨"p.q.M.d", .field, 1, 27⟩, ⟨"p.q.M.E", .enum, 1, 33⟩, ⟨"p.q.M.F", .enumValue, 1, 35⟩,
          ⟨"p.q.f", .field, 1, 54⟩, ⟨"r", .package, 1, 60⟩, ⟨"r.S", .service, 1, 63⟩,
          ⟨"r.S.G", .rpc, 1, 66⟩] := by
  obtain ⟨parsed, hparsed, symbols, -⟩ := symbols_parse declaringSource false 10 1
  refine ⟨parsed, hparsed, symbols, ?_⟩
  obtain rfl := Except.ok.inj ((TokenBuffer.parse_tokenize _ _ _).symm.trans hparsed)
  decide +kernel

end ProtoFront
