import Mathlib.Data.List.Forall2
import ProtoFront.Proofs.Bundle.Files

/-!
# What comes of references

Resolving walks through the files of a bundle, one after the other, with a stack of scopes. Which
nodes it looks up (`Bundle.sites`), and what may come of each (`Bundle.Answers`), can be said
without a walk. Every reference that is looked up has one outcome, at its place in the order of the
files and of their trees: it is resolved, or there is one report about it
(`Bundle.resolve_answers`).
-/

namespace ProtoFront

/-- Two lists correspond when the parts that they are put together from do. -/
theorem forall₂_flatMap {α β γ : Type} {R : β → γ → Prop} {first : α → List β}
    {second : α → List γ} {sources : List α}
    (h : ∀ source ∈ sources, List.Forall₂ R (first source) (second source)) :
    List.Forall₂ R (sources.flatMap first) (sources.flatMap second) := by
  induction sources with
  | nil => exact .nil
  | cons source rest ih =>
    have later := ih fun other hother => h other (List.mem_cons_of_mem _ hother)
    exact List.rel_append (h source List.mem_cons_self) later

/-- What is chosen by a test corresponds to what is computed, if that is there for what passes. -/
theorem forall₂_filter_filterMap {α β : Type} {R : α → β → Prop} {test : α → Bool}
    {compute : α → Option β} {sources : List α}
    (made : ∀ source ∈ sources, (compute source).isSome = test source)
    (related : ∀ source ∈ sources, ∀ result, compute source = some result → R source result) :
    List.Forall₂ R (sources.filter test) (sources.filterMap compute) := by
  induction sources with
  | nil => exact .nil
  | cons source rest ih =>
    have later := ih (fun other hother => made other (List.mem_cons_of_mem _ hother))
      fun other hother => related other (List.mem_cons_of_mem _ hother)
    have hmade := made source List.mem_cons_self
    rcases hresult : compute source with _ | result
    · rw [hresult] at hmade
      rw [List.filterMap_cons_none hresult, List.filter_cons, ← hmade]
      exact later
    · rw [hresult] at hmade
      rw [List.filterMap_cons_some hresult, List.filter_cons, ← hmade]
      exact .cons (related source List.mem_cons_self result hresult) later

/-! ## References that are looked up -/

/-- Whether a kind of symbol will do for a reference: a message always does, an enum does for the
type of a field or of the values of a map. -/
def ReferenceKind.Admits (kind : ReferenceKind) (found : SymbolKind) : Prop :=
  found = .message ∨ found = .enum ∧ (kind = .fieldType ∨ kind = .mapValueType)

/-- Whether a node is a reference that is looked up. It stands for a token and is not marked; it is
not the type of the keys of a map, and not the keyword of a built-in type alone. -/
def SourceFile.isSought (file : SourceFile) (id : Nat) : Bool :=
  match file.parsed.tree.node? id with
  | some ⟨some token, size, failed, some (.reference kind)⟩ =>
    kind != .mapKeyType && !failed && !(size == 1 && (file.buffer.kindAt token).isScalarType)
  | _ => false

/-- The problem of an outcome that is none of a resolved reference. -/
def problem? : Except Problem ResolvedReference → Option Problem
  | .error problem => some problem
  | .ok _ => none

namespace Bundle

section
variable (bundle : Bundle)

/-- The references that are looked up, by the numbers of their files and nodes: file by file, and
each file in preorder. -/
def sites : List (Nat × Nat) :=
  bundle.files.toList.zipIdx.flatMap fun entry =>
    (entry.1.parsed.tree.walkOrder.filter entry.1.isSought).map fun id => (entry.2, id)

/-- What the text of a node means in its scope, among what can be seen from its file. -/
def meaning? (number : Nat) (file : SourceFile) (id : Nat) : Option Symbol :=
  bundle.symbolTable.lookupType (bundle.visibleFiles number)
    (".".intercalate (file.parsed.tree.scopeParts file.buffer id))
    (file.parsed.tree.subtreeText file.buffer id)

/-- Whether a symbol can be meant in a file: it is in the table, as the declaration of a file that
can be seen. -/
structure Offers (number : Nat) (symbol : Symbol) : Prop where
  listed : symbol ∈ bundle.symbolTable.symbols
  declared : ∃ file, bundle.files[symbol.file]? = some file ∧
    symbol ∈ file.parsed.tree.symbols file.buffer symbol.file
  seen : bundle.Sees number symbol.file

/-- What may come of a reference: it is resolved to a symbol that will do, or else it is reported
that there is no such symbol, or that it will not do. -/
inductive Answers (number : Nat) (file : SourceFile) (id : Nat) (kind : ReferenceKind)
    (token : Nat) : Except Problem ResolvedReference → Prop
  | resolved {symbol : Symbol} (found : bundle.meaning? number file id = some symbol)
      (offered : bundle.Offers number symbol) (admitted : kind.Admits symbol.kind) :
      Answers number file id kind token (.ok ⟨file.path, token, kind,
        file.parsed.tree.subtreeText file.buffer id, symbol.name, symbol.kind⟩)
  | unresolved (missing : bundle.meaning? number file id = none) :
      Answers number file id kind token (.error
        (.unresolvedReference (file.parsed.tree.subtreeText file.buffer id) file.path token))
  | wrongKind {symbol : Symbol} {expected : Expected}
      (found : bundle.meaning? number file id = some symbol)
      (offered : bundle.Offers number symbol) (refused : ¬kind.Admits symbol.kind)
      (wanted : kind.expected? = some expected) :
      Answers number file id kind token (.error
        (.wrongSymbolKind (file.parsed.tree.subtreeText file.buffer id) symbol.name symbol.kind
          expected file.path token))

/-- Whether an outcome may be that of the reference at a site. -/
def AnswersAt (site : Nat × Nat) (outcome : Except Problem ResolvedReference) : Prop :=
  ∃ file kind token, bundle.files[site.1]? = some file ∧
    file.parsed.tree.kind? site.2 = some (.reference kind) ∧
    file.parsed.tree.tokenAt? site.2 = some token ∧
    bundle.Answers site.1 file site.2 kind token outcome

/-- The outcomes of all references. -/
def found : List (Except Problem ResolvedReference) :=
  bundle.files.toList.zipIdx.flatMap fun entry =>
    outcomes bundle.symbolTable (bundle.visibleFiles entry.2) entry.1

end

variable {bundle : Bundle} {log : List LogEvent} {file : SourceFile} {table : SymbolTable}
variable {visible : List Nat} {number id token : Nat} {kind : ReferenceKind} {expected : Expected}

/-! ## One reference -/

/-- What a report says is expected is what is admitted. -/
theorem accepts_iff (wanted : kind.expected? = some expected) (found : SymbolKind) :
    expected.accepts found = true ↔ kind.Admits found := by
  cases kind <;> cases wanted <;> cases found <;>
    simp [Expected.accepts, SymbolKind.isType, ReferenceKind.Admits]

/-- A reference has an entry if it is looked up. -/
theorem isSome_referenceAt? (hkind : file.parsed.tree.kind? id = some (.reference kind)) :
    (referenceAt? file id kind).isSome = file.isSought id := by
  obtain ⟨⟨token?, size, failed, tag?⟩, hnode, rfl⟩ := Option.bind_eq_some_iff.mp hkind
  rw [referenceAt?, SourceFile.isSought, hnode]
  rcases token? with _ | token
  · cases kind <;> rfl
  · simp only [Option.bind_eq_bind, Option.bind_some, Node.isLeaf]
    rcases Bool.eq_false_or_eq_true (size == 1 && (file.buffer.kindAt token).isScalarType) with
      hscalar | hscalar
    · simp only [hscalar]
      cases failed <;> cases kind <;> rfl
    · simp only [hscalar]
      cases failed <;> cases kind <;> rfl

/-- What the entry of a reference says. -/
theorem of_referenceAt? {name : String}
    (h : referenceAt? file id kind = some (token, name, expected)) :
    kind.expected? = some expected ∧ file.parsed.tree.tokenAt? id = some token ∧
      file.parsed.tree.subtreeText file.buffer id = name := by
  obtain ⟨wanted, hwanted, h⟩ := Option.bind_eq_some_iff.mp h
  obtain ⟨node, hnode, h⟩ := Option.bind_eq_some_iff.mp h
  obtain ⟨stands, hstands, h⟩ := Option.bind_eq_some_iff.mp h
  obtain ⟨-, -, h⟩ := Option.bind_eq_some_iff.mp h
  obtain ⟨-, -, h⟩ := Option.bind_eq_some_iff.mp h
  cases h
  exact ⟨hwanted, Option.bind_eq_some_iff.mpr ⟨node, hnode, hstands⟩, rfl⟩

/-- What comes of an event inside a scope. -/
def outcomeOf? (table : SymbolTable) (visible : List Nat) (file : SourceFile)
    (scopes : ScopeStack) : TreeEvent → Option (Except Problem ResolvedReference)
  | .reference id kind => resolveReference table visible file scopes id kind
  | _ => none

/-- What comes of a node in the scope that it is in. -/
def outcomeAt? (table : SymbolTable) (visible : List Nat) (file : SourceFile) (id : Nat) :
    Option (Except Problem ResolvedReference) :=
  (file.parsed.tree.event? id).bind
    (outcomeOf? table visible file (file.parsed.tree.scopeAt file.buffer id))

/-- Only references have outcomes. -/
theorem outcomeAt?_of_ne (h : ∀ kind, file.parsed.tree.kind? id ≠ some (.reference kind)) :
    outcomeAt? table visible file id = none := by
  rw [outcomeAt?, ParseTree.event?]
  split <;> first | rfl | exact absurd ‹_› (h _)

theorem outcomeAt?_of_reference (h : file.parsed.tree.kind? id = some (.reference kind)) :
    outcomeAt? table visible file id =
      resolveReference table visible file (file.parsed.tree.scopeAt file.buffer id) id kind := by
  rw [outcomeAt?, ParseTree.event?, h]
  rfl

/-- There is an outcome at a node if the node is looked up. -/
theorem isSome_outcomeAt? : (outcomeAt? table visible file id).isSome = file.isSought id := by
  by_cases hkind : ∃ kind, file.parsed.tree.kind? id = some (.reference kind)
  · obtain ⟨kind, hkind⟩ := hkind
    rw [outcomeAt?_of_reference hkind, ← isSome_referenceAt? hkind, resolveReference]
    rcases referenceAt? file id kind with _ | ⟨token, name, expected⟩
    · rfl
    · simp only [Option.bind_eq_bind, Option.bind_some]
      split
      · rfl
      · split <;> rfl
  · have other := not_exists.mp hkind
    rw [outcomeAt?_of_ne other, SourceFile.isSought]
    split
    case h_1 kind hnode =>
      refine absurd ?_ (other kind)
      rw [ParseTree.kind?, hnode, Option.bind_some]
    case h_2 => rfl

/-- A walk finds the outcomes at the nodes that it comes to. -/
theorem outcomes_eq (regular : file.parsed.tree.Regular file.buffer) :
    outcomes table visible file =
      file.parsed.tree.walkOrder.filterMap (outcomeAt? table visible file) := by
  rw [outcomes, regular.collect_walk (outcomesFrom table visible file)
    (fun scopes event => (outcomeOf? table visible file scopes event).toList)
    (fun _ => rfl) fun _ _ _ => rfl, List.filterMap_eq_flatMap_toList]
  refine List.flatMap_congr fun id _ => ?_
  rw [outcomeAt?]
  rcases file.parsed.tree.event? id with _ | event
  · rfl
  · exact List.flatMap_singleton _ event

/-- What a reference means can be meant. -/
theorem offers_of_meaning? {symbol : Symbol} (hfile : bundle.files[number]? = some file)
    (h : bundle.meaning? number file id = some symbol) : bundle.Offers number symbol := by
  obtain ⟨listed, seen⟩ := SymbolTable.mem_of_lookupType h
  have inside := (Array.getElem?_eq_some_iff.mp hfile).1
  exact ⟨listed, mem_symbolTable.mp listed, (mem_visibleFiles inside).mp seen⟩

/-- What comes of a reference answers it. -/
theorem answers_of_outcomeAt? {outcome : Except Problem ResolvedReference}
    (regular : file.parsed.tree.Regular file.buffer) (hfile : bundle.files[number]? = some file)
    (h : outcomeAt? bundle.symbolTable (bundle.visibleFiles number) file id = some outcome) :
    bundle.AnswersAt (number, id) outcome := by
  by_cases hkind : ∃ kind, file.parsed.tree.kind? id = some (.reference kind)
  · obtain ⟨kind, hkind⟩ := hkind
    rw [outcomeAt?_of_reference hkind] at h
    obtain ⟨⟨token, name, expected⟩, hentry, h⟩ := Option.bind_eq_some_iff.mp h
    obtain ⟨wanted, htoken, rfl⟩ := of_referenceAt? hentry
    refine ⟨file, kind, token, hfile, hkind, htoken, ?_⟩
    simp only [regular.current_scopeAt] at h
    split at h
    case h_1 missing =>
      cases h
      exact .unresolved missing
    case h_2 symbol found =>
      have offered := offers_of_meaning? hfile found
      split at h
      case isTrue accepted =>
        cases h
        exact .resolved found offered ((accepts_iff wanted _).mp accepted)
      case isFalse refused =>
        cases h
        have unfit := fun admitted => refused ((accepts_iff wanted _).mpr admitted)
        exact .wrongKind found offered unfit wanted
  · rw [outcomeAt?_of_ne (not_exists.mp hkind)] at h
    cases h

/-! ## All references -/

/-- Every reference of a bundle that is looked up has one outcome, and it answers the reference. -/
theorem Loaded.answers (loaded : bundle.Loaded) :
    List.Forall₂ bundle.AnswersAt bundle.sites bundle.found := by
  refine forall₂_flatMap fun entry hentry => ?_
  obtain ⟨file, number⟩ := entry
  rw [List.mem_zipIdx_iff_getElem?, Array.getElem?_toList] at hentry
  have regular := loaded.regular (Array.mem_of_getElem? hentry)
  -- the walk keeps the scope that the tree shows, so each node can be answered by itself
  rw [outcomes_eq regular, List.forall₂_map_left_iff]
  refine forall₂_filter_filterMap (fun id _ => isSome_outcomeAt?) fun id _ outcome houtcome => ?_
  exact answers_of_outcomeAt? regular hentry houtcome

/-- Resolving loses no reference and makes none up. In a bundle that has been loaded, every
reference that is looked up has one outcome, and nothing else has any; they come file by file, and
each file in preorder. A reference that is resolved means a symbol of the table that is declared in
a file that can be seen, and of a kind that will do; all others are reported. -/
theorem resolve_answers {search : ImportSearch} {store : FileStore} {syncLimit : Nat} {entry : Path}
    (h : load search store syncLimit entry = .ok (bundle, log)) :
    ∃ outcomes duplicates, List.Forall₂ bundle.AnswersAt bundle.sites outcomes ∧
      bundle.resolve.references = outcomes.filterMap Except.toOption ∧
      bundle.resolve.problems = duplicates ++ outcomes.filterMap problem? ∧
      bundle.resolve.table = bundle.symbolTable ∧
      bundle.symbolTable.duplicates? bundle.paths = some duplicates ∧
      (∀ problem ∈ duplicates, ∃ name file token previous,
        problem = .duplicateSymbol name file token previous) ∧
      ∀ file ∈ bundle.files,
        file.parsed.tree.walkOrder.Perm (List.range file.parsed.tree.size) ∧
        file.parsed.tree.walkOrder.Pairwise file.parsed.tree.Precedes := by
  have loaded := loaded_of_load h
  obtain ⟨duplicates, hduplicates, reports⟩ := bundle.exists_duplicates_symbolTable
  refine ⟨bundle.found, duplicates, loaded.answers, rfl, ?_, rfl, hduplicates, reports, ?_⟩
  · rw [resolve, hduplicates]
    rfl
  · intro file hfile
    obtain ⟨forest, shows, hsize⟩ := (loaded.regular hfile).shown
    exact ⟨shows.perm_walkOrder hsize, shows.pairwise_walkOrder hsize⟩

/-- A file whose references are to itself, to a file that it imports, and to nothing. -/
def typesStore : FileStore :=
  (MemoryStore.mk [
    (⟨"/main.proto"⟩, "import \"types.proto\"; " ++
      "message M \x7b T t = 1; int32 n = 2; X x = 3; \x7d " ++
      "service S \x7b rpc Call(M) returns (E); \x7d"),
    (⟨"/types.proto"⟩, "message T \x7b\x7d enum E \x7b ZERO = 0; \x7d")]).toFileStore ⟨[], [], []⟩

/-- The symbols of both files. -/
def typesTable : SymbolTable :=
  ⟨#[⟨"E", .enum, 1, 5⟩, ⟨"M", .message, 0, 4⟩, ⟨"M.n", .field, 0, 12⟩, ⟨"M.t", .field, 0, 7⟩,
    ⟨"M.x", .field, 0, 17⟩, ⟨"S", .service, 0, 23⟩, ⟨"S.Call", .rpc, 0, 26⟩,
    ⟨"T", .message, 1, 1⟩, ⟨"ZERO", .enumValue, 1, 7⟩]⟩

/-- What is made of both files. -/
def typesBundle : Bundle := made ⟨[]⟩ typesStore 10 ⟨"/main.proto"⟩

theorem symbolTable_typesBundle : typesBundle.symbolTable = typesTable := by
  have inserted : typesBundle.inserted.Perm typesTable.symbols.toList := by decide +kernel
  have ordered : typesTable.symbols.toList.Pairwise
      fun first second => first.name ≤ second.name := by decide +kernel
  have named : ∀ first ∈ typesTable.symbols.toList, ∀ second ∈ typesTable.symbols.toList,
      first.name = second.name → first = second := by decide +kernel
  have perm := typesBundle.perm_symbolTable.trans inserted
  obtain ⟨table, htable, -⟩ := typesBundle.exists_symbolTable
  -- no two symbols have one name, so there is one way only to sort them
  have same : typesBundle.symbolTable.symbols.toList = typesTable.symbols.toList := by
    refine perm.eq_of_pairwise (fun first second hfirst hsecond hle hge => ?_)
      (htable ▸ table.pairwise_sorted) ordered
    exact named first (perm.mem_iff.mp hfirst) second hsecond (hle.antisymm hge)
  exact congrArg SymbolTable.mk (Array.toList_inj.mp same)

theorem visibleFiles_typesBundle : typesBundle.files.size = 2 ∧
    typesBundle.visibleFiles 0 = [0, 1] ∧ typesBundle.visibleFiles 1 = [1] := by
  obtain ⟨hsize, hentry, himported⟩ : typesBundle.files.size = 2 ∧
      typesBundle.directImports 0 false = [1] ∧ typesBundle.directImports 1 false = [] := by
    decide +kernel
  have hpublic : typesBundle.directImports 1 true = [] :=
    List.subset_nil.mp (himported ▸ typesBundle.directImports_subset 1)
  refine ⟨hsize, ?_, ?_⟩ <;>
    simp [visibleFiles, hentry, reveal, hsize, himported, hpublic, List.range_succ]

theorem found_typesBundle : typesBundle.found = [
    .ok ⟨⟨"/main.proto"⟩, 6, .fieldType, "T", "T", .message⟩,
    .error (.unresolvedReference "X" ⟨"/main.proto"⟩ 16),
    .ok ⟨⟨"/main.proto"⟩, 28, .rpcInputType, "M", "M", .message⟩,
    .error (.wrongSymbolKind "E" "E" .enum .messageType ⟨"/main.proto"⟩ 32)] := by
  obtain ⟨hsize, hfirst, hsecond⟩ := visibleFiles_typesBundle
  have visible : typesBundle.found = typesBundle.files.toList.zipIdx.flatMap fun entry =>
      outcomes typesTable ([[0, 1], [1]].getD entry.2 []) entry.1 := by
    refine List.flatMap_congr fun ⟨file, number⟩ hentry => ?_
    have hlt : number < typesBundle.files.toList.length := List.snd_lt_of_mem_zipIdx hentry
    rw [Array.length_toList, hsize] at hlt
    rw [symbolTable_typesBundle]
    rcases number with _ | _ | number
    · rw [hfirst]
      rfl
    · rw [hsecond]
      rfl
    · omega
  rw [visible]
  decide +kernel

theorem meaning?_typesBundle :
    typesBundle.files[0]?.map (fun main => [7, 19, 33, 37].map (typesBundle.meaning? 0 main)) =
      some [some ⟨"T", .message, 1, 1⟩, none, some ⟨"M", .message, 0, 4⟩,
        some ⟨"E", .enum, 1, 5⟩] := by
  have meaning (main : SourceFile) : typesBundle.meaning? 0 main = fun id =>
      typesTable.lookupType [0, 1]
        (".".intercalate (main.parsed.tree.scopeParts main.buffer id))
        (main.parsed.tree.subtreeText main.buffer id) := by
    funext id
    rw [meaning?, symbolTable_typesBundle, visibleFiles_typesBundle.2.1]
  simp only [meaning]
  decide +kernel

/-- Four references are looked up. The type of a field is a message of the other file, and what is
called with is one of this file. The type that is nowhere and the enum that is returned are
reported. -/
theorem resolve_answers_typesStore : ∃ bundle log outcomes duplicates,
    load ⟨[]⟩ typesStore 10 ⟨"/main.proto"⟩ = .ok (bundle, log) ∧
    List.Forall₂ bundle.AnswersAt bundle.sites outcomes ∧
    bundle.resolve.references = outcomes.filterMap Except.toOption ∧
    bundle.resolve.problems = duplicates ++ outcomes.filterMap problem? ∧
    bundle.sites = [(0, 7), (0, 19), (0, 33), (0, 37)] ∧
    bundle.files[0]?.map (fun main => [7, 19, 33, 37].map (bundle.meaning? 0 main)) =
      some [some ⟨"T", .message, 1, 1⟩, none, some ⟨"M", .message, 0, 4⟩,
        some ⟨"E", .enum, 1, 5⟩] ∧
    bundle.resolve.references = [⟨⟨"/main.proto"⟩, 6, .fieldType, "T", "T", .message⟩,
      ⟨⟨"/main.proto"⟩, 28, .rpcInputType, "M", "M", .message⟩] ∧
    outcomes.filterMap problem? = [.unresolvedReference "X" ⟨"/main.proto"⟩ 16,
      .wrongSymbolKind "E" "E" .enum .messageType ⟨"/main.proto"⟩ 32] := by
  obtain ⟨⟨bundle, log⟩, hload⟩ :
      ∃ result, load ⟨[]⟩ typesStore 10 ⟨"/main.proto"⟩ = .ok result := ⟨_, rfl⟩
  obtain ⟨outcomes, duplicates, answers, references, problems, -, hduplicates, -⟩ :=
    resolve_answers hload
  obtain rfl : bundle = typesBundle := eq_made hload
  have sites : typesBundle.sites = [(0, 7), (0, 19), (0, 33), (0, 37)] := by decide +kernel
  have resolved : typesBundle.resolve.references =
      typesBundle.found.filterMap Except.toOption := rfl
  have reported : typesBundle.resolve.problems =
      duplicates ++ typesBundle.found.filterMap problem? := by
    rw [resolve, hduplicates]
    rfl
  have hproblems := List.append_cancel_left (problems.symm.trans reported)
  rw [found_typesBundle] at resolved hproblems
  exact ⟨_, log, outcomes, duplicates, hload, answers, references, problems, sites,
    meaning?_typesBundle, resolved, hproblems⟩

end Bundle

end ProtoFront
