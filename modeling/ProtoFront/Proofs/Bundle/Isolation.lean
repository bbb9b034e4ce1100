import ProtoFront.Proofs.Bundle.Resolution
import ProtoFront.Proofs.Likeness.Buffers

/-!
# What cannot be seen does not matter

All files of a bundle share one table of symbols. Yet what comes of the references of a file depends
only on the files that can be seen from it: two bundles that agree in these (`Bundle.Agree`) answer
the references alike, whatever the other files declare (`Bundle.resolve_isolated`). The symbols of
files that can be seen stand in both tables in the same order, and looking up a name passes over all
others.
-/

namespace ProtoFront

/-- The limit of the guard changes nothing of the tree. -/
theorem TokenBuffer.tree_parseTokens (buffer : TokenBuffer) (fragment : Fragment)
    (limit limit' : Nat) :
    (buffer.parseTokens fragment limit').tree = (buffer.parseTokens fragment limit).tree := by
  have same := (TokenBuffer.parseTokens_shifted Function.injective_id 0
    (List.map_id buffer.significant).symm rfl fragment limit limit').1
  rw [Node.rename_id, Array.map_id] at same
  exact congrArg ParseTree.mk same

/-- What numbered sources give is the same if it is the same for every number. -/
theorem flatMap_zipIdx_congr {α β : Type} {sources others : List α}
    {first second : α × Nat → List β}
    (h : ∀ number : Nat, (sources[number]?).map (fun source => first (source, number)) =
      (others[number]?).map fun source => second (source, number)) :
    sources.zipIdx.flatMap first = others.zipIdx.flatMap second := by
  have same : sources.zipIdx.map first = others.zipIdx.map second := by
    refine List.ext_getElem? fun number => ?_
    simpa [List.getElem?_zipIdx, Function.comp_def] using h number
  rw [List.flatMap_def, List.flatMap_def, same]

/-- If only one of some numbered sources gives anything, nothing else matters. -/
theorem flatMap_zipIdx_eq {α β : Type} {sources : List α} {source : α} {number : Nat}
    {give : α × Nat → List β} (h : sources[number]? = some source)
    (others : ∀ entry ∈ sources.zipIdx, entry.2 ≠ number → give entry = []) :
    sources.zipIdx.flatMap give = give (source, number) := by
  obtain ⟨hlt, rfl⟩ := List.getElem?_eq_some_iff.mp h
  have split : sources.zipIdx = (sources.take number).zipIdx ++
      (sources[number], number) :: (sources.drop (number + 1)).zipIdx (number + 1) := by
    have length : (sources.take number).length = number := by
      rw [List.length_take]
      omega
    conv_lhs => rw [← List.take_append_drop number sources, List.drop_eq_getElem_cons hlt,
      List.zipIdx_append, List.zipIdx_cons, length, Nat.zero_add]
  have front : (sources.take number).zipIdx.flatMap give = [] := by
    refine List.flatMap_eq_nil_iff.mpr fun entry hentry => others entry ?_ ?_
    · rw [split]
      exact List.mem_append_left _ hentry
    · have hless := List.snd_lt_of_mem_zipIdx hentry
      rw [List.length_take] at hless
      omega
  have back : ((sources.drop (number + 1)).zipIdx (number + 1)).flatMap give = [] := by
    refine List.flatMap_eq_nil_iff.mpr fun entry hentry => others entry ?_ ?_
    · rw [split]
      exact List.mem_append_right _ (List.mem_cons_of_mem _ hentry)
    · have hmore := List.le_snd_of_mem_zipIdx hentry
      omega
  rw [split, List.flatMap_append, List.flatMap_cons, front, back, List.append_nil, List.nil_append]

/-- Whether two files are told apart by nothing that is read from them. -/
structure SourceFile.Like (file other : SourceFile) : Prop where
  path : file.path = other.path
  buffer : file.buffer = other.buffer
  tree : file.parsed.tree = other.parsed.tree

/-- Whether a problem is a report about a reference in a file. -/
def Problem.isAtReferenceIn (path : Path) : Problem → Bool
  | unresolvedReference _ file _ | wrongSymbolKind _ _ _ _ file _ => file.same path
  | _ => false

namespace Bundle

/-- Whether two bundles agree in some of their files. -/
structure Agree (bundle other : Bundle) (visible : List Nat) : Prop where
  size : bundle.files.size = other.files.size
  alike : ∀ {number}, number ∈ visible → ∀ {file}, bundle.files[number]? = some file →
    ∃ twin, other.files[number]? = some twin ∧ file.Like twin

variable {bundle other : Bundle} {file twin : SourceFile} {table table' : SymbolTable}
variable {visible : List Nat} {number : Nat} {path : Path}

/-- Loaded bundles agree in files with the same paths and sources. -/
theorem Loaded.agree (loaded : bundle.Loaded) (loaded' : other.Loaded)
    (paths : bundle.paths = other.paths)
    (contents : ∀ number ∈ visible, (bundle.files[number]?).map (·.buffer.source) =
      (other.files[number]?).map (·.buffer.source)) : bundle.Agree other visible where
  size := by
    have lengths := congrArg List.length paths
    simpa [Bundle.paths] using lengths
  alike := by
    intro number hvisible file hfile
    have hcontents := contents number hvisible
    rw [hfile, Option.map_some] at hcontents
    obtain ⟨twin, htwin, hsource⟩ := Option.map_eq_some_iff.mp hcontents.symm
    have hpath := congrArg (·[number]?) paths
    simp only [Bundle.paths, List.getElem?_map, Array.getElem?_toList, hfile, htwin,
      Option.map_some, Option.some.injEq] at hpath
    obtain ⟨source, limit, hbuffer, hparsed⟩ := loaded.parsed file (Array.mem_of_getElem? hfile)
    obtain ⟨source', limit', hbuffer', hparsed'⟩ :=
      loaded'.parsed twin (Array.mem_of_getElem? htwin)
    have same : file.buffer = twin.buffer := by
      rw [hbuffer, hbuffer'] at hsource ⊢
      have htext : source' = source := hsource
      rw [htext]
    refine ⟨twin, htwin, hpath, same, ?_⟩
    rw [hparsed, hparsed', same]
    exact (TokenBuffer.tree_parseTokens _ .file limit limit').symm

/-! ## Looking up -/

/-- The symbols of the files that can be seen are the same, and in the same order. -/
theorem Agree.filter_inserted (agree : bundle.Agree other visible) :
    bundle.inserted.filter (fun symbol => visible.contains symbol.file) =
      other.inserted.filter fun symbol => visible.contains symbol.file := by
  -- a file that cannot be seen adds nothing to either side
  have hidden {number : Nat} (hnumber : number ∉ visible) (file : SourceFile) :
      (file.parsed.tree.symbols file.buffer number).filter
        (fun symbol => visible.contains symbol.file) = [] := by
    refine List.filter_eq_nil_iff.mpr fun symbol hsymbol hseen => hnumber ?_
    rw [← ParseTree.file_of_mem_symbols hsymbol]
    exact List.contains_iff_mem.mp hseen
  rw [inserted, inserted, List.filter_flatMap, List.filter_flatMap]
  refine flatMap_zipIdx_congr fun number => ?_
  rw [Array.getElem?_toList, Array.getElem?_toList]
  rcases hfile : bundle.files[number]? with _ | file
  · rw [Array.getElem?_eq_none_iff, agree.size, ← Array.getElem?_eq_none_iff] at hfile
    rw [hfile]
  · by_cases hvisible : number ∈ visible
    · obtain ⟨twin, htwin, like⟩ := agree.alike hvisible hfile
      rw [htwin, Option.map_some, Option.map_some, like.tree, like.buffer]
    · have inside := (Array.getElem?_eq_some_iff.mp hfile).1
      rw [Array.getElem?_eq_getElem (agree.size ▸ inside), Option.map_some, Option.map_some,
        hidden hvisible, hidden hvisible]

theorem Agree.lookupVisible (agree : bundle.Agree other visible) (name : String) :
    bundle.symbolTable.lookupVisible name visible =
      other.symbolTable.lookupVisible name visible := by
  have seen (symbols : List Symbol) :
      (symbols.find? fun symbol => symbol.name == name && visible.contains symbol.file) =
        (symbols.filter fun symbol => visible.contains symbol.file).find? fun symbol =>
          symbol.name == name := by
    rw [List.find?_filter]
    refine congrArg (fun test => symbols.find? test) (funext fun symbol => ?_)
    rw [Bool.decide_and, Bool.decide_eq_true, Bool.decide_eq_true, Bool.and_comm]
  rw [lookupVisible_symbolTable, lookupVisible_symbolTable, seen, seen, agree.filter_inserted]

/-! ## References -/

/-- What comes of the references of a file depends on what can be looked up, and on the file. -/
theorem outcomes_congr (like : file.Like twin)
    (same : ∀ scope name,
      table.lookupType visible scope name = table'.lookupType visible scope name) :
    outcomes table visible file = outcomes table' visible twin := by
  have each (scopes : ScopeStack) (events : List TreeEvent) :
      outcomesFrom table visible file scopes events =
        outcomesFrom table' visible twin scopes events := by
    induction events generalizing scopes with
    | nil => rfl
    | cons event rest ih =>
      simp only [outcomesFrom, resolveReference, referenceAt?, like.path, like.buffer, like.tree,
        same, ih]
  rw [outcomes, outcomes, like.tree, each]

/-- Bundles that agree in what can be seen from a file answer its references alike. -/
theorem Agree.outcomes_eq (agree : bundle.Agree other visible) (like : file.Like twin) :
    outcomes bundle.symbolTable visible file = outcomes other.symbolTable visible twin :=
  outcomes_congr like (SymbolTable.lookupType_congr agree.lookupVisible)

/-- The file that an outcome is about. -/
def outcomeFile? : Except Problem ResolvedReference → Option Path
  | .ok reference => some reference.file
  | .error problem => problem.location?.map Prod.fst

/-- The outcomes of a file are about the file. -/
theorem outcomeFile?_of_mem {outcome : Except Problem ResolvedReference}
    (h : outcome ∈ outcomes table visible file) : outcomeFile? outcome = some file.path := by
  have each {scopes : ScopeStack} {id : Nat} {kind : ReferenceKind}
      (hresolve : resolveReference table visible file scopes id kind = some outcome) :
      outcomeFile? outcome = some file.path := by
    obtain ⟨⟨token, name, expected⟩, -, hresult⟩ := Option.bind_eq_some_iff.mp hresolve
    simp only at hresult
    split at hresult
    · cases hresult
      rfl
    · split at hresult <;> cases hresult <;> rfl
  have among {scopes : ScopeStack} {events : List TreeEvent}
      (houtcome : outcome ∈ outcomesFrom table visible file scopes events) :
      outcomeFile? outcome = some file.path := by
    fun_induction outcomesFrom table visible file scopes events
    case case1 => cases houtcome
    case case2 scopes event rest here ih =>
      rcases List.mem_append.mp houtcome with hhere | hlater
      · cases event with
        | reference id kind => exact each (Option.mem_toList.mp hhere)
        | _ => cases hhere
      · exact ih hlater
  exact among h

/-- What is chosen from all outcomes is chosen from those of one file, if only outcomes about that
file are. -/
theorem Loaded.filterMap_found {α : Type} (loaded : bundle.Loaded)
    (hfile : bundle.files[number]? = some file)
    (choose : Except Problem ResolvedReference → Option α)
    (about : ∀ outcome target, outcomeFile? outcome = some target →
      target.same file.path = false → choose outcome = none) :
    bundle.found.filterMap choose =
      (outcomes bundle.symbolTable (bundle.visibleFiles number) file).filterMap choose := by
  rw [found, List.filterMap_flatMap, ← Array.getElem?_toList] at *
  refine flatMap_zipIdx_eq hfile fun entry hentry different => ?_
  refine List.filterMap_eq_nil_iff.mpr fun outcome houtcome => ?_
  refine about outcome entry.1.path (outcomeFile?_of_mem houtcome) (Bool.eq_false_iff.mpr ?_)
  intro hsame
  rw [List.mem_zipIdx_iff_getElem?] at hentry
  refine different (loaded.eq_of_same ?_ ?_ hsame)
  · rw [paths, List.getElem?_map, hentry, Option.map_some]
  · rw [paths, List.getElem?_map, hfile, Option.map_some]

/-- The references of a bundle that are resolved in one file. -/
theorem Loaded.references_in (loaded : bundle.Loaded) (hfile : bundle.files[number]? = some file) :
    (bundle.resolve.references.filter fun reference => reference.file.same file.path) =
      (outcomes bundle.symbolTable (bundle.visibleFiles number) file).filterMap fun outcome =>
        outcome.toOption.filter fun reference => reference.file.same file.path := by
  have all : bundle.resolve.references = bundle.found.filterMap Except.toOption := rfl
  rw [all, List.filter_filterMap]
  refine loaded.filterMap_found hfile _ fun outcome target htarget hother => ?_
  cases outcome with
  | error problem => rfl
  | ok reference =>
    obtain rfl := Option.some.inj htarget
    exact Option.filter_some_neg hother

/-- The reports of a bundle about references in one file. -/
theorem Loaded.problems_in (loaded : bundle.Loaded) (hfile : bundle.files[number]? = some file) :
    (bundle.resolve.problems.filter (Problem.isAtReferenceIn file.path)) =
      (outcomes bundle.symbolTable (bundle.visibleFiles number) file).filterMap fun outcome =>
        (problem? outcome).filter (Problem.isAtReferenceIn file.path) := by
  obtain ⟨duplicates, hduplicates, reports⟩ := bundle.exists_duplicates_symbolTable
  have all : bundle.resolve.problems = duplicates ++ bundle.found.filterMap problem? := by
    rw [resolve, hduplicates]
    rfl
  -- names that are defined twice are not reported at references
  have none : duplicates.filter (Problem.isAtReferenceIn file.path) = [] := by
    refine List.filter_eq_nil_iff.mpr fun problem hproblem => ?_
    obtain ⟨name, target, token, previous, rfl⟩ := reports problem hproblem
    exact Bool.false_ne_true
  rw [all, List.filter_append, none, List.nil_append, List.filter_filterMap]
  refine loaded.filterMap_found hfile _ fun outcome target htarget hother => ?_
  cases outcome with
  | ok reference => rfl
  | error problem =>
    refine Option.filter_some_neg ?_
    cases problem with
    | unresolvedReference | wrongSymbolKind =>
      obtain rfl := Option.some.inj htarget
      exact hother
    | _ => rfl

/-- What cannot be seen from a file does not matter to it. In two bundles that were loaded with the
same paths and the same imports, take a file from which only files with the same contents can be
seen. Then the same references are resolved in it, in the same way, and the same reports are made
about its references, whatever the other files contain. -/
theorem resolve_isolated {search search' : ImportSearch} {store store' : FileStore}
    {syncLimit syncLimit' : Nat} {entry entry' : Path} {log log' : List LogEvent}
    (hload : load search store syncLimit entry = .ok (bundle, log))
    (hload' : load search' store' syncLimit' entry' = .ok (other, log'))
    (paths : bundle.paths = other.paths)
    (imports : ∀ file publicOnly target, target ∈ bundle.directImports file publicOnly ↔
      target ∈ other.directImports file publicOnly)
    (hpath : bundle.paths[number]? = some path)
    (contents : ∀ target ∈ bundle.visibleFiles number,
      (bundle.files[target]?).map (·.buffer.source) =
        (other.files[target]?).map (·.buffer.source)) :
    (bundle.resolve.references.filter fun reference => reference.file.same path) =
        (other.resolve.references.filter fun reference => reference.file.same path) ∧
      bundle.resolve.problems.filter (Problem.isAtReferenceIn path) =
        other.resolve.problems.filter (Problem.isAtReferenceIn path) := by
  have loaded := loaded_of_load hload
  have loaded' := loaded_of_load hload'
  have agree := loaded.agree loaded' paths contents
  rw [Bundle.paths, List.getElem?_map, Array.getElem?_toList] at hpath
  obtain ⟨file, hfile, rfl⟩ := Option.map_eq_some_iff.mp hpath
  have inside := (Array.getElem?_eq_some_iff.mp hfile).1
  -- a file sees itself, so it is the same in both bundles
  obtain ⟨twin, htwin, like⟩ := agree.alike ((mem_visibleFiles inside).mpr (.inl rfl)) hfile
  have answers : outcomes bundle.symbolTable (bundle.visibleFiles number) file =
      outcomes other.symbolTable (other.visibleFiles number) twin := by
    rw [agree.outcomes_eq like, visibleFiles_congr agree.size imports inside]
  constructor
  · rw [loaded.references_in hfile, answers, like.path, loaded'.references_in htwin]
  · rw [loaded.problems_in hfile, answers, like.path, loaded'.problems_in htwin]

/-- The source of a file that another file imports. -/
def imported : String := "message A \x7b T t = 1; A a = 2; \x7d"

/-- The sources of two files that import the same file and declare different types. -/
def messageImporter : String := "import \"a.proto\"; message T \x7b\x7d"

@[inherit_doc messageImporter]
def enumImporter : String := "import \"a.proto\"; enum U \x7b Z = 0; \x7d"

/-- A file that imports another one, which does not see it. -/
def pairStore (importer : String) : FileStore :=
  (MemoryStore.mk [(⟨"/main.proto"⟩, importer), (⟨"/a.proto"⟩, imported)]).toFileStore ⟨[], [], []⟩

/-- The files of the pair. -/
def pairFiles (importer : String) : Array SourceFile :=
  #[.ofSource ⟨[]⟩ (pairStore importer) 10 ⟨"/main.proto"⟩ importer,
    .ofSource ⟨[]⟩ (pairStore importer) 10 ⟨"/a.proto"⟩ imported]

/-- A file without imports is loaded and adds nothing to the queue. -/
theorem loadQueue_leaf {search : ImportSearch} {store : FileStore} {syncLimit : Nat}
    {loading : Loading} {source : String} {queue : List Path}
    (readable : store.readSource path = .ok source)
    (leaf : (SourceFile.ofSource search store syncLimit path source).dependencies = []) :
    loadQueue search store syncLimit loading (path :: queue) =
      loadQueue search store syncLimit
        (loading.add search store (.ofSource search store syncLimit path source)) queue := by
  rw [loadQueue_cons readable leaf, discover, List.append_nil]

theorem load_pairStore {importer : String}
    (hmain : (pairStore importer).loadSource ⟨"/main.proto"⟩ = .ok (⟨"/main.proto"⟩, importer))
    (hread : (pairStore importer).readSource ⟨"/a.proto"⟩ = .ok imported)
    (himport : (SourceFile.ofSource ⟨[]⟩ (pairStore importer) 10 ⟨"/main.proto"⟩
      importer).dependencies = [⟨"/a.proto"⟩])
    (hleaf : (SourceFile.ofSource ⟨[]⟩ (pairStore importer) 10 ⟨"/a.proto"⟩
      imported).dependencies = []) :
    ∃ bundle log, load ⟨[]⟩ (pairStore importer) 10 ⟨"/main.proto"⟩ = .ok (bundle, log) ∧
      bundle.files = pairFiles importer := by
  have fresh : discover [⟨"/main.proto"⟩] [⟨"/a.proto"⟩] = [⟨"/a.proto"⟩] := by decide
  rw [load, hmain]
  refine ⟨_, _, rfl, ?_⟩
  rw [Loading.fresh, himport, Loading.start, fresh, loadQueue_leaf hread hleaf, loadQueue]
  rfl

theorem sources_pairFiles (importer : String) :
    ((pairFiles importer)[0]?).map (·.buffer.source) = some importer ∧
      ((pairFiles importer)[1]?).map (·.buffer.source) = some imported :=
  ⟨rfl, rfl⟩

theorem paths_pairFiles {importer : String} (hfiles : bundle.files = pairFiles importer) :
    bundle.paths = [⟨"/main.proto"⟩, ⟨"/a.proto"⟩] := by
  rw [Bundle.paths, hfiles, pairFiles, List.map_cons, List.map_cons, List.map_nil]
  rfl

theorem directImports_pairFiles {bundle other : Bundle}
    (hfiles : bundle.files = pairFiles messageImporter)
    (hothers : other.files = pairFiles enumImporter) (file : Nat) (publicOnly : Bool) :
    bundle.directImports file publicOnly = other.directImports file publicOnly ∧
      bundle.directImports 1 false = [] := by
  obtain ⟨files, graph, problems⟩ := bundle
  obtain ⟨files', graph', problems'⟩ := other
  obtain rfl := hfiles
  obtain rfl := hothers
  have same : ∀ file < 2, ∀ publicOnly,
      directImports ⟨pairFiles messageImporter, .empty, []⟩ file publicOnly =
        directImports ⟨pairFiles enumImporter, .empty, []⟩ file publicOnly := by decide +kernel
  have leaf : directImports ⟨pairFiles messageImporter, .empty, []⟩ 1 false = [] := by
    decide +kernel
  refine ⟨?_, leaf⟩
  by_cases hfile : file < 2
  · exact same file hfile publicOnly
  · have missing (importer : String) : (pairFiles importer)[file]? = none :=
      Array.getElem?_eq_none_iff.mpr (Nat.le_of_not_lt hfile)
    rw [directImports, directImports, missing, missing]

/-- The file that is imported does not see the file that imports it. -/
theorem resolve_isolated_pairStore : ∃ bundle other log log',
    load ⟨[]⟩ (pairStore messageImporter) 10 ⟨"/main.proto"⟩ = .ok (bundle, log) ∧
    load ⟨[]⟩ (pairStore enumImporter) 10 ⟨"/main.proto"⟩ = .ok (other, log') ∧
    (bundle.files[0]?).map (·.buffer.source) ≠ (other.files[0]?).map (·.buffer.source) ∧
    bundle.paths = other.paths ∧
    (∀ file publicOnly target, target ∈ bundle.directImports file publicOnly ↔
      target ∈ other.directImports file publicOnly) ∧
    bundle.paths[1]? = some ⟨"/a.proto"⟩ ∧
    (∀ target ∈ bundle.visibleFiles 1, (bundle.files[target]?).map (·.buffer.source) =
      (other.files[target]?).map (·.buffer.source)) ∧
    (bundle.resolve.references.filter fun reference => reference.file.same ⟨"/a.proto"⟩) =
      (other.resolve.references.filter fun reference => reference.file.same ⟨"/a.proto"⟩) ∧
    bundle.resolve.problems.filter (Problem.isAtReferenceIn ⟨"/a.proto"⟩) =
      other.resolve.problems.filter (Problem.isAtReferenceIn ⟨"/a.proto"⟩) := by
  obtain ⟨bundle, log, hload, hfiles⟩ : ∃ bundle log,
      load ⟨[]⟩ (pairStore messageImporter) 10 ⟨"/main.proto"⟩ = .ok (bundle, log) ∧
        bundle.files = pairFiles messageImporter :=
    load_pairStore rfl rfl (by decide +kernel) (by decide +kernel)
  obtain ⟨other, log', hload', hothers⟩ : ∃ other log',
      load ⟨[]⟩ (pairStore enumImporter) 10 ⟨"/main.proto"⟩ = .ok (other, log') ∧
        other.files = pairFiles enumImporter :=
    load_pairStore rfl rfl (by decide +kernel) (by decide +kernel)
  have paths : bundle.paths = other.paths := by
    rw [paths_pairFiles hfiles, paths_pairFiles hothers]
  have imports (file : Nat) (publicOnly : Bool) (target : Nat) :
      target ∈ bundle.directImports file publicOnly ↔
        target ∈ other.directImports file publicOnly := by
    rw [(directImports_pairFiles hfiles hothers file publicOnly).1]
  have hpath : bundle.paths[1]? = some ⟨"/a.proto"⟩ := by
    rw [paths_pairFiles hfiles]
    rfl
  have alone {target : Nat} (h : target ∈ bundle.visibleFiles 1) : target = 1 := by
    have inside : 1 < bundle.files.size := by
      rw [hfiles]
      exact Nat.lt_add_one 1
    rcases (mem_visibleFiles inside).mp h with hself | ⟨first, hfirst, -⟩
    · exact hself
    · rw [(directImports_pairFiles hfiles hothers 1 false).2] at hfirst
      cases hfirst
  have contents : ∀ target ∈ bundle.visibleFiles 1, (bundle.files[target]?).map (·.buffer.source) =
      (other.files[target]?).map (·.buffer.source) := by
    intro target htarget
    rw [alone htarget, hfiles, hothers, (sources_pairFiles messageImporter).2,
      (sources_pairFiles enumImporter).2]
  refine ⟨bundle, other, log, log', hload, hload', ?_, paths, imports, hpath, contents,
    resolve_isolated hload hload' paths imports hpath contents⟩
  rw [hfiles, hothers, (sources_pairFiles messageImporter).1, (sources_pairFiles enumImporter).1]
  exact fun hsame => absurd (Option.some.inj hsame) (by decide)

end Bundle

end ProtoFront
