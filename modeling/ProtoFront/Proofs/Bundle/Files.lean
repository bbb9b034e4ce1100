import ProtoFront.Bundle.Resolve
import ProtoFront.Proofs.Bundle.Closure
import ProtoFront.Proofs.Bundle.Visibility
import ProtoFront.Proofs.Symbol.Collect
import ProtoFront.Proofs.Symbol.Table

/-!
# The files of a bundle and their symbols

However a bundle was loaded, its files are parses of sources, and each has a path of its own
(`Bundle.Loaded`). Files are numbered in the order in which they were loaded, and the table of the
bundle holds the symbols of one file after the other (`Bundle.lookupVisible_symbolTable`).
-/

namespace ProtoFront

/-- The text of a file is read under its true path. -/
theorem FileStore.readSource_of_loadSource {store : FileStore} {path target : Path}
    {source : String} (h : store.loadSource path = .ok (target, source)) :
    store.readSource target = .ok source := by
  cases hcanonical : store.canonicalize path with
  | error fault =>
    rw [loadSource_of_canonicalize_eq_error hcanonical] at h
    cases h
  | ok found =>
    rw [loadSource_of_canonicalize_eq_ok hcanonical] at h
    cases hread : store.readSource found with
    | error fault =>
      rw [hread] at h
      cases h
    | ok text =>
      rw [hread] at h
      cases h
      exact hread

/-- Whether the files of a bundle are such as loading makes them: every file is the parse of a
source, and paths are not shared. -/
structure Bundle.Loaded (bundle : Bundle) : Prop where
  parsed : ∀ file ∈ bundle.files, ∃ source syncLimit, file.buffer = tokenize source false ∧
    file.parsed = file.buffer.parseTokens .file syncLimit
  distinct : bundle.paths.Pairwise fun path other => path.same other = false

namespace Bundle

variable {bundle other : Bundle} {log : List LogEvent} {search : ImportSearch} {store : FileStore}
variable {syncLimit number : Nat} {entry path : Path} {file : SourceFile}

/-- Files have the paths under which they were met. -/
theorem paths_of_met {met : List Path} :
    ((met.filterMap (loaded? search store syncLimit)).map SourceFile.path).Sublist met := by
  induction met with
  | nil => exact .slnil
  | cons path rest ih =>
    rcases hfile : loaded? search store syncLimit path with _ | file
    · rw [List.filterMap_cons_none hfile]
      exact ih.cons path
    · rw [List.filterMap_cons_some hfile, List.map_cons, path_of_loaded? hfile]
      exact ih.cons_cons path

theorem Loading.Midway.loaded {loading : Loading} {met : List Path}
    (h : Midway search store syncLimit entry loading met []) : loading.finish.1.Loaded where
  parsed file hfile := by
    obtain ⟨path, source, rfl⟩ := h.exists_of_mem hfile
    exact ⟨source, syncLimit, rfl, rfl⟩
  distinct := by
    have hpaths : loading.finish.1.paths =
        (met.filterMap (loaded? search store syncLimit)).map SourceFile.path :=
      congrArg (List.map SourceFile.path) h.files
    rw [hpaths]
    exact h.distinct.sublist paths_of_met

/-- A file that can be read is loaded, and what it imports comes to the end of the queue, as far as
it is new. -/
theorem loadQueue_cons {loading : Loading} {source : String} {queue targets : List Path}
    (readable : store.readSource path = .ok source)
    (imports : (SourceFile.ofSource search store syncLimit path source).dependencies = targets) :
    loadQueue search store syncLimit loading (path :: queue) =
      loadQueue search store syncLimit
        (loading.add search store (.ofSource search store syncLimit path source))
        (queue ++ discover loading.seen targets) := by
  rw [loadQueue, readable]
  simp only [Loading.fresh, imports]

/-- A bundle that was loaded is what loading had made of the entry when the queue was empty. -/
theorem exists_midway_of_load (h : load search store syncLimit entry = .ok (bundle, log)) :
    ∃ path loading met, Loading.Midway search store syncLimit path loading met [] ∧
      bundle = loading.finish.1 := by
  rw [load] at h
  split at h
  case h_1 => cases h
  case h_2 path source hsource =>
    have readable := FileStore.readSource_of_loadSource hsource
    obtain ⟨met, hmet⟩ :=
      midway_loadQueue ((Loading.Midway.start search store syncLimit path).add readable)
    exact ⟨path, _, met, hmet, (congrArg Prod.fst (Except.ok.inj h)).symm⟩

/-- The files of a bundle that was loaded are parses of sources, with different paths. -/
theorem loaded_of_load (h : load search store syncLimit entry = .ok (bundle, log)) :
    bundle.Loaded := by
  obtain ⟨path, loading, met, hmet, rfl⟩ := exists_midway_of_load h
  exact hmet.loaded

namespace Loaded

theorem regular (loaded : bundle.Loaded) (hfile : file ∈ bundle.files) :
    file.parsed.tree.Regular file.buffer := by
  obtain ⟨source, syncLimit, hbuffer, hparsed⟩ := loaded.parsed file hfile
  rw [hparsed, hbuffer]
  exact TokenBuffer.regular_tokenize source false syncLimit

/-- Files with the same path are the same file. -/
theorem eq_of_same (loaded : bundle.Loaded) {first second : Nat} {path other : Path}
    (hfirst : bundle.paths[first]? = some path) (hsecond : bundle.paths[second]? = some other)
    (h : path.same other = true) : first = second := by
  obtain ⟨hlt, rfl⟩ := List.getElem?_eq_some_iff.mp hfirst
  obtain ⟨hlt', rfl⟩ := List.getElem?_eq_some_iff.mp hsecond
  have distinct := List.pairwise_iff_getElem.mp loaded.distinct
  rcases Nat.lt_trichotomy first second with hless | rfl | hmore
  · rw [distinct first second hlt hlt' hless] at h
    cases h
  · rfl
  · have h' := Path.same_symm h
    rw [distinct second first hlt' hlt hmore] at h'
    cases h'

end Loaded

/-! ## Symbols -/

/-- The symbols of a bundle, one file after the other. -/
def inserted (bundle : Bundle) : List Symbol :=
  bundle.files.toList.zipIdx.flatMap fun entry => entry.1.parsed.tree.symbols entry.1.buffer entry.2

/-- The table of a bundle is the sorted list of its symbols. -/
theorem exists_symbolTable (bundle : Bundle) : ∃ table : SymbolTable,
    bundle.symbolTable = table.sorted ∧ table.symbols.toList = bundle.inserted := by
  refine ⟨_, rfl, ?_⟩
  exact SymbolTable.toList_foldl_insertAll _ _ _

theorem perm_symbolTable (bundle : Bundle) :
    bundle.symbolTable.symbols.toList.Perm bundle.inserted := by
  obtain ⟨table, htable, hsymbols⟩ := bundle.exists_symbolTable
  rw [htable, ← hsymbols]
  exact table.perm_sorted

/-- The symbols of the table are those that the files declare. -/
theorem mem_symbolTable {symbol : Symbol} : symbol ∈ bundle.symbolTable.symbols ↔
    ∃ file, bundle.files[symbol.file]? = some file ∧
      symbol ∈ file.parsed.tree.symbols file.buffer symbol.file := by
  rw [← Array.mem_toList_iff, bundle.perm_symbolTable.mem_iff, inserted, List.mem_flatMap]
  constructor
  · rintro ⟨⟨file, number⟩, hentry, hsymbol⟩
    obtain rfl := ParseTree.file_of_mem_symbols hsymbol
    rw [List.mem_zipIdx_iff_getElem?, Array.getElem?_toList] at hentry
    exact ⟨file, hentry, hsymbol⟩
  · rintro ⟨file, hfile, hsymbol⟩
    rw [← Array.getElem?_toList] at hfile
    exact ⟨(file, symbol.file), List.mem_zipIdx_iff_getElem?.mpr hfile, hsymbol⟩

theorem exists_duplicates_symbolTable (bundle : Bundle) : ∃ problems,
    bundle.symbolTable.duplicates? bundle.paths = some problems ∧ ∀ problem ∈ problems,
      ∃ name file token previous, problem = .duplicateSymbol name file token previous :=
  SymbolTable.exists_duplicates fun symbol hsymbol => by
    obtain ⟨file, hfile, -⟩ := mem_symbolTable.mp hsymbol
    rw [paths, List.length_map, Array.length_toList]
    exact (Array.getElem?_eq_some_iff.mp hfile).1

/-- A name is looked up among the symbols in the order of the files. -/
theorem lookupVisible_symbolTable (bundle : Bundle) (name : String) (visible : List Nat) :
    bundle.symbolTable.lookupVisible name visible = bundle.inserted.find? fun symbol =>
      symbol.name == name && visible.contains symbol.file := by
  obtain ⟨table, htable, hsymbols⟩ := bundle.exists_symbolTable
  rw [htable, table.lookupVisible_sorted, hsymbols]

end Bundle

end ProtoFront
