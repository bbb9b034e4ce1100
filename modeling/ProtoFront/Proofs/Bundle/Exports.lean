import ProtoFront.Proofs.Bundle.Files

/-!
# What a file can see

A file sees itself and the files that it imports, and it sees what these pass on to it by public
imports. Which imports a file of a loaded bundle has is said by the import statements in its tree
and by the search for the files that they name (`Bundle.Imports`). So what can be seen from a file
is the closure of its imports under public ones, whichever way the files import each other
(`Bundle.visibleFiles_exact`).
-/

namespace ProtoFront

/-- Where a found import leads to is where the search for its statement led. -/
theorem SourceFile.mem_resolvedImports {search : ImportSearch} {store : FileStore} {syncLimit : Nat}
    {path target : Path} {source : String} {statement : ImportStatement} :
    (statement, target) ∈ (ofSource search store syncLimit path source).resolvedImports ↔
      statement ∈ (ofSource search store syncLimit path source).parsed.tree.imports
        (ofSource search store syncLimit path source).buffer ∧
      search.find? store statement.path path = some target := by
  simp only [resolvedImports, ofSource, List.filterMap_map, List.mem_filterMap,
    Function.comp_apply, Option.map_eq_some_iff, Prod.mk.injEq]
  constructor
  · rintro ⟨other, hother, found, hfound, rfl, rfl⟩
    exact ⟨hother, hfound⟩
  · rintro ⟨hstatement, hfound⟩
    exact ⟨statement, hstatement, target, hfound, rfl, rfl⟩

namespace Bundle

variable {bundle : Bundle} {log : List LogEvent} {search : ImportSearch} {store : FileStore}
variable {syncLimit importer imported : Nat} {entry path : Path} {source : SourceFile}

/-- Whether a file of the bundle has an import statement, among those that count, by which another
file of the bundle is found. -/
def Imports (search : ImportSearch) (store : FileStore) (bundle : Bundle)
    (counts : ImportStatement → Bool) (importer imported : Nat) : Prop :=
  ∃ source target, bundle.files[importer]? = some source ∧ bundle.files[imported]? = some target ∧
    ∃ statement ∈ source.parsed.tree.imports source.buffer, counts statement = true ∧
      ∃ path, search.find? store statement.path source.path = some path ∧
        path.same target.path = true

/-! ## Imports of loaded files -/

/-- The files of a bundle that was loaded have been read. -/
theorem exists_ofSource_of_load (h : load search store syncLimit entry = .ok (bundle, log))
    (hsource : source ∈ bundle.files) :
    ∃ path text, source = SourceFile.ofSource search store syncLimit path text := by
  obtain ⟨path, loading, met, hmet, rfl⟩ := exists_midway_of_load h
  exact hmet.exists_of_mem hsource

/-- A file is found by any spelling of its path. -/
theorem Loaded.fileId?_eq_some_iff (loaded : bundle.Loaded) :
    bundle.fileId? path = some imported ↔
      ∃ target, bundle.files[imported]? = some target ∧ path.same target.path = true := by
  rw [fileId?, Array.findIdx?_eq_some_iff_getElem]
  constructor
  · rintro ⟨hlt, hsame, -⟩
    exact ⟨_, Array.getElem?_eq_getElem hlt, Path.same_symm hsame⟩
  · rintro ⟨target, htarget, hsame⟩
    obtain ⟨hlt, rfl⟩ := Array.getElem?_eq_some_iff.mp htarget
    refine ⟨hlt, Path.same_symm hsame, fun earlier hearlier hother => ?_⟩
    -- an earlier file of the same path would be the same file
    have hpath (number : Nat) (hnumber : number < bundle.files.size) :
        bundle.paths[number]? = some bundle.files[number].path := by
      rw [paths, List.getElem?_map, Array.getElem?_toList, Array.getElem?_eq_getElem hnumber]
      rfl
    have hequal := loaded.eq_of_same (hpath earlier (by omega)) (hpath imported hlt)
      (Path.same_iff.mpr ((Path.same_iff.mp hother).trans (Path.same_iff.mp hsame)))
    omega

theorem mem_directImports (h : load search store syncLimit entry = .ok (bundle, log))
    (publicOnly : Bool) : imported ∈ bundle.directImports importer publicOnly ↔
      bundle.Imports search store (fun statement => !publicOnly || statement.isPublic)
        importer imported := by
  rw [directImports, Imports]
  split
  case h_1 hnone => simp [hnone]
  case h_2 source hsource =>
    obtain ⟨path, text, rfl⟩ := exists_ofSource_of_load h (Array.mem_of_getElem? hsource)
    simp only [List.mem_filterMap, List.mem_filter, (loaded_of_load h).fileId?_eq_some_iff]
    constructor
    · rintro ⟨⟨statement, found⟩, ⟨hresolved, hcounts⟩, target, htarget, hsame⟩
      obtain ⟨hstatement, hfound⟩ := SourceFile.mem_resolvedImports.mp hresolved
      exact ⟨_, target, hsource, htarget, statement, hstatement, hcounts, found, hfound, hsame⟩
    · rintro ⟨other, target, hother, htarget, statement, hstatement, hcounts, found, hfound, hsame⟩
      obtain rfl := Option.some.inj (hsource.symm.trans hother)
      exact ⟨(statement, found),
        ⟨SourceFile.mem_resolvedImports.mpr ⟨hstatement, hfound⟩, hcounts⟩, target, htarget, hsame⟩

/-- What can be seen from a file of a bundle that was loaded, each file once: the file itself, every
file that it imports in any way, and every file to which public imports lead from one of these. -/
theorem visibleFiles_exact (h : load search store syncLimit entry = .ok (bundle, log))
    {file : Nat} (hfile : file < bundle.files.size) :
    (bundle.visibleFiles file).Nodup ∧ ∀ target, target ∈ bundle.visibleFiles file ↔
      target = file ∨ ∃ first, Imports search store bundle (fun _ => true) file first ∧
        Relation.ReflTransGen (Imports search store bundle ImportStatement.isPublic)
          first target := by
  refine ⟨List.nodup_range.filter _, fun target => ?_⟩
  have passes : (fun importer imported => imported ∈ bundle.directImports importer true) =
      Imports search store bundle ImportStatement.isPublic := by
    funext importer imported
    exact propext (mem_directImports h true)
  have imports (first : Nat) : first ∈ bundle.directImports file false ↔
      Imports search store bundle (fun _ => true) file first := mem_directImports h false
  rw [mem_visibleFiles hfile, Sees, passes]
  simp only [imports]

/-- The text of a file that imports one by which it is imported itself. -/
def circleEntry : String := "import \"a.proto\"; import weak \"missing.proto\";"

/-- The text of a file that passes on the file by which it is imported, and keeps another one to
itself. -/
def circleMiddle : String := "import public \"main.proto\"; import \"b.proto\";"

/-- Two files that import each other, and a third one that only one of them can see. -/
def circleStore : FileStore :=
  (MemoryStore.mk [(⟨"/main.proto"⟩, circleEntry), (⟨"/a.proto"⟩, circleMiddle),
    (⟨"/b.proto"⟩, "")]).toFileStore ⟨[], [], []⟩

/-- The entry sees the file that it imports. Past it, it sees what this one passes on, which is the
entry itself, and not what this one keeps. -/
theorem visibleFiles_exact_circleStore : ∃ bundle log,
    load ⟨[]⟩ circleStore 10 ⟨"/main.proto"⟩ = .ok (bundle, log) ∧
    bundle.paths = [⟨"/main.proto"⟩, ⟨"/a.proto"⟩, ⟨"/b.proto"⟩] ∧
    bundle.visibleFiles 0 = [0, 1] ∧ (bundle.visibleFiles 0).Nodup ∧
    ∀ target, target ∈ bundle.visibleFiles 0 ↔
      target = 0 ∨ ∃ first, Imports ⟨[]⟩ circleStore bundle (fun _ => true) 0 first ∧
        Relation.ReflTransGen (Imports ⟨[]⟩ circleStore bundle ImportStatement.isPublic)
          first target := by
  obtain ⟨⟨bundle, log⟩, hload⟩ :
      ∃ result, load ⟨[]⟩ circleStore 10 ⟨"/main.proto"⟩ = .ok result := ⟨_, rfl⟩
  obtain rfl := eq_made hload
  have hsize : (made ⟨[]⟩ circleStore 10 ⟨"/main.proto"⟩).files.size = 3 := by decide +kernel
  have hentry : (made ⟨[]⟩ circleStore 10 ⟨"/main.proto"⟩).directImports 0 false = [1] := by
    decide +kernel
  have hmiddle : (made ⟨[]⟩ circleStore 10 ⟨"/main.proto"⟩).directImports 1 true = [0] := by
    decide +kernel
  have visible : (made ⟨[]⟩ circleStore 10 ⟨"/main.proto"⟩).visibleFiles 0 = [0, 1] := by
    simp [visibleFiles, hentry, reveal, hsize, hmiddle, List.range_succ]
  exact ⟨_, log, hload, by decide +kernel, visible, visibleFiles_exact hload (by omega)⟩

end Bundle

end ProtoFront
