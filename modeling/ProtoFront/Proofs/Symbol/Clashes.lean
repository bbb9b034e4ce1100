import Mathlib.Data.List.Perm.Basic
import Mathlib.Data.List.Forall2
import Mathlib.Data.List.Induction
import ProtoFront.Proofs.Symbol.Table

/-!
# Names that are defined twice

A name is defined twice if two symbols have it that are not both packages, and the later of the two
should be reported (`SymbolTable.Redefines`). A finished table compares each symbol with the first
one of its name, so what it reports, once each, are the symbols that repeat a name but for the
packages whose name was first that of a package (`SymbolTable.duplicates_sorted`). Those are
shielded by the first one: a package that repeats the name of a message is not reported if another
package had the name before the message (`SymbolTable.unreported_packageSplit`).
-/

namespace ProtoFront

namespace SymbolTable

variable {symbols : List Symbol} {name : String} {index : Nat}

/-! ## What is defined twice -/

/-- The symbol at an index has the name of an earlier one, and the two are not both packages. -/
def Redefines (symbols : List Symbol) (index : Nat) : Prop :=
  ∃ earlier later : Symbol, symbols[index]? = some later ∧ earlier ∈ symbols.take index ∧
    earlier.name = later.name ∧ ¬(earlier.kind = .package ∧ later.kind = .package)

/-- The symbol at an index is a package, and so is the first symbol of its name. -/
def Shielded (symbols : List Symbol) (index : Nat) : Prop :=
  ∃ first later : Symbol, symbols[index]? = some later ∧
    symbols.find? (fun symbol => symbol.name == later.name) = some first ∧
    first.kind = .package ∧ later.kind = .package

/-- A problem that says that the symbol at an index is defined twice, and where it is defined
first. -/
def Reports (symbols : List Symbol) (files : List Path) (index : Nat) (problem : Problem) : Prop :=
  ∃ first later : Symbol, symbols[index]? = some later ∧
    symbols.find? (fun symbol => symbol.name == later.name) = some first ∧
    duplicate? files (later, first) = some problem

/-! ## Clashes within one name -/

/-- A symbol with the first one of its name, unless both are packages. -/
def clash? (first later : Symbol) : Option (Symbol × Symbol) :=
  if first.kind == .package && later.kind == .package then none else some (later, first)

/-- The clashes of symbols that have one name. -/
def clashesOf : List Symbol → List (Symbol × Symbol)
  | [] => []
  | first :: rest => rest.filterMap (clash? first)

theorem clashesOf_concat (symbols : List Symbol) (last : Symbol) :
    clashesOf (symbols ++ [last]) =
      clashesOf symbols ++ (symbols.head?.bind fun first => clash? first last).toList := by
  cases symbols with
  | nil => rfl
  | cons first rest =>
    rw [List.cons_append, clashesOf, clashesOf, List.filterMap_append, List.head?_cons,
      Option.bind_some, List.filterMap_cons]
    cases clash? first last <;> rfl

theorem clash?_eq_some {first later : Symbol} {clash : Symbol × Symbol} :
    clash? first later = some clash ↔
      ¬(first.kind = .package ∧ later.kind = .package) ∧ clash = (later, first) := by
  rw [clash?, Option.ite_none_left_eq_some, Bool.and_eq_true, beq_iff_eq, beq_iff_eq,
    Option.some.injEq, eq_comm (a := clash)]

theorem mem_of_clash {first : Symbol} {clash : Symbol × Symbol}
    (h : clash ∈ symbols.filterMap (clash? first)) : clash.1 ∈ symbols := by
  obtain ⟨later, hlater, hclash⟩ := List.mem_filterMap.mp h
  obtain ⟨-, rfl⟩ := clash?_eq_some.mp hclash
  exact hlater

/-- What stands behind the symbols with the name of the first one has a greater name. -/
theorem lt_of_mem_dropWhile {first : Symbol}
    (h : (first :: symbols).Pairwise fun first second => first.name ≤ second.name)
    {symbol : Symbol}
    (hsymbol : symbol ∈ symbols.dropWhile fun symbol => symbol.name == first.name) :
    first.name < symbol.name := by
  obtain ⟨least, ordered⟩ := List.pairwise_cons.mp h
  induction symbols with
  | nil => cases hsymbol
  | cons second rest ih =>
    obtain ⟨next, later⟩ := List.pairwise_cons.mp ordered
    have hleast : ∀ symbol ∈ rest, first.name ≤ symbol.name := fun symbol hrest =>
      least symbol (List.mem_cons_of_mem _ hrest)
    rw [List.dropWhile_cons] at hsymbol
    split at hsymbol
    case isTrue => exact ih (List.pairwise_cons.mpr ⟨hleast, later⟩) hsymbol hleast later
    case isFalse hname =>
      have hne : second.name ≠ first.name := fun heq => hname (beq_iff_eq.mpr heq)
      have hlt : first.name < second.name :=
        lt_of_le_of_ne (least second List.mem_cons_self) hne.symm
      rcases List.mem_cons.mp hsymbol with rfl | hrest
      · exact hlt
      · exact hlt.trans_le (next symbol hrest)

theorem clashesFrom_cons (first : Symbol) (rest : List Symbol) :
    clashesFrom (first :: rest) =
      (rest.takeWhile fun symbol => symbol.name == first.name).filterMap (clash? first) ++
        clashesFrom (rest.dropWhile fun symbol => symbol.name == first.name) := by
  rw [clashesFrom]
  congr 1
  generalize rest.takeWhile _ = named
  induction named with
  | nil => rfl
  | cons symbol named ih =>
    rw [List.filter_cons, List.filterMap_cons, ← ih, clash?]
    cases first.kind == .package && symbol.kind == .package <;> rfl

/-- In a list that is sorted the symbols with the name of the first one come first. -/
theorem exists_run {first : Symbol} {rest : List Symbol}
    (h : (first :: rest).Pairwise fun first second => first.name ≤ second.name) :
    ∃ named others, rest = named ++ others ∧
      clashesFrom (first :: rest) = named.filterMap (clash? first) ++ clashesFrom others ∧
      (∀ symbol ∈ named, symbol.name = first.name) ∧
      ∀ symbol ∈ others, first.name < symbol.name := by
  refine ⟨_, _, List.takeWhile_append_dropWhile.symm, clashesFrom_cons first rest, ?_, ?_⟩
  · intro symbol hsymbol
    have named := List.all_eq_true.mp (List.all_takeWhile (l := rest)) symbol hsymbol
    exact beq_iff_eq.mp named
  · intro symbol hsymbol
    exact lt_of_mem_dropWhile h hsymbol

/-- In a list that is sorted the clashes of a name are those of the symbols with that name. -/
theorem filter_clashesFrom (h : symbols.Pairwise fun first second => first.name ≤ second.name)
    (name : String) :
    (clashesFrom symbols).filter (fun clash => clash.1.name == name) =
      clashesOf (symbols.filter fun symbol => symbol.name == name) := by
  induction hlength : symbols.length using Nat.strong_induction_on generalizing symbols with
  | _ length ih =>
  cases symbols with
  | nil =>
    rw [clashesFrom]
    rfl
  | cons first rest =>
    obtain ⟨named, others, rfl, hclashes, same, greater⟩ := exists_run h
    have ordered := (List.pairwise_append.mp (List.pairwise_cons.mp h).2).2.1
    have shorter : others.length < length := by
      rw [← hlength, List.length_cons, List.length_append]
      omega
    rw [hclashes, List.filter_append, ih others.length shorter ordered rfl, List.filter_cons,
      List.filter_append]
    by_cases hname : first.name = name
    · subst hname
      have all_named : named.filter (fun symbol => symbol.name == first.name) = named :=
        List.filter_eq_self.mpr fun symbol hsymbol => beq_iff_eq.mpr (same symbol hsymbol)
      have none_later : others.filter (fun symbol => symbol.name == first.name) = [] := by
        apply List.filter_eq_nil_iff.mpr
        intro symbol hsymbol heq
        exact (greater symbol hsymbol).ne' (beq_iff_eq.mp heq)
      have all_clashes : (named.filterMap (clash? first)).filter
          (fun clash => clash.1.name == first.name) = named.filterMap (clash? first) := by
        apply List.filter_eq_self.mpr
        intro clash hclash
        exact beq_iff_eq.mpr (same _ (mem_of_clash hclash))
      rw [all_named, none_later, all_clashes, if_pos (beq_self_eq_true _), List.append_nil,
        clashesOf, clashesOf, List.append_nil]
    · have none_named : named.filter (fun symbol => symbol.name == name) = [] := by
        apply List.filter_eq_nil_iff.mpr
        intro symbol hsymbol heq
        exact hname ((same symbol hsymbol).symm.trans (beq_iff_eq.mp heq))
      have no_clash : (named.filterMap (clash? first)).filter
          (fun clash => clash.1.name == name) = [] := by
        apply List.filter_eq_nil_iff.mpr
        intro clash hclash heq
        exact hname ((same _ (mem_of_clash hclash)).symm.trans (beq_iff_eq.mp heq))
      rw [none_named, no_clash, if_neg fun heq => hname (beq_iff_eq.mp heq), List.nil_append,
        List.nil_append]

/-! ## Clashes in the order of insertion -/

/-- The clash of the symbol at an index with the first one of its name, if that is an earlier
one. -/
def clashAt? (symbols : List Symbol) (index : Nat) : Option (Symbol × Symbol) := do
  let later ← symbols[index]?
  let first ← (symbols.take index).find? fun symbol => symbol.name == later.name
  clash? first later

/-- What is behind a symbol has no part in its clash. -/
theorem clashAt?_append {index : Nat} (h : index < symbols.length) (more : List Symbol) :
    clashAt? (symbols ++ more) index = clashAt? symbols index := by
  rw [clashAt?, clashAt?, List.getElem?_append_left h, List.take_append_of_le_length h.le]

/-- The symbol behind others clashes with the first of those with its name. -/
theorem clashAt?_length (symbols : List Symbol) (last : Symbol) :
    clashAt? (symbols ++ [last]) symbols.length =
      (symbols.find? fun symbol => symbol.name == last.name).bind fun first =>
        clash? first last := by
  rw [clashAt?, List.getElem?_concat_length, List.take_left]
  rfl

/-- What the symbol behind others clashes with has its name. -/
theorem filter_clashAt_length (symbols : List Symbol) (last : Symbol) (name : String) :
    ([symbols.length].filterMap (clashAt? (symbols ++ [last]))).filter
        (fun clash => clash.1.name == name) =
      if last.name = name then
        ((symbols.find? fun symbol => symbol.name == name).bind fun first =>
          clash? first last).toList
      else [] := by
  rw [List.filterMap_cons, List.filterMap_nil, clashAt?_length]
  by_cases hname : last.name = name
  · subst hname
    rw [if_pos rfl]
    cases hclash : (symbols.find? fun symbol => symbol.name == last.name).bind
      fun first => clash? first last with
    | none => rfl
    | some clash =>
      obtain ⟨first, -, hlast⟩ := Option.bind_eq_some_iff.mp hclash
      obtain ⟨-, rfl⟩ := clash?_eq_some.mp hlast
      exact List.filter_cons_of_pos (beq_self_eq_true last.name)
  · rw [if_neg hname]
    cases hclash : (symbols.find? fun symbol => symbol.name == last.name).bind
      fun first => clash? first last with
    | none => rfl
    | some clash =>
      obtain ⟨first, -, hlast⟩ := Option.bind_eq_some_iff.mp hclash
      obtain ⟨-, rfl⟩ := clash?_eq_some.mp hlast
      exact List.filter_cons_of_neg fun heq => hname (beq_iff_eq.mp heq)

/-- The clashes of the symbols with a name, in the order of insertion. -/
theorem filter_clashAt (symbols : List Symbol) (name : String) :
    ((List.range symbols.length).filterMap (clashAt? symbols)).filter
        (fun clash => clash.1.name == name) =
      clashesOf (symbols.filter fun symbol => symbol.name == name) := by
  induction symbols using List.reverseRecOn with
  | nil => rfl
  | append_singleton symbols last ih =>
    have earlier : (List.range symbols.length).filterMap (clashAt? (symbols ++ [last])) =
        (List.range symbols.length).filterMap (clashAt? symbols) := by
      apply List.filterMap_congr
      intro index hindex
      exact clashAt?_append (List.mem_range.mp hindex) [last]
    rw [List.length_append, List.length_singleton, List.range_succ, List.filterMap_append, earlier,
      List.filter_append, ih, filter_clashAt_length, List.filter_append]
    by_cases hname : last.name = name
    · rw [if_pos hname, List.filter_cons, if_pos (beq_iff_eq.mpr hname), List.filter_nil,
        clashesOf_concat, List.head?_filter]
    · rw [if_neg hname, List.filter_cons, if_neg fun heq => hname (beq_iff_eq.mp heq),
        List.filter_nil, List.append_nil, List.append_nil]

/-- Clashes are the same up to their order if those of each name are. -/
theorem perm_of_filter_name {clashes clashes' : List (Symbol × Symbol)}
    (h : ∀ name : String, clashes.filter (fun clash => clash.1.name == name) =
      clashes'.filter fun clash => clash.1.name == name) : clashes.Perm clashes' := by
  apply List.perm_iff_count.mpr
  intro clash
  have count (clashes : List (Symbol × Symbol)) :
      (clashes.filter fun other => other.1.name == clash.1.name).count clash =
        clashes.count clash :=
    List.count_filter (beq_self_eq_true clash.1.name)
  rw [← count, h, count]

/-- Sorting the table changes the order of the clashes and nothing else. -/
theorem clashesFrom_sorted (table : SymbolTable) :
    (clashesFrom table.sorted.symbols.toList).Perm
      ((List.range table.symbols.toList.length).filterMap (clashAt? table.symbols.toList)) := by
  apply perm_of_filter_name
  intro name
  rw [filter_clashesFrom table.pairwise_sorted, filter_sorted, filter_clashAt]

/-! ## What is reported -/

theorem clashAt?_eq_some {clash : Symbol × Symbol} :
    clashAt? symbols index = some clash ↔ ∃ first later : Symbol, symbols[index]? = some later ∧
      (symbols.take index).find? (fun symbol => symbol.name == later.name) = some first ∧
      ¬(first.kind = .package ∧ later.kind = .package) ∧ clash = (later, first) := by
  constructor
  · intro h
    obtain ⟨later, hlater, h⟩ := Option.bind_eq_some_iff.mp h
    obtain ⟨first, hfirst, h⟩ := Option.bind_eq_some_iff.mp h
    exact ⟨first, later, hlater, hfirst, clash?_eq_some.mp h⟩
  · rintro ⟨first, later, hlater, hfirst, h⟩
    rw [clashAt?, hlater, Option.bind_eq_bind, Option.bind_some, hfirst]
    exact clash?_eq_some.mpr h

/-- The first of some symbols in front of an index is the first of them all. -/
theorem find?_of_find?_take {test : Symbol → Bool} {first : Symbol}
    (h : (symbols.take index).find? test = some first) : symbols.find? test = some first := by
  rw [← List.take_append_drop index symbols, List.find?_append, h]
  rfl

/-- A symbol is reported if it is defined twice and is not shielded. -/
theorem isSome_clashAt_iff :
    (∃ clash, clashAt? symbols index = some clash) ↔
      Redefines symbols index ∧ ¬Shielded symbols index := by
  constructor
  · rintro ⟨clash, h⟩
    obtain ⟨first, later, hlater, hfirst, differ, -⟩ := clashAt?_eq_some.mp h
    refine ⟨⟨first, later, hlater, List.mem_of_find?_eq_some hfirst, ?_, differ⟩, ?_⟩
    · have named := List.find?_some hfirst
      exact beq_iff_eq.mp named
    · rintro ⟨first', later', hlater', hfirst', packages⟩
      obtain rfl := Option.some.inj (hlater.symm.trans hlater')
      obtain rfl := Option.some.inj ((find?_of_find?_take hfirst).symm.trans hfirst')
      exact differ packages
  · rintro ⟨⟨earlier, later, hlater, hearlier, hname, -⟩, unshielded⟩
    obtain ⟨first, hfirst⟩ : ∃ first,
        (symbols.take index).find? (fun symbol => symbol.name == later.name) = some first :=
      Option.isSome_iff_exists.mp
        (List.find?_isSome.mpr ⟨earlier, hearlier, beq_iff_eq.mpr hname⟩)
    refine ⟨(later, first), clashAt?_eq_some.mpr ⟨first, later, hlater, hfirst, ?_, rfl⟩⟩
    intro packages
    exact unshielded ⟨first, later, hlater, find?_of_find?_take hfirst, packages⟩

/-- A clash is reported at the index where it is found. -/
theorem reports_of_clashAt {files : List Path} {clash : Symbol × Symbol} {problem : Problem}
    (h : clashAt? symbols index = some clash) (reported : duplicate? files clash = some problem) :
    Reports symbols files index problem := by
  obtain ⟨first, later, hlater, hfirst, -, rfl⟩ := clashAt?_eq_some.mp h
  exact ⟨first, later, hlater, find?_of_find?_take hfirst, reported⟩

/-- If each clash has a report, there is a list of the reports. -/
theorem exists_reports {files : List Path} {clashes : List (Symbol × Symbol)}
    (each : ∀ clash ∈ clashes, ∃ problem, duplicate? files clash = some problem) :
    ∃ problems, clashes.mapM (duplicate? files) = some problems ∧
      List.Forall₂ (fun clash problem => duplicate? files clash = some problem)
        clashes problems := by
  induction clashes with
  | nil => exact ⟨[], rfl, .nil⟩
  | cons clash rest ih =>
    obtain ⟨problem, hproblem⟩ := each clash List.mem_cons_self
    obtain ⟨problems, hrest, reported⟩ := ih fun other hother =>
      each other (List.mem_cons_of_mem _ hother)
    refine ⟨problem :: problems, ?_, .cons hproblem reported⟩
    rw [List.mapM_cons, hproblem, hrest]
    rfl

/-- The indices at which there is a clash, with what is found there. -/
theorem forall₂_clashAt (symbols : List Symbol) (indices : List Nat) :
    List.Forall₂ (fun clash index => clashAt? symbols index = some clash)
      (indices.filterMap (clashAt? symbols))
      (indices.filter fun index => (clashAt? symbols index).isSome) := by
  induction indices with
  | nil => exact .nil
  | cons index rest ih =>
    rw [List.filterMap_cons, List.filter_cons]
    cases h : clashAt? symbols index with
    | none => exact ih
    | some clash => exact .cons h ih

theorem forall₂_reports {files : List Path} {clashes : List (Symbol × Symbol)}
    {indices : List Nat} {problems : List Problem}
    (found : List.Forall₂ (fun clash index => clashAt? symbols index = some clash) clashes indices)
    (reported : List.Forall₂ (fun clash problem => duplicate? files clash = some problem)
      clashes problems) :
    List.Forall₂ (Reports symbols files) indices problems := by
  induction found generalizing problems with
  | nil =>
    cases reported
    exact .nil
  | cons hclash _ ih =>
    obtain ⟨problem, rest, hproblem, hrest, rfl⟩ := List.forall₂_cons_left_iff.mp reported
    exact .cons (reports_of_clashAt hclash hproblem) (ih hrest)

/-- Finishing a table reports each symbol that repeats a name, once, unless it is shielded, and
reports nothing else. -/
theorem duplicates_sorted (symbols : List Symbol) (files : List Path)
    (inside : ∀ symbol ∈ symbols, symbol.file < files.length) :
    ∃ problems indices,
      (empty.insertAll symbols).sorted.duplicates? files = some problems ∧ indices.Nodup ∧
      (∀ index, index ∈ indices ↔ Redefines symbols index ∧ ¬Shielded symbols index) ∧
      List.Forall₂ (Reports symbols files) indices problems := by
  have inserted : (empty.insertAll symbols).symbols.toList = symbols := by
    rw [toList_insertAll]
    exact List.nil_append _
  have sorted := (empty.insertAll symbols).clashesFrom_sorted
  have kept := (empty.insertAll symbols).perm_sorted
  rw [inserted] at sorted kept
  obtain ⟨indices, found, perm⟩ := List.perm_comp_forall₂ sorted
    (forall₂_clashAt symbols (List.range symbols.length))
  have each (clash) (hclash : clash ∈ clashesFrom (empty.insertAll symbols).sorted.symbols.toList) :
      ∃ problem, duplicate? files clash = some problem := by
    obtain ⟨later, earlier⟩ := mem_of_mem_clashesFrom hclash
    obtain ⟨name, file, token, previous, h⟩ :=
      exists_duplicate (inside _ (kept.mem_iff.mp later)) (inside _ (kept.mem_iff.mp earlier))
    exact ⟨_, h⟩
  obtain ⟨problems, hproblems, reported⟩ := exists_reports each
  refine ⟨problems, indices, hproblems, ?_, ?_, forall₂_reports found reported⟩
  · exact perm.nodup_iff.mpr (List.nodup_range.filter _)
  · intro index
    rw [perm.mem_iff, List.mem_filter, List.mem_range, Option.isSome_iff_exists,
      ← isSome_clashAt_iff]
    constructor
    · rintro ⟨-, clash⟩
      exact clash
    · rintro ⟨clash, hclash⟩
      obtain ⟨first, later, hlater, -⟩ := clashAt?_eq_some.mp hclash
      exact ⟨(List.getElem?_eq_some_iff.mp hlater).1, clash, hclash⟩

/-- A message that has the name of a package in front of it is reported. -/
theorem duplicates_sorted_packageMessage :
    let symbols : List Symbol := [⟨"a", .package, 0, 0⟩, ⟨"a", .message, 1, 0⟩]
    let files : List Path := [⟨"/0.proto"⟩, ⟨"/1.proto"⟩]
    (∀ symbol ∈ symbols, symbol.file < files.length) ∧ ∃ problems indices,
      (empty.insertAll symbols).sorted.duplicates? files = some problems ∧ indices.Nodup ∧
      (∀ index, index ∈ indices ↔ Redefines symbols index ∧ ¬Shielded symbols index) ∧
      List.Forall₂ (Reports symbols files) indices problems :=
  ⟨by decide, duplicates_sorted _ _ (by decide)⟩

/-- A package that has the name of a message is not reported if the name was first that of a
package. -/
theorem unreported_packageSplit :
    let symbols : List Symbol :=
      [⟨"a", .package, 0, 0⟩, ⟨"a", .message, 1, 0⟩, ⟨"a", .package, 2, 0⟩]
    let files : List Path := [⟨"/0.proto"⟩, ⟨"/1.proto"⟩, ⟨"/2.proto"⟩]
    Redefines symbols 2 ∧ ∃ problems,
      (empty.insertAll symbols).sorted.duplicates? files = some problems ∧
      ∀ problem ∈ problems, ¬Reports symbols files 2 problem := by
  intro symbols files
  have sorted : (empty.insertAll symbols).sorted = ⟨symbols.toArray⟩ := by
    have ordered : symbols.Pairwise fun first second => inOrder first second := by decide
    exact congrArg (fun symbols => (⟨symbols.toArray⟩ : SymbolTable))
      (List.mergeSort_of_pairwise ordered)
  refine ⟨?_, [.duplicateSymbol "a" ⟨"/1.proto"⟩ 0 ⟨"/0.proto"⟩], ?_, ?_⟩
  · refine ⟨⟨"a", .message, 1, 0⟩, ⟨"a", .package, 2, 0⟩, rfl, ?_, rfl, ?_⟩ <;> decide
  · rw [sorted]
    simp [duplicates?, clashesFrom, symbols, files, duplicate?]
  · intro problem hproblem
    rintro ⟨first, later, hlater, hfirst, hreport⟩
    obtain rfl := List.mem_singleton.mp hproblem
    obtain rfl := Option.some.inj hlater
    obtain rfl := Option.some.inj hfirst
    revert hreport
    decide

end SymbolTable

end ProtoFront
