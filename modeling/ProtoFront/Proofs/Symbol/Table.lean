import Mathlib.Data.String.Basic
import ProtoFront.Symbol.Lookup

/-!
# Searching the symbol table

A table that is sorted by name has the symbols with one name side by side, behind those with lesser
names and in front of those with greater ones, and halving finds where they begin and where they
end. Sorting keeps the order of the symbols that have one name. So looking up a name in the sorted
table gives the symbols that have it, in the order in which they were inserted
(`SymbolTable.lookup_sorted`).
-/

namespace ProtoFront

namespace SymbolTable

variable {table : SymbolTable} {symbols before named after : List Symbol} {name : String}

/-! ## Halving -/

/-- Halving finds the point up to which a test holds and from which on it fails. -/
theorem partitionPoint_eq {test : Symbol → Bool} {low middle high : Nat} (above : low ≤ middle)
    (below : middle ≤ high)
    (holds : ∀ index, low ≤ index → index < middle → (table.symbols[index]?).any test = true)
    (fails : ∀ index, middle ≤ index → index < high → (table.symbols[index]?).any test = false) :
    table.partitionPoint test low high = middle := by
  induction hleft : high - low using Nat.strong_induction_on generalizing low high with
  | _ left ih =>
    rw [partitionPoint]
    split
    case isTrue hlt =>
      by_cases hpoint : (low + high) / 2 < middle
      · -- the middle passes, so the point is behind it
        rw [if_pos (holds _ (by omega) hpoint)]
        refine ih (high - ((low + high) / 2 + 1)) (by omega) (by omega) below ?_ fails rfl
        exact fun index hindex => holds index (by omega)
      · rw [if_neg (Bool.eq_false_iff.mp (fails _ (by omega) (by omega)))]
        refine ih ((low + high) / 2 - low) (by omega) above (by omega) holds ?_ rfl
        exact fun index hindex hbefore => fails index hindex (by omega)
    case isFalse => omega

/-- What a test holds of ends where it fails for the first time. -/
theorem partitionPoint_append {test : Symbol → Bool}
    (h : table.symbols.toList = before ++ named ++ after)
    (holds : ∀ symbol ∈ named, test symbol = true) (fails : ∀ symbol ∈ after, test symbol = false) :
    table.partitionPoint test before.length table.size = before.length + named.length := by
  have hsize : table.size = before.length + named.length + after.length := by
    rw [size, ← Array.length_toList, h, List.length_append, List.length_append]
  have get (index : Nat) : table.symbols[index]? = (before ++ named ++ after)[index]? := by
    rw [← h, Array.getElem?_toList]
  refine partitionPoint_eq (Nat.le_add_right _ _) (by omega) ?_ ?_
  · intro index hindex hlt
    have hinner : index - before.length < named.length := by omega
    rw [get, List.append_assoc, List.getElem?_append_right hindex,
      List.getElem?_append_left hinner, List.getElem?_eq_getElem hinner, Option.any_some]
    exact holds _ (List.getElem_mem hinner)
  · intro index hindex hlt
    have houter : index - (before ++ named).length < after.length := by
      rw [List.length_append]
      omega
    rw [get, List.getElem?_append_right (by rw [List.length_append]; exact hindex),
      List.getElem?_eq_getElem houter, Option.any_some]
    exact fails _ (List.getElem_mem houter)

/-- A name is found where its symbols stand. -/
theorem lookup_eq (h : table.symbols.toList = before ++ named ++ after)
    (lesser : ∀ symbol ∈ before, symbol.name < name)
    (same : ∀ symbol ∈ named, symbol.name = name)
    (greater : ∀ symbol ∈ after, name < symbol.name) : table.lookup name = named := by
  have start : table.partitionPoint (fun symbol => symbol.name < name) 0 table.size =
      before.length := by
    have split : table.symbols.toList = [] ++ before ++ (named ++ after) := by
      rw [h, List.nil_append, List.append_assoc]
    have fails (symbol : Symbol) (hsymbol : symbol ∈ named ++ after) :
        decide (symbol.name < name) = false := by
      rcases List.mem_append.mp hsymbol with hnamed | hafter
      · rw [same symbol hnamed]
        exact decide_eq_false (String.lt_irrefl name)
      · exact decide_eq_false (lt_asymm (greater symbol hafter))
    have hpoint := partitionPoint_append split
      (fun symbol hsymbol => decide_eq_true (lesser symbol hsymbol)) fails
    rwa [List.length_nil, Nat.zero_add] at hpoint
  have stop : table.partitionPoint (fun symbol => symbol.name == name) before.length table.size =
      before.length + named.length :=
    partitionPoint_append h (fun symbol hsymbol => beq_iff_eq.mpr (same symbol hsymbol))
      fun symbol hsymbol => beq_eq_false_iff_ne.mpr (greater symbol hsymbol).ne'
  rw [lookup, start, stop, Array.toList_extract, h]
  simp

/-! ## Sorting -/

/-- The order of a sorted table. -/
def inOrder (first second : Symbol) : Bool := !decide (second.name < first.name)

theorem inOrder_iff {first second : Symbol} :
    inOrder first second = true ↔ first.name ≤ second.name := by
  rw [inOrder, Bool.not_eq_true', decide_eq_false_iff_not, not_lt]

theorem inOrder_trans (first second third : Symbol) (h : inOrder first second = true)
    (h' : inOrder second third = true) : inOrder first third = true :=
  inOrder_iff.mpr ((inOrder_iff.mp h).trans (inOrder_iff.mp h'))

theorem inOrder_total (first second : Symbol) :
    (inOrder first second || inOrder second first) = true := by
  rw [Bool.or_eq_true, inOrder_iff, inOrder_iff]
  exact le_total _ _

theorem toList_sorted (table : SymbolTable) :
    table.sorted.symbols.toList = table.symbols.toList.mergeSort inOrder := rfl

theorem pairwise_sorted (table : SymbolTable) :
    table.sorted.symbols.toList.Pairwise fun first second => first.name ≤ second.name := by
  rw [toList_sorted]
  exact (List.pairwise_mergeSort inOrder_trans inOrder_total _).imp inOrder_iff.mp

/-- Sorting adds nothing and loses nothing. -/
theorem perm_sorted (table : SymbolTable) :
    table.sorted.symbols.toList.Perm table.symbols.toList :=
  List.mergeSort_perm _ _

/-- Symbols with one name keep their order. -/
theorem filter_sorted (table : SymbolTable) (name : String) :
    table.sorted.symbols.toList.filter (fun symbol => symbol.name == name) =
      table.symbols.toList.filter fun symbol => symbol.name == name := by
  have level : (table.symbols.toList.filter fun symbol => symbol.name == name).Pairwise
      fun first second => inOrder first second = true := by
    refine List.pairwise_filter.mpr (List.pairwise_of_forall fun first second => ?_)
    intro hfirst hsecond
    exact inOrder_iff.mpr ((beq_iff_eq.mp hfirst).trans (beq_iff_eq.mp hsecond).symm).le
  have kept := (List.sublist_mergeSort inOrder_trans inOrder_total level List.filter_sublist).filter
    fun symbol => symbol.name == name
  rw [List.filter_filter, ← toList_sorted] at kept
  simp only [Bool.and_self] at kept
  exact (kept.eq_of_length ((table.perm_sorted.filter _).length_eq).symm).symm

/-- In a list that is sorted the symbols with a name have the lesser ones in front of them and the
greater ones behind them. -/
theorem eq_append_of_pairwise
    (h : symbols.Pairwise fun first second => first.name ≤ second.name) (name : String) :
    symbols = symbols.filter (fun symbol => symbol.name < name) ++
      symbols.filter (fun symbol => symbol.name == name) ++
      symbols.filter (fun symbol => name < symbol.name) := by
  induction h with
  | nil => rfl
  | @cons first rest least _ ih =>
    have noLesser (le : name ≤ first.name) :
        rest.filter (fun symbol => symbol.name < name) = [] := by
      refine List.filter_eq_nil_iff.mpr fun symbol hsymbol hlt => ?_
      exact not_lt_of_ge (le.trans (least symbol hsymbol)) (of_decide_eq_true hlt)
    rw [List.filter_cons, List.filter_cons, List.filter_cons]
    rcases lt_trichotomy first.name name with hlt | heq | hgt
    · rw [if_pos (decide_eq_true hlt), if_neg fun heq => hlt.ne (beq_iff_eq.mp heq),
        if_neg fun hgt => lt_asymm hlt (of_decide_eq_true hgt), List.cons_append,
        List.cons_append, ← ih]
    · rw [noLesser heq.ge, List.nil_append] at ih
      rw [if_neg fun hlt => (of_decide_eq_true hlt).ne heq, noLesser heq.ge,
        if_pos (beq_iff_eq.mpr heq), if_neg fun hgt => (of_decide_eq_true hgt).ne' heq,
        List.nil_append, List.cons_append, ← ih]
    · have noSame : rest.filter (fun symbol => symbol.name == name) = [] := by
        refine List.filter_eq_nil_iff.mpr fun symbol hsymbol heq => ?_
        exact (hgt.trans_le (least symbol hsymbol)).ne' (beq_iff_eq.mp heq)
      rw [noLesser hgt.le, noSame, List.nil_append, List.nil_append] at ih
      rw [if_neg fun hlt => lt_asymm hgt (of_decide_eq_true hlt), noLesser hgt.le,
        if_neg fun heq => hgt.ne' (beq_iff_eq.mp heq), noSame, if_pos (decide_eq_true hgt),
        List.nil_append, List.nil_append, ← ih]

/-! ## Looking up -/

/-- Looking up a name in a sorted table finds the symbols with it in the order in which they were
inserted. -/
theorem lookup_sorted (table : SymbolTable) (name : String) :
    table.sorted.lookup name = table.symbols.toList.filter fun symbol => symbol.name == name := by
  rw [← table.filter_sorted]
  refine lookup_eq (eq_append_of_pairwise table.pairwise_sorted name) ?_ ?_ ?_
  · exact fun symbol hsymbol => of_decide_eq_true (List.mem_filter.mp hsymbol).2
  · exact fun symbol hsymbol => beq_iff_eq.mp (List.mem_filter.mp hsymbol).2
  · exact fun symbol hsymbol => of_decide_eq_true (List.mem_filter.mp hsymbol).2

/-- What can be seen of a name is the symbol with it that was inserted first among those in files
that can be seen. -/
theorem lookupVisible_sorted (table : SymbolTable) (name : String) (visible : List Nat) :
    table.sorted.lookupVisible name visible = table.symbols.toList.find? fun symbol =>
      symbol.name == name && visible.contains symbol.file := by
  rw [lookupVisible, lookup_sorted, List.find?_filter]
  refine congrArg (fun test => table.symbols.toList.find? test) (funext fun symbol => ?_)
  rw [Bool.decide_and, Bool.decide_eq_true, Bool.decide_eq_true]

/-- What is found of a name in sight is a symbol of the table in a file that can be seen. -/
theorem mem_of_lookupVisible {visible : List Nat} {symbol : Symbol}
    (h : table.lookupVisible name visible = some symbol) :
    symbol ∈ table.symbols ∧ symbol.file ∈ visible := by
  rw [lookupVisible] at h
  have found := List.mem_of_find?_eq_some h
  have seen := List.find?_some h
  rw [lookup, Array.mem_toList_iff, Array.mem_extract_iff_getElem] at found
  obtain ⟨index, hindex, rfl⟩ := found
  exact ⟨Array.getElem_mem _, List.contains_iff_mem.mp seen⟩

/-- What one scope settles on is a symbol of the table in a file that can be seen. -/
theorem mem_of_decideIn {visible : List Nat} {first scope : String} {rest? : Option String}
    {symbol : Symbol} (h : table.decideIn visible first rest? scope = some (some symbol)) :
    symbol ∈ table.symbols ∧ symbol.file ∈ visible := by
  simp only [decideIn] at h
  split at h
  case h_1 => cases h
  case h_2 hfound =>
    obtain ⟨-, hsame⟩ := Option.ite_none_right_eq_some.mp h
    obtain rfl := Option.some.inj (Option.some.inj hsame)
    exact mem_of_lookupVisible hfound
  case h_3 =>
    obtain ⟨-, hinner⟩ := Option.ite_none_right_eq_some.mp h
    exact mem_of_lookupVisible (Option.some.inj hinner)

/-- A type that is found is a symbol of the table in a file that can be seen. -/
theorem mem_of_lookupType {visible : List Nat} {scope : String} {symbol : Symbol}
    (h : table.lookupType visible scope name = some symbol) :
    symbol ∈ table.symbols ∧ symbol.file ∈ visible := by
  rw [lookupType] at h
  split at h
  case h_1 => exact mem_of_lookupVisible h
  case h_2 =>
    simp only [Option.join_eq_some_iff] at h
    obtain ⟨scope, -, hscope⟩ := List.exists_of_findSome?_eq_some h
    exact mem_of_decideIn hscope

/-- Which type is found depends only on what can be seen under each name. -/
theorem lookupType_congr {other : SymbolTable} {visible : List Nat}
    (same : ∀ name, table.lookupVisible name visible = other.lookupVisible name visible)
    (scope name : String) :
    table.lookupType visible scope name = other.lookupType visible scope name := by
  simp only [lookupType, decideIn, same]

/-! ## Inserting -/

theorem toList_insertAll (table : SymbolTable) (symbols : List Symbol) :
    (table.insertAll symbols).symbols.toList = table.symbols.toList ++ symbols := by
  induction symbols generalizing table with
  | nil => exact (List.append_nil _).symm
  | cons first rest ih =>
    have first_inserted := ih (table.insert first)
    rw [insert, Array.toList_push, List.append_assoc] at first_inserted
    exact first_inserted

/-- What is inserted in turns stands in the order of the turns. -/
theorem toList_foldl_insertAll {α : Type} (found : α → List Symbol) (sources : List α)
    (table : SymbolTable) :
    (sources.foldl (fun table source => table.insertAll (found source)) table).symbols.toList =
      table.symbols.toList ++ sources.flatMap found := by
  induction sources generalizing table with
  | nil => exact (List.append_nil _).symm
  | cons first rest ih =>
    rw [List.foldl_cons, ih, toList_insertAll, List.flatMap_cons, List.append_assoc]

/-! ## Clashes -/

/-- Symbols that clash are in the table. -/
theorem mem_of_mem_clashesFrom {clash : Symbol × Symbol} (h : clash ∈ clashesFrom symbols) :
    clash.1 ∈ symbols ∧ clash.2 ∈ symbols := by
  fun_induction clashesFrom symbols
  case case1 => cases h
  case case2 first rest named ih =>
    rcases List.mem_append.mp h with hfirst | hlater
    · obtain ⟨symbol, hsymbol, rfl⟩ := List.mem_map.mp hfirst
      have hnamed := (List.takeWhile_sublist _).subset (List.mem_filter.mp hsymbol).1
      exact ⟨List.mem_cons_of_mem _ hnamed, List.mem_cons_self⟩
    · have later : rest.dropWhile (fun symbol => symbol.name == first.name) ⊆ rest :=
        (List.dropWhile_sublist _).subset
      exact ⟨List.mem_cons_of_mem _ (later (ih hlater).1),
        List.mem_cons_of_mem _ (later (ih hlater).2)⟩

/-- Clashes are reported if both symbols are in files that have a path. -/
theorem exists_duplicate {files : List Path} {clash : Symbol × Symbol}
    (later : clash.1.file < files.length) (earlier : clash.2.file < files.length) :
    ∃ name file token previous,
      duplicate? files clash = some (.duplicateSymbol name file token previous) := by
  obtain ⟨file, hfile⟩ : ∃ file, files[clash.1.file]? = some file :=
    ⟨_, List.getElem?_eq_getElem later⟩
  obtain ⟨previous, hprevious⟩ : ∃ previous, files[clash.2.file]? = some previous :=
    ⟨_, List.getElem?_eq_getElem earlier⟩
  refine ⟨clash.1.name, file, clash.1.token, previous, ?_⟩
  rw [duplicate?, hfile, hprevious]
  rfl

/-- Every clash is reported if all symbols are in files that have a path. -/
theorem exists_duplicates {files : List Path}
    (inside : ∀ symbol ∈ table.symbols, symbol.file < files.length) :
    ∃ problems, table.duplicates? files = some problems ∧ ∀ problem ∈ problems,
      ∃ name file token previous, problem = .duplicateSymbol name file token previous := by
  have each (clash : Symbol × Symbol) (h : clash ∈ clashesFrom table.symbols.toList) :
      ∃ name file token previous,
        duplicate? files clash = some (.duplicateSymbol name file token previous) := by
    obtain ⟨later, earlier⟩ := mem_of_mem_clashesFrom h
    exact exists_duplicate (inside _ (Array.mem_toList_iff.mp later))
      (inside _ (Array.mem_toList_iff.mp earlier))
  rw [duplicates?]
  generalize clashesFrom table.symbols.toList = clashes at each ⊢
  induction clashes with
  | nil => exact ⟨[], rfl, nofun⟩
  | cons clash rest ih =>
    obtain ⟨name, file, token, previous, hclash⟩ := each clash List.mem_cons_self
    obtain ⟨problems, hrest, reports⟩ := ih fun other hother =>
      each other (List.mem_cons_of_mem _ hother)
    refine ⟨.duplicateSymbol name file token previous :: problems, ?_, ?_⟩
    · rw [List.mapM_cons, hclash, hrest]
      rfl
    · intro problem hproblem
      rcases List.mem_cons.mp hproblem with rfl | hlater
      · exact ⟨name, file, token, previous, rfl⟩
      · exact reports problem hlater

end SymbolTable

end ProtoFront
