import Mathlib.Data.List.TakeWhile
import ProtoFront.Proofs.Symbol.Names
import ProtoFront.Proofs.Symbol.Table

/-!
# What a name means

The rules by which a name is looked up (`SymbolTable.Finds`) speak of scopes and of what can be
seen under a full name, not of a search: a relative name means what it means in the innermost scope
that has a say (`Innermost`), and if no scope has one it means nothing. The search goes through
those scopes, each shorter than the one before it, and stops at the first that decides, so it finds
what the rules say (`SymbolTable.lookupType_eq_iff`).
-/

namespace ProtoFront

/-! ## Scopes around a scope -/

/-- The scopes around a scope: the scope itself, what stands in front of one of its dots, and the
empty scope. -/
def Surrounds (outer scope : String) : Prop :=
  outer = scope ∨ (∃ inner, scope = outer ++ "." ++ inner) ∨ outer = ""

/-- The innermost of the scopes around a scope of which a property holds: the longest. -/
structure Innermost (holds : String → Prop) (scope inner : String) : Prop where
  surrounds : Surrounds inner scope
  settles : holds inner
  longest : ∀ outer, Surrounds outer scope → holds outer → outer.length ≤ inner.length

section Scopes

variable {scope outer : List Char}

/-- What encloses a scope stands in front of its last dot. -/
theorem enclosing_cases (scope : List Char) : ('.' ∉ scope ∧ enclosing scope = []) ∨
    ∃ last, '.' ∉ last ∧ scope = enclosing scope ++ '.' :: last := by
  obtain ⟨last, hlast, hsplit⟩ : ∃ last, '.' ∉ last ∧
      last ++ scope.reverse.dropWhile (· != '.') = scope.reverse := by
    refine ⟨_, fun hdot => ?_, List.takeWhile_append_dropWhile⟩
    simpa using List.mem_takeWhile_imp hdot
  have hhead := List.head?_dropWhile_not (· != '.') scope.reverse
  rw [← List.mem_reverse] at hlast
  rw [enclosing]
  cases hdrop : scope.reverse.dropWhile (· != '.') with
  | nil =>
    rw [hdrop, List.append_nil] at hsplit
    rw [hsplit, List.reverse_reverse] at hlast
    exact .inl ⟨hlast, rfl⟩
  | cons dot before =>
    rw [hdrop] at hhead hsplit
    have hdot : dot = '.' := by simpa using hhead
    refine .inr ⟨last.reverse, hlast, ?_⟩
    rw [← List.reverse_reverse scope, ← hsplit, hdot]
    simp

/-- The search goes through the scopes around a scope. -/
theorem mem_scopesOutward : outer ∈ scopesOutward scope ↔
    outer = scope ∨ (∃ inner, scope = outer ++ '.' :: inner) ∨ outer = [] := by
  induction hlength : scope.length using Nat.strong_induction_on generalizing scope with
  | _ length ih =>
    rw [scopesOutward]
    split
    case isTrue hempty => simp [hempty]
    case isFalse hinside =>
      rw [List.mem_cons, ih _ (hlength ▸ length_enclosing_lt hinside) rfl]
      refine or_congr_right ?_
      rcases enclosing_cases scope with ⟨hdot, hnone⟩ | ⟨last, hlast, hscope⟩
      · -- no dot: the empty scope is all that is left
        have hno : ¬∃ inner, scope = outer ++ '.' :: inner := by
          rintro ⟨inner, rfl⟩
          simp at hdot
        simp [hnone, hno]
      · constructor
        · rintro (rfl | ⟨inner, hinner⟩ | rfl)
          · exact .inl ⟨last, hscope⟩
          · exact .inl ⟨inner ++ '.' :: last, by rw [hscope, hinner]; simp⟩
          · exact .inr rfl
        · rintro (⟨inner, hinner⟩ | rfl)
          · -- the dot is the last one, or it is in front of the last one
            rw [hscope] at hinner
            rcases List.append_eq_append_iff.mp hinner with
              ⟨more, houter, hmore⟩ | ⟨more, henclosing, hmore⟩
            · cases more with
              | nil => exact .inl (by simpa using houter)
              | cons c more =>
                obtain ⟨-, rfl⟩ := List.cons.inj hmore
                simp at hlast
            · cases more with
              | nil => exact .inl (by simpa using henclosing.symm)
              | cons c more =>
                obtain ⟨rfl, -⟩ := List.cons.inj hmore
                exact .inr (.inl ⟨more, henclosing⟩)
          · exact .inr (.inr rfl)

/-- The search goes outwards. -/
theorem pairwise_scopesOutward (scope : List Char) :
    (scopesOutward scope).Pairwise fun inner outer => outer.length < inner.length := by
  induction hlength : scope.length using Nat.strong_induction_on generalizing scope with
  | _ length ih =>
    rw [scopesOutward]
    split
    case isTrue => exact List.pairwise_singleton _ _
    case isFalse hinside =>
      have hshorter := length_enclosing_lt hinside
      refine .cons ?_ (ih _ (hlength ▸ hshorter) _ rfl)
      intro outer houter
      rcases mem_scopesOutward.mp houter with rfl | ⟨inner, hinner⟩ | rfl
      · exact hshorter
      · rw [hinner, List.length_append] at hshorter
        omega
      · exact List.length_pos_iff.mpr hinside

theorem surrounds_iff {outer scope : String} :
    Surrounds outer scope ↔ outer.toList ∈ scopesOutward scope.toList := by
  rw [Surrounds, mem_scopesOutward]
  refine or_congr String.toList_inj.symm (or_congr ?_ ?_)
  · constructor
    · rintro ⟨inner, rfl⟩
      exact ⟨inner.toList, by simp⟩
    · rintro ⟨inner, hinner⟩
      exact ⟨String.ofList inner, String.toList_inj.mp (by simp [hinner])⟩
  · simp

end Scopes

/-! ## Names cut at a dot -/

theorem splitName_of_notMem {name : List Char} (h : '.' ∉ name) :
    splitName name = (name, none) := by
  have hdrop : name.dropWhile (· != '.') = [] := by
    rw [List.dropWhile_eq_nil_iff]
    intro c hc
    simpa using ne_of_mem_of_not_mem hc h
  rw [splitName, hdrop]

theorem splitName_append {first : List Char} (h : '.' ∉ first) (rest : List Char) :
    splitName (first ++ '.' :: rest) = (first, some rest) := by
  have hplain (c : Char) (hc : c ∈ first) : (c != '.') = true := by
    simpa using ne_of_mem_of_not_mem hc h
  rw [splitName, List.dropWhile_append_of_pos hplain, List.takeWhile_append_of_pos hplain]
  simp

/-- A name is cut at its first dot in one way only. -/
theorem eq_of_dotted {first other rest more : String} (hfirst : '.' ∉ first.toList)
    (hother : '.' ∉ other.toList) (h : first ++ "." ++ rest = other ++ "." ++ more) :
    first = other := by
  have hsplit := congrArg (fun name => (splitName name.toList).1) h
  simp only [String.toList_append] at hsplit
  have hdot : ".".toList = ['.'] := rfl
  rw [hdot, List.append_assoc, List.append_assoc, List.singleton_append, List.singleton_append,
    splitName_append hfirst, splitName_append hother] at hsplit
  exact String.toList_inj.mp hsplit

/-- A name has a dot in front, no dot at all, or a first part in front of its first dot. -/
theorem name_cases (name : String) : (∃ full, name = "." ++ full) ∨ '.' ∉ name.toList ∨
    ∃ first rest, first ≠ "" ∧ '.' ∉ first.toList ∧ name = first ++ "." ++ rest := by
  by_cases hdot : '.' ∈ name.toList
  · obtain ⟨first, rest, hname, hfirst⟩ := List.eq_append_cons_of_mem hdot
    by_cases hempty : first = []
    · refine .inl ⟨String.ofList rest, String.toList_inj.mp ?_⟩
      simp [hname, hempty]
    · refine .inr (.inr ⟨String.ofList first, String.ofList rest, ?_, ?_, ?_⟩)
      · simpa using hempty
      · simpa using hfirst
      · exact String.toList_inj.mp (by simp [hname])
  · exact .inr (.inl hdot)

/-! ## The scope that settles -/

/-- What a search outwards comes to: what is found in the innermost scope of which a property holds,
whatever that is, and nothing if it holds of no scope. -/
def Outward (holds : String → Prop) (found : String → Option Symbol) (scope : String)
    (result : Option Symbol) : Prop :=
  (∃ inner, Innermost holds scope inner ∧ found inner = result) ∨
    ((∀ outer, Surrounds outer scope → ¬holds outer) ∧ result = none)

/-- A search that stops at the first scope that decides comes to what is found in the innermost. -/
theorem outward_join_findSome? {holds : String → Prop} {found : String → Option Symbol}
    {decides : String → Option (Option Symbol)}
    (settled : ∀ scope, holds scope → decides scope = some (found scope))
    (unsettled : ∀ scope, ¬holds scope → decides scope = none) (scope : String) :
    Outward holds found scope
      (((scopesOutward scope.toList).findSome?
        fun inner => decides (String.ofList inner)).join) := by
  cases hfound : (scopesOutward scope.toList).findSome?
    fun inner => decides (String.ofList inner) with
  | none =>
    rw [List.findSome?_eq_none_iff] at hfound
    refine .inr ⟨?_, rfl⟩
    intro outer houter hholds
    have hnone := hfound _ (surrounds_iff.mp houter)
    rw [String.ofList_toList, settled outer hholds] at hnone
    cases hnone
  | some result =>
    obtain ⟨front, inner, back, hscopes, hdecides, hfront⟩ := List.findSome?_eq_some_iff.mp hfound
    have hordered := pairwise_scopesOutward scope.toList
    rw [hscopes, List.pairwise_append, List.pairwise_cons] at hordered
    have hholds : holds (String.ofList inner) := by
      by_contra hnot
      rw [unsettled _ hnot] at hdecides
      cases hdecides
    refine .inl ⟨String.ofList inner, ⟨?_, hholds, ?_⟩, ?_⟩
    · rw [surrounds_iff, hscopes, String.toList_ofList]
      simp
    · intro outer houter hother
      rw [surrounds_iff, hscopes, List.mem_append, List.mem_cons] at houter
      rw [String.length_ofList, ← String.length_toList]
      rcases houter with hinside | hsame | houtside
      · -- a scope further inside would have decided
        have hnone := hfront _ hinside
        rw [String.ofList_toList, settled outer hother] at hnone
        cases hnone
      · rw [hsame]
      · exact (hordered.2.1.1 _ houtside).le
    · rw [settled _ hholds] at hdecides
      exact Option.some.inj hdecides

theorem Surrounds.isPrefix {outer scope : String} (h : Surrounds outer scope) :
    outer.toList <+: scope.toList := by
  rcases h with rfl | ⟨inner, rfl⟩ | rfl
  · exact List.prefix_refl _
  · exact ⟨'.' :: inner.toList, by simp⟩
  · exact List.nil_prefix

theorem Innermost.unique {holds : String → Prop} {scope inner other : String}
    (h : Innermost holds scope inner) (hother : Innermost holds scope other) : inner = other := by
  have hle := h.longest other hother.surrounds hother.settles
  have hge := hother.longest inner h.surrounds h.settles
  rw [← String.length_toList, ← String.length_toList] at hle hge
  have hstarts := List.prefix_of_prefix_length_le h.surrounds.isPrefix hother.surrounds.isPrefix hge
  exact String.toList_inj.mp (hstarts.eq_of_length_le hle)

/-- A search outwards comes to one thing only. -/
theorem Outward.unique {holds : String → Prop} {found : String → Option Symbol} {scope : String}
    {result other : Option Symbol} (h : Outward holds found scope result)
    (hother : Outward holds found scope other) : result = other := by
  rcases h with ⟨inner, hinner, rfl⟩ | ⟨hnone, rfl⟩
  · rcases hother with ⟨inner', hinner', rfl⟩ | ⟨hnone, -⟩
    · rw [hinner.unique hinner']
    · exact absurd hinner.settles (hnone inner hinner.surrounds)
  · rcases hother with ⟨inner', hinner', -⟩ | ⟨-, rfl⟩
    · exact absurd hinner'.settles (hnone inner' hinner'.surrounds)
    · rfl

namespace SymbolTable

variable {table : SymbolTable} {visible : List Nat} {scope name first rest : String}

/-! ## The rules -/

/-- The first symbol of the table that has a name and is in a file that can be seen. -/
def seen? (table : SymbolTable) (visible : List Nat) (name : String) : Option Symbol :=
  table.symbols.toList.find? fun symbol => symbol.name == name && visible.contains symbol.file

/-- What is seen of a name in a scope is a message or an enum. -/
def SeesType (table : SymbolTable) (visible : List Nat) (name scope : String) : Prop :=
  ∃ symbol, table.seen? visible (qualify scope name) = some symbol ∧
    (symbol.kind = .message ∨ symbol.kind = .enum)

/-- What is seen of a name in a scope is something that names can be in. -/
def SeesContainer (table : SymbolTable) (visible : List Nat) (name scope : String) : Prop :=
  ∃ symbol, table.seen? visible (qualify scope name) = some symbol ∧
    (symbol.kind = .package ∨ symbol.kind = .message ∨ symbol.kind = .enum ∨
      symbol.kind = .service)

/-- What a name means inside a scope. With a dot in front it is a full name. Without dots it means
the type of that name in the innermost scope that has one. Otherwise the innermost scope in which
its first part is a container settles where the rest is, which may be that it is not there. -/
inductive Finds (table : SymbolTable) (visible : List Nat) (scope : String) :
    String → Option Symbol → Prop where
  | full (name : String) : Finds table visible scope ("." ++ name) (table.seen? visible name)
  | simple (name : String) (plain : '.' ∉ name.toList) (result : Option Symbol)
      (outward : Outward (table.SeesType visible name)
        (fun inner => table.seen? visible (qualify inner name)) scope result) :
      Finds table visible scope name result
  | dotted (first rest : String) (named : first ≠ "") (plain : '.' ∉ first.toList)
      (result : Option Symbol)
      (outward : Outward (table.SeesContainer visible first)
        (fun inner => table.seen? visible (qualify inner first ++ "." ++ rest)) scope result) :
      Finds table visible scope (first ++ "." ++ rest) result

/-! ## The search -/

/-- In a sorted table the first symbol in sight is the one that was inserted first. -/
theorem seen?_sorted (table : SymbolTable) (visible : List Nat) (name : String) :
    table.sorted.seen? visible name = table.seen? visible name := by
  have scan (listed : SymbolTable) : listed.seen? visible name =
      (listed.symbols.toList.filter fun symbol => symbol.name == name).find? fun symbol =>
        visible.contains symbol.file := by
    rw [List.find?_filter, seen?]
    refine congrArg (fun test => listed.symbols.toList.find? test) (funext fun symbol => ?_)
    rw [Bool.decide_and, Bool.decide_eq_true, Bool.decide_eq_true]
  rw [scan, scan, filter_sorted]

theorem lookupVisible_eq_seen? (table : SymbolTable) (visible : List Nat) (name : String) :
    table.sorted.lookupVisible name visible = table.sorted.seen? visible name := by
  rw [lookupVisible_sorted, seen?_sorted, seen?]

theorem decideIn_of_seesType (h : table.sorted.SeesType visible name scope) :
    table.sorted.decideIn visible name none scope =
      some (table.sorted.seen? visible (qualify scope name)) := by
  obtain ⟨symbol, hseen, hkind⟩ := h
  simp only [decideIn, lookupVisible_eq_seen?, hseen]
  rcases hkind with hkind | hkind <;> rw [hkind] <;> rfl

theorem decideIn_of_not_seesType (h : ¬table.sorted.SeesType visible name scope) :
    table.sorted.decideIn visible name none scope = none := by
  simp only [decideIn, lookupVisible_eq_seen?]
  cases hseen : table.sorted.seen? visible (qualify scope name) with
  | none => rfl
  | some symbol =>
    have hkind : ¬(symbol.kind = .message ∨ symbol.kind = .enum) :=
      fun hkind => h ⟨symbol, hseen, hkind⟩
    cases hcase : symbol.kind <;> simp [hcase, SymbolKind.isType] at hkind ⊢

theorem decideIn_of_seesContainer (named : name ≠ "") (rest : String)
    (h : table.sorted.SeesContainer visible name scope) :
    table.sorted.decideIn visible name (some rest) scope =
      some (table.sorted.seen? visible (qualify scope name ++ "." ++ rest)) := by
  obtain ⟨symbol, hseen, hkind⟩ := h
  have hcandidate : qualify scope name ≠ "" := by
    rw [qualify]
    split <;> simp [named]
  simp only [decideIn, lookupVisible_eq_seen?, hseen, qualify_of_ne hcandidate]
  rcases hkind with hkind | hkind | hkind | hkind <;> rw [hkind] <;> rfl

theorem decideIn_of_not_seesContainer (rest : String)
    (h : ¬table.sorted.SeesContainer visible name scope) :
    table.sorted.decideIn visible name (some rest) scope = none := by
  simp only [decideIn, lookupVisible_eq_seen?]
  cases hseen : table.sorted.seen? visible (qualify scope name) with
  | none => rfl
  | some symbol =>
    have hkind : ¬(symbol.kind = .package ∨ symbol.kind = .message ∨ symbol.kind = .enum ∨
        symbol.kind = .service) := fun hkind => h ⟨symbol, hseen, hkind⟩
    cases hcase : symbol.kind <;> simp [hcase, SymbolKind.isAggregate] at hkind ⊢

theorem lookupType_full (table : SymbolTable) (visible : List Nat) (scope name : String) :
    table.sorted.lookupType visible scope ("." ++ name) = table.sorted.seen? visible name := by
  have hdot : ("." ++ name).toList = '.' :: name.toList := by simp
  simp only [lookupType, hdot, lookupVisible_eq_seen?, String.ofList_toList]

/-- A name without a dot in front is looked for from the innermost scope outwards. -/
theorem lookupType_relative (h : ∀ full, name ≠ "." ++ full) :
    table.lookupType visible scope name =
      ((scopesOutward scope.toList).findSome? fun inner =>
        table.decideIn visible (String.ofList (splitName name.toList).1)
          ((splitName name.toList).2.map String.ofList) (String.ofList inner)).join := by
  rw [lookupType]
  split
  case h_1 full hname =>
    exact absurd (String.toList_inj.mp (by simp [hname])) (h (String.ofList full))
  case h_2 => rfl

theorem outward_lookupType_simple (hplain : '.' ∉ name.toList) :
    Outward (table.sorted.SeesType visible name)
      (fun inner => table.sorted.seen? visible (qualify inner name)) scope
      (table.sorted.lookupType visible scope name) := by
  have hrelative (full : String) : name ≠ "." ++ full := by
    rintro rfl
    simp at hplain
  rw [lookupType_relative hrelative, splitName_of_notMem hplain, String.ofList_toList]
  exact outward_join_findSome? (fun _ => decideIn_of_seesType)
    (fun _ => decideIn_of_not_seesType) scope

theorem outward_lookupType_dotted (hnamed : first ≠ "") (hplain : '.' ∉ first.toList) :
    Outward (table.sorted.SeesContainer visible first)
      (fun inner => table.sorted.seen? visible (qualify inner first ++ "." ++ rest)) scope
      (table.sorted.lookupType visible scope (first ++ "." ++ rest)) := by
  have hrelative (full : String) : first ++ "." ++ rest ≠ "." ++ full := by
    intro heq
    have hempty : '.' ∉ "".toList := by simp
    exact hnamed (eq_of_dotted hplain hempty (by simpa using heq))
  have hsplit : (first ++ "." ++ rest).toList = first.toList ++ '.' :: rest.toList := by simp
  rw [lookupType_relative hrelative, hsplit, splitName_append hplain, Option.map_some,
    String.ofList_toList, String.ofList_toList]
  exact outward_join_findSome? (fun _ => decideIn_of_seesContainer hnamed rest)
    (fun _ => decideIn_of_not_seesContainer rest) scope

/-- A lookup in a sorted table finds what the rules say, and nothing else. -/
theorem lookupType_eq_iff (table : SymbolTable) (visible : List Nat) (scope name : String)
    (result : Option Symbol) : table.sorted.lookupType visible scope name = result ↔
      table.sorted.Finds visible scope name result := by
  constructor
  · rintro rfl
    rcases name_cases name with ⟨full, rfl⟩ | hplain | ⟨first, rest, hnamed, hplain, rfl⟩
    · rw [lookupType_full]
      exact .full full
    · exact .simple name hplain _ (outward_lookupType_simple hplain)
    · exact .dotted first rest hnamed hplain _ (outward_lookupType_dotted hnamed hplain)
  · intro hfinds
    cases hfinds with
    | full name => exact lookupType_full table visible scope name
    | simple _ hplain _ houtward => exact (outward_lookupType_simple hplain).unique houtward
    | dotted first rest hnamed hplain _ houtward =>
      exact (outward_lookupType_dotted hnamed hplain).unique houtward

end SymbolTable

end ProtoFront
