import Mathlib.Data.List.Basic
import ProtoFront.FileStore.Memory

/-!
# Folding paths

A path is folded by its text alone. Seen from a directory, that leads to the same file if the path
leads above its start by one step at most. Of two steps nothing is left: the second `..` removes
the first one, which was kept (`normalize_join_iff`).
-/

namespace ProtoFront

/-- Whether a component is a name. -/
def PathComponent.isName : PathComponent → Bool
  | name _ => true
  | _ => false

namespace Path

variable {cs : List Char} {steps names floor : List PathComponent} {path base : Path}

/-! ## Segments -/

theorem segments_eq_splitOnP (cs : List Char) : segments cs = cs.splitOnP (· == '/') := by
  induction cs with
  | nil => rfl
  | cons c cs ih =>
    rw [segments, List.splitOnP_cons_eq_if_modifyHead, ih]
    split
    · rfl
    · rcases hparts : cs.splitOnP (· == '/') with _ | ⟨first, more⟩
      · exact absurd hparts (List.splitOnP_ne_nil _ cs)
      · rfl

theorem segments_slash (cs : List Char) : segments ('/' :: cs) = [] :: segments cs := rfl

theorem segments_append (cs rest : List Char) :
    segments (cs ++ '/' :: rest) = segments cs ++ segments rest := by
  rw [segments_eq_splitOnP, segments_eq_splitOnP, segments_eq_splitOnP]
  exact List.splitOnP_append_cons cs rest rfl

theorem segments_intercalate {parts : List (List Char)} (plain : ∀ part ∈ parts, '/' ∉ part)
    (nonempty : parts ≠ []) : segments (['/'].intercalate parts) = parts := by
  rw [segments_eq_splitOnP]
  exact List.splitOn_intercalate '/' plain nonempty

theorem notMem_of_mem_segments {segment : List Char} (h : segment ∈ segments cs) :
    '/' ∉ segment := by
  induction cs generalizing segment with
  | nil =>
    obtain rfl := List.mem_singleton.mp h
    exact List.not_mem_nil
  | cons c cs ih =>
    rw [segments] at h
    split at h
    · rcases List.mem_cons.mp h with rfl | hmore
      · exact List.not_mem_nil
      · exact ih hmore
    · next hc =>
      rcases hsegments : segments cs with _ | ⟨first, more⟩
      · exact absurd hsegments (segments_eq_splitOnP cs ▸ List.splitOnP_ne_nil _ cs)
      · rw [hsegments] at h ih
        rcases List.mem_cons.mp h with rfl | hmore
        · have hfirst := ih List.mem_cons_self
          simp_all [Ne.symm]
        · exact ih (List.mem_cons_of_mem _ hmore)

/-! ## Steps -/

/-- The components of a path without the root and the dot in front. -/
def inner (path : Path) : List PathComponent :=
  (segments path.text.toList).filterMap component?

/-- A component that can stand anywhere in a path. -/
def IsStep (component : PathComponent) : Prop :=
  component? component.text.toList = some component ∧ '/' ∉ component.text.toList

theorem isStep_of_component? {segment : List Char} {component : PathComponent}
    (h : component? segment = some component) (plain : '/' ∉ segment) : IsStep component := by
  have htext : component.text.toList = segment := by
    rw [component?] at h
    split at h
    · cases h
    · split at h
      · next hup =>
        cases h
        exact hup.symm
      · cases h
        exact String.toList_ofList
  rw [IsStep, htext]
  exact ⟨h, plain⟩

theorem isStep_of_mem {component : PathComponent} (h : component ∈ path.inner) :
    IsStep component := by
  obtain ⟨segment, hsegment, hcomponent⟩ := List.mem_filterMap.mp h
  exact isStep_of_component? hcomponent (notMem_of_mem_segments hsegment)

/-- A step is two dots or a name. -/
theorem IsStep.cases {component : PathComponent} (h : IsStep component) :
    component = .up ∨ ∃ text, component = .name text := by
  rcases component with _ | _ | _ | text
  · exact absurd List.mem_cons_self h.2
  · cases h.1
  · exact .inl rfl
  · exact .inr ⟨text, rfl⟩

theorem component?_nil : component? [] = none := rfl

theorem components_of_absolute (h : path.isAbsolute = true) :
    path.components = .root :: path.inner := by
  rw [isAbsolute, beq_iff_eq] at h
  rw [components, inner]
  rcases htext : path.text.toList with _ | ⟨c, cs⟩
  · rw [htext] at h
    cases h
  · rw [htext] at h
    obtain rfl := Option.some.inj h
    rw [segments_slash]
    rcases hrest : segments cs with _ | ⟨first, more⟩
    · exact absurd hrest (segments_eq_splitOnP cs ▸ List.splitOnP_ne_nil _ cs)
    · rfl

theorem components_of_relative (h : path.isAbsolute = false) :
    path.components = path.inner ∨ path.components = .here :: path.inner := by
  rw [isAbsolute] at h
  rw [components, inner]
  rcases htext : path.text.toList with _ | ⟨c, cs⟩
  · exact .inl rfl
  · rw [htext] at h
    have hc : ¬(c == '/') = true := by simpa using h
    rw [segments, if_neg hc]
    rcases hrest : segments cs with _ | ⟨first, more⟩
    · exact absurd hrest (segments_eq_splitOnP cs ▸ List.splitOnP_ne_nil _ cs)
    · dsimp only
      by_cases hdot : c :: first = ['.']
      · refine .inr ?_
        rw [hdot]
        rfl
      · refine .inl ?_
        rw [firstComponent?, if_neg hdot, List.filterMap_cons]
        rcases component? (c :: first) with _ | component <;> rfl

theorem segments_steps (hsteps : ∀ component ∈ steps, IsStep component) (nonempty : steps ≠ []) :
    segments ("/".intercalate (steps.map PathComponent.text)).toList =
      steps.map fun component => component.text.toList := by
  rw [String.toList_intercalate, List.map_map]
  refine segments_intercalate ?_ (by simpa using nonempty)
  intro part hpart
  obtain ⟨component, hcomponent, rfl⟩ := List.mem_map.mp hpart
  exact (hsteps component hcomponent).2

theorem filterMap_steps (hsteps : ∀ component ∈ steps, IsStep component) :
    (segments ("/".intercalate (steps.map PathComponent.text)).toList).filterMap component? =
      steps := by
  rcases steps with _ | ⟨first, more⟩
  · rfl
  · rw [segments_steps hsteps (List.cons_ne_nil _ _), List.filterMap_map]
    exact (List.filterMap_congr fun component hcomponent =>
      (hsteps component hcomponent).1).trans List.filterMap_some

/-- Steps that have been put together are taken apart again. -/
theorem inner_ofComponents (hsteps : ∀ component ∈ steps, IsStep component) :
    (ofComponents steps).inner = steps ∧ (ofComponents steps).isAbsolute = false := by
  have htext : ofComponents steps = ⟨"/".intercalate (steps.map PathComponent.text)⟩ := by
    rcases steps with _ | ⟨first, more⟩
    · rfl
    · obtain rfl | ⟨text, rfl⟩ := (hsteps first List.mem_cons_self).cases <;> rfl
  refine ⟨htext ▸ filterMap_steps hsteps, ?_⟩
  rcases steps with _ | ⟨first, more⟩
  · rfl
  · have hsegments := segments_steps hsteps (List.cons_ne_nil _ _)
    rw [htext, isAbsolute]
    rcases hchars : ("/".intercalate ((first :: more).map PathComponent.text)).toList with
      _ | ⟨c, cs⟩
    · rfl
    · by_cases hslash : c = '/'
      · -- the first step would be empty
        subst hslash
        rw [hchars, segments_slash, List.map_cons] at hsegments
        have hfirst := (hsteps first List.mem_cons_self).1
        rw [← (List.cons.inj hsegments).1] at hfirst
        cases hfirst
      · simpa using hslash

theorem inner_ofComponents_root (hsteps : ∀ component ∈ steps, IsStep component) :
    (ofComponents (.root :: steps)).inner = steps ∧
      (ofComponents (.root :: steps)).isAbsolute = true := by
  have htext : (ofComponents (.root :: steps)).text.toList =
      '/' :: ("/".intercalate (steps.map PathComponent.text)).toList := by
    rw [ofComponents, String.toList_append]
    rfl
  refine ⟨?_, by rw [isAbsolute, htext]; rfl⟩
  rw [inner, htext, segments_slash, List.filterMap_cons_none component?_nil,
    filterMap_steps hsteps]

/-- Behind a directory the steps of a relative path come behind those of the directory. -/
theorem inner_join (relative : path.isAbsolute = false) :
    (base.join path).inner = base.inner ++ path.inner := by
  rw [join, if_neg (Bool.eq_false_iff.mp relative)]
  split
  · next hopen =>
    rcases Bool.or_eq_true_iff.mp hopen with hempty | hslash
    · have htext : base.text = "" := String.isEmpty_iff.mp hempty
      rw [inner, inner, inner, htext]
      rfl
    · obtain ⟨front, hfront⟩ := List.getLast?_eq_some_iff.mp (beq_iff_eq.mp hslash)
      rw [inner, inner, inner, String.toList_append, hfront, List.append_assoc,
        List.singleton_append, segments_append, segments_append, List.filterMap_append,
        List.filterMap_append]
      exact congrArg (· ++ _) (List.append_nil _).symm
  · rw [inner, String.toList_append, String.toList_append, List.append_assoc,
      show "/".toList = ['/'] from rfl, List.singleton_append, segments_append,
      List.filterMap_append]
    rfl

theorem isAbsolute_join (absolute : base.isAbsolute = true) :
    (base.join path).isAbsolute = true := by
  have hfront : ∀ text : String, (⟨base.text ++ text⟩ : Path).isAbsolute = true := by
    intro text
    rw [isAbsolute, beq_iff_eq] at absolute ⊢
    rw [String.toList_append, List.head?_append, absolute, Option.some_or]
  rw [join]
  split
  · assumption
  split
  · exact hfront path.text
  · rw [String.append_assoc]
    exact hfront _

/-! ## Folding -/

/-- How many steps above its start a path leads. -/
def climb : List PathComponent → Nat
  | [] => 0
  | .up :: rest => climb rest + 1
  | .name _ :: rest => climb rest - 1
  | _ :: rest => climb rest

/-- The names that no two dots remove. -/
def kept : List PathComponent → List PathComponent
  | [] => []
  | .name text :: rest => if climb rest = 0 then .name text :: kept rest else kept rest
  | _ :: rest => kept rest

theorem kept_up (rest : List PathComponent) : kept (.up :: rest) = kept rest := rfl

/-- What folding keeps of a number of steps up. -/
def ups (count : Nat) : List PathComponent := if count % 2 = 0 then [] else [.up]

/-- Where folding may begin: at the root, or with nothing. -/
def IsFloor (floor : List PathComponent) : Prop := floor = [] ∨ floor = [.root]

theorem fold_ups (h : IsFloor floor) (count : Nat) :
    fold (ups count ++ floor) .up = ups (count + 1) ++ floor := by
  rcases Nat.mod_two_eq_zero_or_one count with heven | hodd
  · rcases h with rfl | rfl <;> simp [ups, heven, Nat.add_mod, fold]
  · rcases h with rfl | rfl <;> simp [ups, hodd, Nat.add_mod, fold]

theorem foldl_fold (h : IsFloor floor) (hsteps : ∀ component ∈ steps, IsStep component)
    (hnames : ∀ component ∈ names, ∃ text, component = .name text) (count : Nat) :
    steps.foldl fold (names ++ (ups count ++ floor)) =
      (kept steps).reverse ++ (names.drop (climb steps) ++
        (ups (count + (climb steps - names.length)) ++ floor)) := by
  induction steps generalizing names count with
  | nil => simp [kept, climb]
  | cons step steps ih =>
    have hrest : ∀ component ∈ steps, IsStep component :=
      fun component hcomponent => hsteps component (List.mem_cons_of_mem _ hcomponent)
    rw [List.foldl_cons]
    obtain rfl | ⟨text, rfl⟩ := (hsteps step List.mem_cons_self).cases
    · rcases names with _ | ⟨name, names⟩
      · have hfold := ih hrest hnames (count + 1)
        rw [List.nil_append] at hfold
        rw [List.nil_append, fold_ups h, hfold, kept_up, climb, List.length_nil, Nat.sub_zero,
          Nat.sub_zero, List.drop_nil, List.drop_nil, Nat.add_right_comm, Nat.add_assoc]
      · obtain ⟨text, rfl⟩ := hnames name List.mem_cons_self
        have hfold := ih hrest (fun component hcomponent =>
          hnames component (List.mem_cons_of_mem _ hcomponent)) count
        rw [kept_up, climb, List.drop_succ_cons, List.length_cons, Nat.add_sub_add_right]
        exact hfold
    · have hfold := ih hrest (List.forall_mem_cons.mpr ⟨⟨text, rfl⟩, hnames⟩) count
      refine Eq.trans hfold ?_
      rw [kept, climb, List.length_cons]
      rcases climb steps with _ | above
      · simp
      · rw [if_neg (Nat.succ_ne_zero above), List.drop_succ_cons, Nat.add_sub_add_right,
          Nat.add_sub_cancel]

theorem reverse_ups (count : Nat) : (ups count).reverse = ups count := by
  rw [ups]
  split <;> rfl

theorem reverse_foldl_fold (h : IsFloor floor) (hsteps : ∀ component ∈ steps, IsStep component) :
    (steps.foldl fold floor).reverse = floor ++ (ups (climb steps) ++ kept steps) := by
  have hfold := foldl_fold h hsteps (List.forall_mem_nil _) 0
  have hreverse : floor.reverse = floor := by rcases h with rfl | rfl <;> rfl
  rw [List.drop_nil, List.length_nil, Nat.sub_zero, Nat.zero_add] at hfold
  refine (congrArg List.reverse hfold).trans ?_
  simp [reverse_ups, hreverse]

/-- The normal form of a relative path. -/
theorem normalComponents_relative (relative : path.isAbsolute = false) :
    path.normalComponents = ups (climb path.inner) ++ kept path.inner := by
  have hfold : path.components.foldl fold [] = path.inner.foldl fold [] := by
    rcases components_of_relative relative with heq | heq <;> rw [heq]
    rfl
  rw [normalComponents, hfold, reverse_foldl_fold (.inl rfl) fun _ => isStep_of_mem]
  rfl

/-- The normal form of an absolute path. -/
theorem normalComponents_absolute (absolute : path.isAbsolute = true) :
    path.normalComponents = .root :: (ups (climb path.inner) ++ kept path.inner) := by
  rw [normalComponents, components_of_absolute absolute, List.foldl_cons]
  exact reverse_foldl_fold (.inr rfl) fun _ => isStep_of_mem

theorem exists_name_of_mem_kept {component : PathComponent} (h : component ∈ kept steps) :
    component ∈ steps ∧ ∃ text, component = .name text := by
  fun_induction kept steps with
  | case1 => cases h
  | case2 text rest hzero ih =>
    rcases List.mem_cons.mp h with rfl | hlater
    · exact ⟨List.mem_cons_self, text, rfl⟩
    · exact (ih hlater).imp_left (List.mem_cons_of_mem _)
  | case3 text rest hpositive ih => exact (ih h).imp_left (List.mem_cons_of_mem _)
  | case4 component rest other ih => exact (ih h).imp_left (List.mem_cons_of_mem _)

/-- A path, folded, has steps only, too. -/
theorem isStep_folded (path : Path) :
    ∀ component ∈ ups (climb path.inner) ++ kept path.inner, IsStep component := by
  intro component h
  rcases List.mem_append.mp h with hups | hkept
  · rw [ups] at hups
    split at hups
    · cases hups
    · obtain rfl := List.mem_singleton.mp hups
      exact ⟨rfl, by decide⟩
  · exact isStep_of_mem (exists_name_of_mem_kept hkept).1

/-- The normal form has what is left of the steps. -/
theorem inner_normalize (path : Path) :
    path.normalize.inner = ups (climb path.inner) ++ kept path.inner ∧
      path.normalize.isAbsolute = path.isAbsolute := by
  rcases habsolute : path.isAbsolute
  · rw [normalize, normalComponents_relative habsolute]
    exact inner_ofComponents (isStep_folded path)
  · rw [normalize, normalComponents_absolute habsolute]
    exact inner_ofComponents_root (isStep_folded path)

theorem normalize_eq_iff {other : Path} : path.normalize = other.normalize ↔
    path.isAbsolute = other.isAbsolute ∧
      ups (climb path.inner) ++ kept path.inner = ups (climb other.inner) ++ kept other.inner := by
  obtain ⟨hinner, habsolute⟩ := inner_normalize path
  obtain ⟨hinner', habsolute'⟩ := inner_normalize other
  constructor
  · intro heq
    rw [← habsolute, ← habsolute', ← hinner, ← hinner', heq]
    exact ⟨rfl, rfl⟩
  · rintro ⟨hroot, hsteps⟩
    rw [normalize, normalize]
    rcases hrelative : path.isAbsolute
    · rw [normalComponents_relative hrelative, hsteps,
        normalComponents_relative (hroot.symm.trans hrelative)]
    · rw [normalComponents_absolute hrelative, hsteps,
        normalComponents_absolute (hroot.symm.trans hrelative)]

/-! ## Names in front -/

section

variable (hnames : ∀ component ∈ names, ∃ text, component = .name text)
include hnames

theorem climb_append (steps : List PathComponent) :
    climb (names ++ steps) = climb steps - names.length := by
  induction names with
  | nil => rfl
  | cons name names ih =>
    obtain ⟨text, rfl⟩ := hnames name List.mem_cons_self
    rw [List.cons_append, climb, ih (List.forall_mem_cons.mp hnames).2, List.length_cons]
    omega

theorem kept_append (steps : List PathComponent) :
    kept (names ++ steps) = names.take (names.length - climb steps) ++ kept steps := by
  induction names with
  | nil => rw [List.take_nil]; rfl
  | cons name names ih =>
    obtain ⟨text, rfl⟩ := hnames name List.mem_cons_self
    have hrest := (List.forall_mem_cons.mp hnames).2
    rw [List.cons_append, kept, ih hrest, climb_append hrest, List.length_cons]
    split
    · next hzero =>
      rw [Nat.succ_sub (Nat.sub_eq_zero_iff_le.mp hzero), List.take_succ_cons, List.cons_append]
    · next hpositive =>
      rw [show names.length - climb steps = 0 by omega,
        show names.length + 1 - climb steps = 0 by omega]
      rfl

end

theorem climb_le_count (steps : List PathComponent) : climb steps ≤ steps.count .up := by
  fun_induction climb steps with
  | case1 => exact Nat.le_refl _
  | case2 rest ih => simpa using ih
  | case3 text rest ih =>
    rw [List.count_cons_of_ne (by rintro ⟨⟩)]
    omega
  | case4 component rest _ _ ih => exact Nat.le_trans ih List.count_le_count_cons

/-- What is left of steps leads up as far as is left of the steps up. -/
theorem climb_folded (steps : List PathComponent) (count : Nat) :
    climb (ups count ++ kept steps) = count % 2 ∧ kept (ups count ++ kept steps) = kept steps := by
  have hnames : ∀ component ∈ kept steps, ∃ text, component = .name text :=
    fun component h => (exists_name_of_mem_kept h).2
  have hclimb := climb_append hnames []
  have hkept := kept_append hnames []
  rw [List.append_nil, climb, Nat.zero_sub] at hclimb
  rw [List.append_nil, climb, Nat.sub_zero, List.take_length, kept, List.append_nil] at hkept
  rw [ups]
  split
  · next heven => exact ⟨hclimb.trans heven.symm, hkept⟩
  · next hodd =>
    refine ⟨?_, hkept⟩
    rw [List.singleton_append, climb, hclimb]
    omega

theorem ups_mod (count : Nat) : ups (count % 2) = ups count := by
  rw [ups, ups, Nat.mod_mod]

theorem normalize_normalize (path : Path) : path.normalize.normalize = path.normalize := by
  obtain ⟨hinner, habsolute⟩ := inner_normalize path
  obtain ⟨hclimb, hkept⟩ := climb_folded path.inner (climb path.inner)
  rw [normalize_eq_iff, hinner, hclimb, hkept, ups_mod]
  exact ⟨habsolute, rfl⟩

/-! ## Paths seen from a directory -/

theorem climb_components (path : Path) : climb path.components = climb path.inner := by
  rcases habsolute : path.isAbsolute
  · rcases components_of_relative habsolute with heq | heq <;> rw [heq]
    rfl
  · rw [components_of_absolute habsolute]
    rfl

theorem count_components (path : Path) : path.components.count .up = path.inner.count .up := by
  rcases habsolute : path.isAbsolute
  · rcases components_of_relative habsolute with heq | heq <;> rw [heq]
    rfl
  · rw [components_of_absolute habsolute]
    rfl

/-- A directory with enough names for a path that is looked up there. -/
structure Holds (base path : Path) : Prop where
  absolute : base.isAbsolute = true
  plain : .up ∉ base.components
  deep : path.components.count .up < base.components.countP PathComponent.isName

theorem Holds.inner_names (h : base.Holds path) :
    (∀ component ∈ base.inner, ∃ text, component = .name text) ∧
      climb path.inner < base.inner.length := by
  obtain ⟨absolute, plain, deep⟩ := h
  rw [components_of_absolute absolute] at plain deep
  refine ⟨fun component hcomponent => ?_, ?_⟩
  · refine (isStep_of_mem hcomponent).cases.resolve_left ?_
    rintro rfl
    exact plain (List.mem_cons_of_mem _ hcomponent)
  · have hcount := List.countP_le_length (p := PathComponent.isName) (l := base.inner)
    have hclimb := climb_le_count path.inner
    rw [← count_components] at hclimb
    have hroot : (PathComponent.root :: base.inner).countP PathComponent.isName =
        base.inner.countP PathComponent.isName := rfl
    omega

/-- Seen from a directory, a relative path removes as many names as it leads up. -/
theorem folded_join (hnames : ∀ component ∈ base.inner, ∃ text, component = .name text)
    (hdeep : climb path.inner ≤ base.inner.length) (relative : path.isAbsolute = false) :
    ups (climb (base.join path).inner) ++ kept (base.join path).inner =
      base.inner.take (base.inner.length - climb path.inner) ++ kept path.inner := by
  rw [inner_join relative, climb_append hnames, kept_append hnames,
    Nat.sub_eq_zero_of_le hdeep]
  rfl

/-- A path that leads above its start by one step at most. -/
def IsShallow (path : Path) : Prop := path.isAbsolute = true ∨ climb path.components ≤ 1

theorem normalize_join_normalize (h : base.Holds path) :
    (base.join path).normalize = (base.join path.normalize).normalize ↔ path.IsShallow := by
  obtain ⟨hinner, habsolute⟩ := inner_normalize path
  obtain ⟨hclimb, hkept⟩ := climb_folded path.inner (climb path.inner)
  rw [IsShallow]
  rcases hroot : path.isAbsolute
  · obtain ⟨hnames, hdeep⟩ := h.inner_names
    have hfolded : climb path.normalize.inner = climb path.inner % 2 := by rw [hinner, hclimb]
    have hless := Nat.mod_le (climb path.inner) 2
    rw [normalize_eq_iff, folded_join hnames (Nat.le_of_lt hdeep) hroot,
      folded_join hnames (by omega) (habsolute.trans hroot), hfolded, hinner, hkept,
      List.append_cancel_right_eq, climb_components]
    constructor
    · rintro ⟨-, htake⟩
      have hlength := congrArg List.length htake
      rw [List.length_take, List.length_take] at hlength
      exact .inr (by omega)
    · rintro (⟨⟨⟩⟩ | hclimb)
      rw [show climb path.inner % 2 = climb path.inner by omega]
      exact ⟨(isAbsolute_join h.absolute).trans (isAbsolute_join h.absolute).symm, rfl⟩
  · rw [join, if_pos hroot, join, if_pos (habsolute.trans hroot), normalize_normalize]
    simp

end Path

open ProtoFront.Path

variable {path other : Path}

/-- Normal forms with the same components are spelled alike. -/
theorem Path.normalize_eq_of_same (h : path.normalize.same other.normalize = true) :
    path.normalize = other.normalize := by
  have hfolded : path.normalize.normalComponents = other.normalize.normalComponents :=
    congrArg (fun components => (components.foldl fold []).reverse) (same_iff.mp h)
  calc path.normalize
      = ofComponents path.normalize.normalComponents := path.normalize_normalize.symm
    _ = ofComponents other.normalize.normalComponents := congrArg ofComponents hfolded
    _ = other.normalize := other.normalize_normalize

/-- A file that has been added can be found under a new path only if the paths have one normal
form. -/
theorem MemoryStore.normalize_eq_of_contains_add {store : MemoryStore} {contents : String}
    (h : (store.add path contents).contains other = true) (absent : store.contains other = false) :
    path.normalize = other.normalize := by
  refine normalize_eq_of_same ?_
  rw [contains, find?, List.find?_isSome] at h
  obtain ⟨file, hfile, hsame⟩ := h
  rcases List.mem_cons.mp hfile with rfl | hbefore
  · exact hsame
  · have there := (List.mem_filter.mp hbefore).1
    rw [contains, find?, Option.isSome_eq_false_iff, Option.isNone_iff_eq_none,
      List.find?_eq_none] at absent
    exact absurd hsame (absent file there)

/-- A relative path may be folded before it is looked up in a directory, if it leads above its start
by one step at most, and only then: of two steps nothing is left. A store of files takes two such
paths for one only if they lead to one file from every directory. -/
theorem normalize_join_iff (path : Path) :
    (∀ base : Path, base.Holds path →
      ((base.join path).normalize = (base.join path.normalize).normalize ↔ path.IsShallow)) ∧
    ∀ (other : Path) (store : MemoryStore) (contents : String), path.IsShallow → other.IsShallow →
      store.contains other = false → (store.add path contents).contains other = true →
        ∀ base : Path, base.Holds path → base.Holds other →
          (base.join path).normalize = (base.join other).normalize := by
  refine ⟨fun base holds => normalize_join_normalize holds, ?_⟩
  intro other store contents shallow shallow' absent there base holds holds'
  calc (base.join path).normalize
      = (base.join path.normalize).normalize := (normalize_join_normalize holds).mpr shallow
    _ = (base.join other.normalize).normalize := by
        rw [MemoryStore.normalize_eq_of_contains_add there absent]
    _ = (base.join other).normalize := ((normalize_join_normalize holds').mpr shallow').symm

/-- Two spellings of one path, which leads up by one step. -/
theorem normalize_join_iff_oneUp :
    (⟨"/a/d/f"⟩ : Path).Holds ⟨"./x/../../b/"⟩ ∧
      ((⟨"/a/d/f"⟩ : Path).join ⟨"./x/../../b/"⟩).normalize =
        ((⟨"/a/d/f"⟩ : Path).join (normalize ⟨"./x/../../b/"⟩)).normalize ∧
      (MemoryStore.empty.add ⟨"./x/../../b/"⟩ "").contains ⟨"x/../..//b/."⟩ = true ∧
        ((⟨"/a/d/f"⟩ : Path).join ⟨"./x/../../b/"⟩).normalize =
          ((⟨"/a/d/f"⟩ : Path).join ⟨"x/../..//b/."⟩).normalize := by
  have holds : (⟨"/a/d/f"⟩ : Path).Holds ⟨"./x/../../b/"⟩ :=
    ⟨by decide +kernel, by decide +kernel, by decide +kernel⟩
  have holds' : (⟨"/a/d/f"⟩ : Path).Holds ⟨"x/../..//b/."⟩ :=
    ⟨by decide +kernel, by decide +kernel, by decide +kernel⟩
  have there : (MemoryStore.empty.add ⟨"./x/../../b/"⟩ "").contains ⟨"x/../..//b/."⟩ = true := by
    decide +kernel
  have shallow : (⟨"./x/../../b/"⟩ : Path).IsShallow := .inr (by decide +kernel)
  have shallow' : (⟨"x/../..//b/."⟩ : Path).IsShallow := .inr (by decide +kernel)
  obtain ⟨folded, stored⟩ := normalize_join_iff ⟨"./x/../../b/"⟩
  exact ⟨holds, (folded _ holds).mpr shallow, there,
    stored _ _ _ shallow shallow' rfl there _ holds holds'⟩

/-- Two steps up are taken for none. -/
theorem normalize_join_twoUp :
    (⟨"/a/b/c"⟩ : Path).Holds ⟨"../../e"⟩ ∧ (⟨"/a/b/c"⟩ : Path).Holds ⟨"e"⟩ ∧
      ((⟨"/a/b/c"⟩ : Path).join ⟨"../../e"⟩).normalize ≠
        ((⟨"/a/b/c"⟩ : Path).join (normalize ⟨"../../e"⟩)).normalize ∧
      (MemoryStore.empty.add ⟨"../../e"⟩ "").contains ⟨"e"⟩ = true ∧
        ((⟨"/a/b/c"⟩ : Path).join ⟨"../../e"⟩).normalize ≠
          ((⟨"/a/b/c"⟩ : Path).join ⟨"e"⟩).normalize :=
  ⟨⟨by decide +kernel, by decide +kernel, by decide +kernel⟩,
    ⟨by decide +kernel, by decide +kernel, by decide +kernel⟩, by decide +kernel,
    by decide +kernel, by decide +kernel⟩

end ProtoFront
