import ProtoFront.Proofs.Parse.Statements

/-!
# Steps at fields, enum values and ranges
-/

namespace ProtoFront

open ParseState

variable {entry : Pending} {s t : ParseState} {price : Int}

/-! ## Fields -/

theorem handled_fieldNameAndNumber {kind : DeclarationKind} (moves : Moves entry s entry t)
    (reads : entry.goal.Reads .statement price) (plain : (NodeKind.declaration kind).isPlain = true)
    (paid : 16 * (t.left : Int) < 16 * s.left + price) :
    Handled entry s (t.fieldNameAndNumber kind entry) := by
  have hname := t.left_takeAs_le .name
  have hequals := (t.takeAs .name).left_take_le
  have hnumber := (t.takeAs .name).take.left_take_le
  have named := moves.takeAs .name reads.opened rfl
  rw [fieldNameAndNumber]
  refine handled_require ?_ fun _ => handled_expect ?_ fun _ => handled_expect ?_ fun _ => ?_
  · exact handled_failStatement (moves.report _) reads plain (by rw [left_report]; omega)
  · exact handled_failStatement (named.report _) reads plain (by rw [left_report]; omega)
  · exact handled_failStatement ((named.take reads.opened).report _) reads plain
      (by rw [left_report]; omega)
  · exact handled_optionsOrEnd ((named.take reads.opened).take reads.opened) reads plain
      (by omega)

theorem handled_failMapField (moves : Moves entry s entry.broken t)
    (reads : entry.goal.Reads .statement price) (paid : 16 * (t.left : Int) < 16 * s.left + price) :
    Handled entry s (t.failMapField entry) := by
  have hskip := t.left_skipTo_le fun kind => kind == .closer .angle || kind == .semicolon
  have skipped := moves.skipTo (fun kind => kind == .closer .angle || kind == .semicolon)
    reads.opened rfl
  rw [failMapField]
  split
  case isTrue =>
    have hdiscard :=
      (t.skipTo fun kind => kind == .closer .angle || kind == .semicolon).left_addLeaf_le none true
    exact handled_failStatement (skipped.discard reads.opened rfl) reads rfl
      (by rw [ParseState.discard]; omega)
  case isFalse => exact handled_failStatement skipped reads rfl (by omega)

theorem handled_mapField (moves : Moves entry s entry t) (reads : entry.goal.Reads .statement price)
    (paid : 16 * (t.take.left : Int) < 16 * s.left + price) :
    Handled entry s (t.mapField entry) := by
  have opened := (moves.take reads.opened).take reads.opened
  have typed := opened.takeAs (.reference .mapKeyType) reads.opened rfl
  have hopened := t.take.left_take_le
  have hkey := t.take.take.left_takeAs_le (.reference .mapKeyType)
  have hcomma := (t.take.take.takeAs (.reference .mapKeyType)).left_take_le
  rw [mapField]
  refine handled_require ?_ fun _ => handled_expect ?_ fun _ => handled_require ?_ fun hvalue => ?_
  · exact handled_failMapField (opened.report _) reads (by rw [left_report]; omega)
  · exact handled_failMapField (typed.report _) reads (by rw [left_report]; omega)
  · exact handled_failMapField ((typed.take reads.opened).report _) reads
      (by rw [left_report]; omega)
  · refine handled_wait (typed.take reads.opened) reads rfl rfl ⟨hvalue, rfl⟩ ?_
    have hcost : (Goal.qualifiedName (some (.reference .mapValueType))).cost = -15 := rfl
    omega

theorem handled_mapFieldAfterValue (goal : entry.goal = .mapFieldAfterValue) :
    Handled entry s (s.mapFieldAfterValue entry) := by
  have reads : entry.goal.Reads .statement 1 := goal ▸ ⟨rfl, rfl, rfl, rfl⟩
  rw [mapFieldAfterValue]
  split
  case isTrue hfailed =>
    have moves : Moves entry s entry.broken s := Pending.broken_eq hfailed ▸ .start
    exact handled_failMapField moves reads (by omega)
  case isFalse =>
    have hle := s.left_take_le
    refine handled_expect ?_ fun _ => ?_
    · exact handled_failMapField (Moves.start.report _) reads (by rw [left_report]; omega)
    · exact handled_fieldNameAndNumber (Moves.start.take reads.opened) reads rfl (by omega)

/-- A field begins with a type, or with a modifier and a type. -/
theorem handled_field (h : Pursued entry s) (goal : entry.goal = .field) :
    Handled entry s (s.field entry) := by
  have reads : entry.goal.Reads .statement (-13) := goal ▸ ⟨rfl, rfl, rfl, rfl⟩
  have ready : startsType s.kind = true := by
    have hready := h.ready
    rwa [goal] at hready
  have typed {t : ParseState} (moves : Moves entry s entry t) (hleft : t.left ≤ s.left)
      (htype : startsType t.kind = true) :
      Handled entry s
        (if t.kind = .keyword .kwMap ∧ t.following = .opener .angle then t.mapField entry
        else t.require (startsType t.kind) [.typeName] (failStatement entry .field) fun s =>
          (s.resume entry .fieldAfterType).pushGoal
            (.qualifiedName (some (.reference .fieldType)))) := by
    split
    case isTrue hmap =>
      have hread := t.left_take_lt (startsType_ne_eof htype)
      exact handled_mapField moves reads (by omega)
    case isFalse =>
      rw [require, if_pos htype]
      refine handled_wait moves reads rfl rfl ⟨htype, rfl⟩ ?_
      have hcost : (Goal.qualifiedName (some (.reference .fieldType))).cost = -15 := rfl
      omega
  rw [field]
  split
  case isTrue hmodified =>
    have hnext : startsType s.take.kind = true := by
      rw [take, kind_addLeaf]
      exact (Bool.and_eq_true_iff.mp hmodified).2
    exact typed (Moves.start.take reads.opened) s.left_take_le hnext
  case isFalse => exact typed .start (Nat.le_refl _) ready

theorem handled_fieldAfterType (goal : entry.goal = .fieldAfterType) :
    Handled entry s (s.fieldAfterType entry) := by
  have reads : entry.goal.Reads .statement 1 := goal ▸ ⟨rfl, rfl, rfl, rfl⟩
  rw [fieldAfterType]
  split
  case isTrue hfailed =>
    have moves : Moves entry s entry.broken s := Pending.broken_eq hfailed ▸ .start
    exact handled_failStatement moves reads rfl (by omega)
  case isFalse => exact handled_fieldNameAndNumber .start reads rfl (by omega)

/-! ## Enum values -/

theorem handled_enumValue (h : Pursued entry s) (goal : entry.goal = .enumValue) :
    Handled entry s (s.enumValue entry) := by
  have reads : entry.goal.Reads .statement (-15) := goal ▸ ⟨rfl, rfl, rfl, rfl⟩
  have hready : s.kind.isIdentifierLike = true := by
    have hready := h.ready
    rwa [goal] at hready
  have hread := s.left_takeAs_lt .name (h.there (goal ▸ rfl))
  have hequals := (s.takeAs .name).left_take_le
  have hsign := left_takeIf_le (s.takeAs .name).take ((s.takeAs .name).take.kind = .minus)
  have named : Moves entry s entry (s.takeAs .name) :=
    Moves.start.takeAs .name reads.opened rfl
  have signed := (named.take reads.opened).takeIf ((s.takeAs .name).take.kind = .minus)
    reads.opened
  rw [enumValue, require, if_pos hready]
  refine handled_expect ?_ fun _ => handled_expect ?_ fun _ => ?_
  · exact handled_failStatement (named.report _) reads rfl (by rw [left_report]; omega)
  · exact handled_failStatement (signed.report _) reads rfl (by rw [left_report]; omega)
  · have hnumber := ParseState.left_take_le
      (if (s.takeAs .name).take.kind = .minus then (s.takeAs .name).take.take
        else (s.takeAs .name).take)
    exact handled_optionsOrEnd (signed.take reads.opened) reads rfl (by omega)

/-! ## Ranges -/

/-- An integer is read, or reported missing. -/
theorem signedInteger_cases {holds : ParseState → Prop} {fail ok : ParseState → ParseState}
    (opened : entry.goal.isOpen = true)
    (hfail : ∀ u, Moves entry t entry.broken u → u.left ≤ t.left → holds (fail u))
    (hok : ∀ u, Moves entry t entry u → u.left < t.left → holds (ok u)) :
    holds (t.signedInteger fail ok) := by
  have hsign := left_takeIf_le t (t.kind = .minus)
  have signed : Moves entry t entry (if t.kind = .minus then t.take else t) :=
    Moves.start.takeIf (t.kind = .minus) opened
  rw [signedInteger]
  generalize (if t.kind = .minus then t.take else t) = u at hsign signed ⊢
  rw [expect, require]
  split
  case isTrue hkind =>
    have hread := u.left_take_lt (by rw [eq_of_beq hkind]; simp)
    exact hok _ (signed.take opened) (by omega)
  case isFalse => exact hfail _ (signed.report _) (by rw [left_report]; omega)

theorem handled_range {fail ok : ParseState → ParseState} (moves : Moves entry s entry t)
    (opened : entry.goal.isOpen = true) (unmarked : entry.failed = false)
    (hfail : ∀ u, Moves entry s entry.broken u → u.left ≤ t.left → Handled entry s (fail u))
    (hok : ∀ u, Moves entry s entry u → u.left < t.left → Handled entry s (ok u)) :
    Handled entry s (t.range fail ok) := by
  -- what has been read since `t` is not empty, so the range has a leaf
  have hdone : ∀ u, Moves entry t entry u → u.left < t.left → Handled entry s
      (ok (u.addParent (some t.position) t.nodes.size (some .range) false)) := by
    intro u hu hleft
    have hgrows := hu.grows
    exact hok _ (moves.range hu opened unmarked (by omega)) hleft
  rw [range]
  refine signedInteger_cases opened (fun u hu hleft => hfail u (moves.trans hu) hleft) ?_
  intro lower hlower hleft
  have hto := lower.left_take_le
  have hmax := lower.take.left_take_le
  split
  case isFalse => exact hdone lower hlower hleft
  case isTrue =>
    dsimp only
    split
    case isTrue =>
      exact hdone _ ((hlower.take opened).take opened) (by omega)
    case isFalse =>
      split
      case isTrue =>
        refine signedInteger_cases opened ?_ ?_
        · intro u hu hupper
          exact hfail u (moves.trans ((hlower.take opened).trans hu)) (by omega)
        · intro u hu hupper
          exact hdone u ((hlower.take opened).trans hu) (by omega)
      case isFalse =>
        exact hfail _ ((moves.trans (hlower.take opened)).report _) (by rw [left_report]; omega)

theorem handled_rangesGoOn {kind : RangesKind} (moves : Moves entry s entry t)
    (reads : entry.goal.Reads .statement 1) (unmarked : entry.failed = false)
    (hleft : t.left < s.left) :
    Handled entry s (t.rangesGoOn kind entry) := by
  unfold rangesGoOn
  split
  case isTrue hkind =>
    have hread := t.left_take_le
    refine ⟨entry, t.take, moves.take reads.opened,
      .goOn (.rangesItem kind) reads.opened rfl reads.covers.symm rfl (fun _ => unmarked) ?_ ?_⟩
    · exact Goal.carried_eq_false reads.covers
    · have hcost : (Goal.rangesItem kind).cost = 1 := rfl
      rw [reads.cost]
      omega
  case isFalse =>
    cases kind with
    | extensions => exact handled_optionsOrEnd moves reads rfl (by omega)
    | reserved => exact handled_endStatement moves reads rfl (by omega)

theorem handled_rangesItem {kind : RangesKind} (h : Pursued entry s)
    (goal : entry.goal = .rangesItem kind) : Handled entry s (s.rangesItem kind entry) := by
  have reads : entry.goal.Reads .statement 1 := goal ▸ ⟨rfl, rfl, rfl, rfl⟩
  have unmarked : entry.failed = false := h.fresh (goal ▸ rfl)
  have fails {t : ParseState} (moves : Moves entry s entry.broken t) (hleft : t.left ≤ s.left) :
      Handled entry s (t.failStatement entry kind.declaration) := by
    refine handled_failStatement moves reads ?_ (by omega)
    cases kind <;> rfl
  have ranges : Handled entry s
      (s.range (failStatement entry kind.declaration) (rangesGoOn kind entry)) :=
    handled_range .start reads.opened unmarked (fun u hu hleft => fails hu hleft)
      fun u hu hleft => handled_rangesGoOn hu reads unmarked hleft
  have named (hthere : s.kind ≠ .eof) : Handled entry s (s.take.rangesGoOn kind entry) := by
    have hread := s.left_take_lt hthere
    exact handled_rangesGoOn (Moves.start.take reads.opened) reads unmarked (by omega)
  unfold rangesItem
  split
  case h_1 => exact ranges
  case h_2 => exact ranges
  case h_7 => exact fails (Moves.start.report _) (Nat.le_refl _)
  case h_8 => exact fails (Moves.start.report _) (Nat.le_refl _)
  all_goals
    rename_i hkind
    exact named (by rw [hkind]; simp)

theorem handled_ranges {kind : RangesKind} (h : Pursued entry s)
    (goal : entry.goal = .ranges kind) : Handled entry s (s.ranges kind entry) := by
  have reads : entry.goal.Reads .statement (-14) := goal ▸ ⟨rfl, rfl, rfl, rfl⟩
  have unmarked : entry.failed = false := h.fresh (goal ▸ rfl)
  have hread := s.left_take_lt (h.there (goal ▸ rfl))
  refine ⟨entry, s.take, Moves.start.take reads.opened,
    .goOn (.rangesItem kind) reads.opened rfl reads.covers.symm rfl (fun _ => unmarked) ?_ ?_⟩
  · exact Goal.carried_eq_false reads.covers
  · have hcost : (Goal.rangesItem kind).cost = 1 := rfl
    rw [reads.cost]
    omega

end ProtoFront
