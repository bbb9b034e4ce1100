import ProtoFront.Proofs.Parse.Declarations

/-!
# Steps at names

The goals inside a statement have fewer ways to end a step than statements have. Those for names
come first. One that finds neither an identifier nor an opening parenthesis lets go, and the
construct around it fails.
-/

namespace ProtoFront

open ParseState

variable {entry : Pending} {s t : ParseState}

/-! ## Names -/

theorem handled_qualifiedNameFirst {tag? : Option NodeKind} (moves : Moves entry s entry t)
    (reads : entry.goal.Reads (.name tag?) (-15)) (carried : entry.goal.carried = false)
    (plain : tag?.all NodeKind.isPlain = true) (hleft : t.left ≤ s.left)
    (hread : t.kind.isIdentifierLike = true ∨ t.left < s.left) :
    Handled entry s (t.qualifiedNameFirst tag? entry) := by
  rw [qualifiedNameFirst]
  split
  case isTrue hword =>
    have htake := t.left_take_lt (TokenKind.ne_eof_of_isIdentifierLike hword)
    dsimp only
    split
    case isTrue hdot =>
      refine handled_delegate (moves.take reads.opened) reads entry.failed rfl (if_pos plain)
        ?_ ?_ ?_
      · rw [hdot]
        exact ⟨rfl, rfl⟩
      · rw [Pending.flagged, carried]
        rfl
      · have hcost : Goal.qualifiedNameRest.cost = -15 := rfl
        omega
    case isFalse =>
      exact handled_close (moves.take reads.opened) reads plain (carried ▸ (by simp)) (by omega)
  case isFalse hword =>
    have hlt : t.left < s.left := hread.resolve_left hword
    exact handled_close (moves.report _) reads plain (fun _ => rfl) (by rw [left_report]; omega)

theorem handled_qualifiedName {tag? : Option NodeKind} (h : Pursued entry s)
    (goal : entry.goal = .qualifiedName tag?) : Handled entry s (s.qualifiedName tag? entry) := by
  have reads : entry.goal.Reads (.name tag?) (-15) := goal ▸ ⟨rfl, rfl, rfl, rfl⟩
  have carried : entry.goal.carried = false := by rw [goal]; rfl
  have unmarked : entry.failed = false := h.fresh (goal ▸ rfl)
  have there := h.there (goal ▸ rfl)
  obtain ⟨plain, hready⟩ : tag?.all NodeKind.isPlain = true ∧
      (if tag? = some .name then s.kind.isIdentifierLike else startsType s.kind) = true := by
    have hready := h.ready
    rw [goal] at hready
    exact Bool.and_eq_true_iff.mp hready
  rw [qualifiedName]
  split
  case isTrue hdot =>
    have hread := s.left_take_lt there
    exact handled_qualifiedNameFirst (Moves.start.take reads.opened) reads carried plain (by omega)
      (.inr (by omega))
  case isFalse hdot =>
    split
    case isTrue =>
      have hread := s.left_addLeaf_lt tag? false there
      exact handled_done (Moves.start.leaf tag? reads.opened plain) reads (by simp) carried unmarked
        (by omega)
    case isFalse =>
      have hword : s.kind.isIdentifierLike = true := by
        split at hready
        · exact hready
        · rw [startsType, Bool.or_eq_true_iff, beq_iff_eq] at hready
          exact hready.resolve_right hdot
      exact handled_qualifiedNameFirst .start reads carried plain (Nat.le_refl _) (.inl hword)

theorem handled_qualifiedNameRest (h : Pursued entry s) (goal : entry.goal = .qualifiedNameRest) :
    Handled entry s s.qualifiedNameRest := by
  have reads : entry.goal.Reads .nameTail (-15) := goal ▸ ⟨rfl, rfl, rfl, rfl⟩
  have carried : entry.goal.carried = false := by rw [goal]; rfl
  have unmarked : entry.failed = false := h.fresh (goal ▸ rfl)
  have hread := s.left_take_lt (h.there (goal ▸ rfl))
  have hname := s.take.left_take_le
  have dotted : Moves entry s entry s.take := Moves.start.take reads.opened
  rw [qualifiedNameRest]
  split
  case isTrue =>
    dsimp only
    split
    case isTrue hdot =>
      refine handled_replace (dotted.take reads.opened) reads carried unmarked rfl ?_ ?_
      · rw [hdot]
        exact ⟨rfl, rfl⟩
      · have hcost : Goal.qualifiedNameRest.cost = -15 := rfl
        omega
    case isFalse =>
      exact handled_done (dotted.take reads.opened) reads (by simp) carried unmarked (by omega)
  case isFalse =>
    exact handled_markEnclosing (dotted.report _) reads (by simp) carried
      (by rw [left_report]; omega)

theorem handled_qualifiedNameEnd {tag? : Option NodeKind} (h : Pursued entry s)
    (goal : entry.goal = .qualifiedNameEnd tag?) : Handled entry s (s.close entry tag?) := by
  have reads : entry.goal.Reads (.name tag?) 1 := goal ▸ ⟨rfl, rfl, rfl, rfl⟩
  have plain : tag?.all NodeKind.isPlain = true := by
    have hready := h.ready
    rwa [goal] at hready
  exact handled_close .start reads plain (goal ▸ (by rintro ⟨⟩)) (by omega)

/-! ## Names of options -/

theorem handled_optionName (goal : entry.goal = .optionName) :
    Handled entry s (s.optionName entry) := by
  have reads : entry.goal.Reads .optionName 3 := goal ▸ ⟨rfl, rfl, rfl, rfl⟩
  have carried : entry.goal.carried = false := by rw [goal]; rfl
  rw [optionName]
  refine handled_delegate .start reads entry.failed rfl rfl ⟨rfl, rfl⟩ ?_ ?_
  · rw [Pending.flagged, carried]
    rfl
  · have hcost : Goal.optionNamePart.cost = 1 := rfl
    omega

/-- A part has been read, and perhaps another one follows. -/
theorem handled_optionNameDot (moves : Moves entry s entry t)
    (reads : entry.goal.Reads .optionNamePart 1) (carried : entry.goal.carried = false)
    (unmarked : entry.failed = false) (hleft : t.left ≤ s.left) :
    Handled entry s t.optionNameDot := by
  rw [optionNameDot]
  split
  case isTrue hdot =>
    have hread := t.left_take_lt (by rw [hdot]; simp)
    refine handled_replace (moves.take reads.opened) reads carried unmarked rfl ⟨rfl, rfl⟩ ?_
    have hcost : Goal.optionNamePart.cost = 1 := rfl
    omega
  case isFalse =>
    exact handled_done moves reads (by simp) carried unmarked (by omega)

theorem handled_optionNamePart (h : Pursued entry s) (goal : entry.goal = .optionNamePart) :
    Handled entry s s.optionNamePart := by
  have reads : entry.goal.Reads .optionNamePart 1 := goal ▸ ⟨rfl, rfl, rfl, rfl⟩
  have carried : entry.goal.carried = false := by rw [goal]; rfl
  have unmarked : entry.failed = false := h.fresh (goal ▸ rfl)
  have hle := s.left_take_le
  have moves : Moves entry s entry s.take := Moves.start.take reads.opened
  rw [optionNamePart]
  split
  case isTrue => exact handled_optionNameDot moves reads carried unmarked hle
  case isFalse =>
    split
    case isTrue hkind =>
      have hread := s.left_take_lt (by rw [hkind]; simp)
      dsimp only
      split
      case isTrue htype =>
        exact ⟨entry, s.take, moves, .parenthesize goal unmarked htype (by omega)⟩
      case isFalse =>
        exact handled_markEnclosing (moves.report _) reads (by simp) carried
          (by rw [left_report]; omega)
    case isFalse =>
      exact handled_markEnclosing (Moves.start.report _) reads (by simp) carried
        (by rw [left_report]; omega)

theorem handled_optionNameExtensionEnd (goal : entry.goal = .optionNameExtensionEnd) :
    Handled entry s (s.optionNameExtensionEnd entry) := by
  have reads : entry.goal.Reads .optionNamePart 1 := goal ▸ ⟨rfl, rfl, rfl, rfl⟩
  have carried : entry.goal.carried = false := by rw [goal]; rfl
  rw [optionNameExtensionEnd]
  split
  case isTrue hfailed =>
    have moves : Moves entry s entry.broken s := Pending.broken_eq hfailed ▸ .start
    exact handled_markEnclosing moves reads (by simp) carried (by omega)
  case isFalse hfailed =>
    refine handled_expect ?_ fun _ => ?_
    · exact handled_markEnclosing (Moves.start.report _) reads (by simp) carried
        (by rw [left_report]; omega)
    · exact handled_optionNameDot (Moves.start.take reads.opened) reads carried
        (by simpa using hfailed) s.left_take_le

theorem handled_optionNameEnd (goal : entry.goal = .optionNameEnd) :
    Handled entry s (s.close entry (some .optionName)) := by
  have reads : entry.goal.Reads .optionName 1 := goal ▸ ⟨rfl, rfl, rfl, rfl⟩
  exact handled_close .start reads rfl (goal ▸ (by rintro ⟨⟩)) (by omega)

end ProtoFront
