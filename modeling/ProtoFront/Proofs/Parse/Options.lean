import ProtoFront.Proofs.Parse.Names

/-!
# Steps at lists

A list goes on at its next separator. If it finds none, it ends.
-/

namespace ProtoFront

open ParseState

variable {entry : Pending} {s t : ParseState}

theorem handled_optionList (h : Pursued entry s) (goal : entry.goal = .optionList) :
    Handled entry s (s.optionList entry) := by
  have reads : entry.goal.Reads .optionList (-9) := goal ▸ ⟨rfl, rfl, rfl, rfl⟩
  have carried : entry.goal.carried = false := by rw [goal]; rfl
  have hread := s.left_take_lt (h.there (goal ▸ rfl))
  rw [optionList]
  refine handled_delegate (Moves.start.take reads.opened) reads entry.failed rfl rfl ⟨rfl, rfl⟩
    ?_ ?_
  · rw [Pending.flagged, carried]
    rfl
  · have hcost : Goal.listOption.cost = 5 := rfl
    omega

theorem handled_textList (h : Pursued entry s) (goal : entry.goal = .textList) :
    Handled entry s (s.textList entry) := by
  have reads : entry.goal.Reads .value (-13) := goal ▸ ⟨rfl, rfl, rfl, rfl⟩
  have carried : entry.goal.carried = false := by rw [goal]; rfl
  have hread := s.left_take_lt (h.there (goal ▸ rfl))
  have moves : Moves entry s entry s.take := Moves.start.take reads.opened
  rw [textList]
  split
  case isTrue =>
    have hle := s.take.left_take_le
    exact handled_close (moves.take reads.opened) reads rfl (carried ▸ (by simp)) (by omega)
  case isFalse =>
    refine handled_delegate moves reads entry.failed rfl rfl ⟨rfl, rfl⟩ ?_ ?_
    · rw [Pending.flagged, carried]
      rfl
    · have hcost : Goal.value.cost = 1 := rfl
      omega

/-- The part that a list is. -/
def ListKind.part : ListKind → Part
  | options => .optionList
  | values => .value

theorem handled_listGoOn {list : ListKind} {failed : Bool}
    (moves : Moves entry s { entry with failed } t) (reads : entry.goal.Reads list.part 1)
    (carried : entry.goal.carried = true → failed = true)
    (found : failed = true ∨ isListSeparator t.kind = true) (hleft : t.left ≤ s.left) :
    Handled entry s (t.listGoOn list failed entry) := by
  have plain : list.tag?.all NodeKind.isPlain = true := by cases list <;> rfl
  rw [listGoOn]
  split
  case h_1 hkind =>
    have hread := t.left_take_lt (by rw [hkind]; simp)
    have awaits : (Goal.listAfterItem list failed).awaits? = some list.item.part := by
      cases list <;> rfl
    -- the list goes on unmarked: its goal carries the mark
    refine handled_delegate (moves.take reads.opened) reads false ?_ awaits ?_ ?_ ?_
    · cases list <;> rfl
    · cases list <;> exact ⟨rfl, rfl⟩
    · cases failed with
      | false =>
        have hcarried : entry.goal.carried = false := by simpa using carried
        rw [Pending.flagged, hcarried]
        rfl
      | true => rfl
    · have hitem : list.item.cost ≤ 5 := by cases list <;> decide
      omega
  case h_2 =>
    have hle := t.left_take_le
    exact handled_close (moves.take reads.opened) reads plain carried (by omega)
  case h_3 hcomma hsquare =>
    have hfailed : failed = true := found.resolve_right fun hseparator => by
      rw [isListSeparator, Bool.or_eq_true_iff, beq_iff_eq, beq_iff_eq] at hseparator
      exact hseparator.elim hcomma hsquare
    subst hfailed
    exact handled_close moves reads plain (fun _ => rfl) (by omega)

theorem handled_listAfterItem {list : ListKind} {failed : Bool} (h : Pursued entry s)
    (goal : entry.goal = .listAfterItem list failed) :
    Handled entry s (s.listAfterItem list failed entry) := by
  have reads : entry.goal.Reads list.part 1 := by
    rw [goal]
    cases list <;> exact ⟨rfl, rfl, rfl, rfl⟩
  have carried : entry.goal.carried = failed := by rw [goal]; rfl
  have plain : list.tag?.all NodeKind.isPlain = true := by cases list <;> rfl
  rw [listAfterItem]
  split
  case isTrue hfailed =>
    have moves : Moves entry s { entry with failed := true } s := Pending.broken_eq hfailed ▸ .start
    exact handled_listGoOn (moves.skipTo _ reads.opened rfl) reads (fun _ => rfl) (.inl rfl)
      (left_skipTo_le _ _)
  case isFalse hunmarked =>
    split
    case isTrue hseparator =>
      have moves : Moves entry s { entry with failed } s := by
        cases failed with
        | false => exact (show { entry with failed := false } = entry by
            rw [← Bool.eq_false_iff.mpr hunmarked]) ▸ .start
        | true =>
          refine Moves.start.breaks (h.reported ?_)
          rw [Pending.flagged, carried, Bool.or_true]
      exact handled_listGoOn moves reads (fun h => carried ▸ h) (.inr hseparator) (Nat.le_refl _)
    case isFalse =>
      have moves : Moves entry s { entry with failed := true }
          ((s.report [.token .comma, .token (.closer .square)]).recoverTo isListSeparator).1 :=
        (Moves.start.report _).recoverTo _ reads.opened rfl
      have hle := (s.report [.token .comma, .token (.closer .square)]).left_recoverTo_le
        isListSeparator
      rw [left_report] at hle
      split
      case h_1 hrecover =>
        rw [hrecover] at moves hle
        dsimp only at hle
        exact handled_close moves reads plain (fun _ => rfl) (by omega)
      case h_2 hrecover =>
        rw [hrecover] at moves hle
        exact handled_listGoOn moves reads (fun _ => rfl) (.inl rfl) hle

theorem handled_listOption (goal : entry.goal = .listOption) :
    Handled entry s (s.listOption entry) := by
  have reads : entry.goal.Reads .listOption 5 := goal ▸ ⟨rfl, rfl, rfl, rfl⟩
  have carried : entry.goal.carried = false := by rw [goal]; rfl
  rw [listOption]
  refine handled_delegate .start reads entry.failed rfl rfl ⟨rfl, rfl⟩ ?_ ?_
  · rw [Pending.flagged, carried]
    rfl
  · have hcost : Goal.optionName.cost = 3 := rfl
    omega

theorem handled_listOptionEnd (goal : entry.goal = .listOptionEnd) :
    Handled entry s (s.listOptionEnd entry) := by
  have reads : entry.goal.Reads .listOption 1 := goal ▸ ⟨rfl, rfl, rfl, rfl⟩
  exact handled_close .start reads rfl (goal ▸ (by rintro ⟨⟩)) (by omega)

theorem handled_listOptionAfterName (goal : entry.goal = .listOptionAfterName) :
    Handled entry s (s.listOptionAfterName entry) := by
  have reads : entry.goal.Reads .listOption 1 := goal ▸ ⟨rfl, rfl, rfl, rfl⟩
  have carried : entry.goal.carried = false := by rw [goal]; rfl
  rw [listOptionAfterName]
  split
  case isTrue => exact handled_close .start reads rfl (carried ▸ (by simp)) (by omega)
  case isFalse =>
    refine handled_expect ?_ fun hkind => ?_
    · exact handled_close (Moves.start.report _) reads rfl (fun _ => rfl)
        (by rw [left_report]; omega)
    · have hread := s.left_take_lt (by rw [hkind]; simp)
      refine handled_delegate (Moves.start.take reads.opened) reads entry.failed rfl rfl ⟨rfl, rfl⟩
        ?_ ?_
      · rw [Pending.flagged, carried]
        rfl
      · have hcost : Goal.value.cost = 1 := rfl
        omega

end ProtoFront
