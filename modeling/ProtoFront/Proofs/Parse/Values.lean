import ProtoFront.Proofs.Parse.Options

/-!
# Steps at values

A text message that meets something else than a field skips it. If there is nothing to skip, the
message ends, since the next token is a closer that a construct around it waits for.
-/

namespace ProtoFront

open ParseState

variable {entry : Pending} {s t : ParseState}

theorem handled_value (h : Pursued entry s) (goal : entry.goal = .value) :
    Handled entry s s.value := by
  have reads : entry.goal.Reads .value 1 := goal ▸ ⟨rfl, rfl, rfl, rfl⟩
  have carried : entry.goal.carried = false := by rw [goal]; rfl
  have unmarked : entry.failed = false := h.fresh (goal ▸ rfl)
  have hle := s.left_take_le
  have moves : Moves entry s entry s.take := Moves.start.take reads.opened
  have done : Handled entry s s.take :=
    handled_done moves reads (by simp) carried unmarked (by omega)
  have missing : Handled entry s s.missingValue :=
    handled_markEnclosing (Moves.start.report _) reads (by simp) carried
      (by rw [left_report]; omega)
  have signed : Handled entry s (if s.following.isNumber || s.following == .identifier then
      s.take.take else s.missingValue) := by
    have hnumber := s.take.left_take_le
    split
    · exact handled_done (moves.take reads.opened) reads (by simp) carried unmarked (by omega)
    · exact missing
  have replace {next : Goal} (part : next.part = .value) (begins : next.Begins s.kind)
      (cost : next.cost < 1) : Handled entry s (s.pushGoal next) :=
    handled_replace .start reads carried unmarked part begins (by omega)
  rw [value]
  split
  case h_1 =>
    have hrun := s.left_takeRun_le (· == .stringLiteral)
    exact handled_done (Moves.start.takeRun _ reads.opened) reads (by simp) carried unmarked
      (by omega)
  case h_7 => exact signed
  case h_8 => exact signed
  case h_9 hkind => exact replace rfl (by rw [hkind]; exact ⟨rfl, rfl⟩) (by decide)
  case h_10 hkind => exact replace rfl (by rw [hkind]; exact ⟨rfl, rfl⟩) (by decide)
  case h_11 hkind => exact replace rfl (by rw [hkind]; exact ⟨rfl, rfl⟩) (by decide)
  case h_12 => exact missing
  all_goals exact done

/-! ## Text messages -/

theorem handled_textMessage {pair : Bracket} (h : Pursued entry s)
    (goal : entry.goal = .textMessage pair) : Handled entry s (s.textMessage pair entry) := by
  have opened : entry.goal.isOpen = true := by rw [goal]; rfl
  have hread := s.left_take_lt (h.there (goal ▸ rfl))
  rw [textMessage]
  refine ⟨entry, s.take, Moves.start.take opened,
    .goOn (.textMessageBody pair) opened rfl ?_ rfl (by rintro ⟨⟩) ?_ ?_⟩
  · rw [goal]
    rfl
  · rw [goal]
    rfl
  · have hcost : (Goal.textMessage pair).cost = -14 := rfl
    have hbody : (Goal.textMessageBody pair).cost = 1 := rfl
    rw [goal]
    omega

/-- The parser either gets on, or leaves the text message. -/
theorem handled_textMessageJunk {pair : Bracket} (goal : entry.goal = .textMessageBody pair) :
    Handled entry s (s.textMessageJunk pair entry) := by
  have reads : entry.goal.Reads .value 1 := goal ▸ ⟨rfl, rfl, rfl, rfl⟩
  have junk {t : ParseState} (moves : Moves entry s entry.broken t) :
      Handled entry s
        (if t.position = s.position then t.closeTextMessage entry.broken
          else t.resume entry.broken (.textMessageBody pair)) := by
    split
    case isTrue =>
      have hle := moves.left_le
      exact handled_close moves reads rfl (fun _ => rfl) (by omega)
    case isFalse hposition =>
      have hlt := moves.left_lt_of_position_ne hposition
      refine ⟨entry.broken, t, moves,
        .goOn (.textMessageBody pair) reads.opened rfl reads.covers.symm rfl (by rintro ⟨⟩) ?_ ?_⟩
      · exact congrArg Goal.carried goal
      · have hcost : entry.broken.goal.cost = 1 := reads.cost
        have hbody : (Goal.textMessageBody pair).cost = 1 := rfl
        omega
  have separated {t : ParseState} (moves : Moves entry s entry.broken t) :
      Moves entry s entry.broken (if isTextSeparator t.kind then t.discard else t) := by
    split
    · exact moves.discard reads.opened rfl
    · exact moves
  rw [textMessageJunk]
  by_cases hreported : s.reportedHere = true
  · have hdiagnostics := diagnostics_ne_of_reportedHere hreported
    rw [if_pos hreported]
    exact junk (separated ((Moves.start.breaks hdiagnostics).skipTo _ reads.opened rfl))
  · rw [if_neg hreported]
    exact junk (separated ((Moves.start.report _).recoverTo _ reads.opened rfl))

theorem handled_textMessageBody {pair : Bracket} (goal : entry.goal = .textMessageBody pair) :
    Handled entry s (s.textMessageBody pair entry) := by
  have reads : entry.goal.Reads .value 1 := goal ▸ ⟨rfl, rfl, rfl, rfl⟩
  have carried : entry.goal.carried = false := by rw [goal]; rfl
  rw [textMessageBody]
  split
  case isTrue =>
    have hle := s.left_take_le
    exact handled_close (Moves.start.take reads.opened) reads rfl (carried ▸ (by simp)) (by omega)
  case isFalse =>
    split
    case isTrue =>
      exact handled_close (Moves.start.report _) reads rfl (fun _ => rfl)
        (by rw [left_report]; omega)
    case isFalse =>
      split
      case isTrue hfield =>
        have awaits : (Goal.textMessageBody pair).awaits? = some Goal.textField.part := rfl
        refine handled_delegate .start reads entry.failed rfl awaits ⟨hfield, rfl⟩ ?_ ?_
        · rw [Pending.flagged, carried]
          rfl
        · have hcost : Goal.textField.cost = -13 := rfl
          omega
      case isFalse => exact handled_textMessageJunk goal

/-! ## Text fields -/

theorem ParseState.compositeGoal?_eq_some {kind : TokenKind} {goal : Goal}
    (h : compositeGoal? kind = some goal) :
    goal.Begins kind ∧ goal.part = .value ∧ goal.cost < 0 := by
  unfold compositeGoal? at h
  split at h <;> first
    | (cases h; done)
    | (cases h; exact ⟨⟨rfl, rfl⟩, rfl, by decide⟩)

theorem handled_textFieldValue (moves : Moves entry s entry t)
    (reads : entry.goal.Reads .textField (-13)) (carried : entry.goal.carried = false)
    (hleft : t.left < s.left) : Handled entry s (t.textFieldValue entry) := by
  have hcolon := left_takeIf_le t ((t.kind == .colon) = true)
  have named := moves.takeIf ((t.kind == .colon) = true) reads.opened
  have kept : (entry.failed || Goal.textFieldEnd.carried) = entry.flagged := by
    rw [Pending.flagged, carried]
    rfl
  have value : Goal.value.cost = 1 := rfl
  rw [textFieldValue]
  dsimp only
  generalize (if t.kind == .colon then t.take else t) = u at hcolon named ⊢
  split
  case h_1 next hnext =>
    obtain ⟨begins, hpart, hcost⟩ := compositeGoal?_eq_some hnext
    exact handled_delegate named reads entry.failed rfl (hpart ▸ rfl) begins kept (by omega)
  case h_2 =>
    split
    case isTrue =>
      exact handled_delegate named reads entry.failed rfl rfl ⟨rfl, rfl⟩ kept (by omega)
    case isFalse =>
      have reported := named.report [.token .colon]
      split
      case isTrue =>
        exact handled_delegate reported reads true rfl rfl ⟨rfl, rfl⟩ rfl
          (by rw [left_report]; omega)
      case isFalse =>
        exact handled_close reported reads rfl (fun _ => rfl) (by rw [left_report]; omega)

theorem handled_textField (h : Pursued entry s) (goal : entry.goal = .textField) :
    Handled entry s (s.textField entry) := by
  have reads : entry.goal.Reads .textField (-13) := goal ▸ ⟨rfl, rfl, rfl, rfl⟩
  have carried : entry.goal.carried = false := by rw [goal]; rfl
  have hread := s.left_take_lt (h.there (goal ▸ rfl))
  have moves : Moves entry s entry s.take := Moves.start.take reads.opened
  rw [textField]
  split
  case isTrue =>
    have hrun := s.take.left_takeRun_le isExtensionNamePart
    have hclose := (s.take.takeRun isExtensionNamePart).left_take_le
    have named := moves.takeRun isExtensionNamePart reads.opened
    refine handled_expect ?_ fun _ => ?_
    · exact handled_close (named.report _) reads rfl (fun _ => rfl)
        (by rw [left_report]; omega)
    · exact handled_textFieldValue (named.take reads.opened) reads carried (by omega)
  case isFalse => exact handled_textFieldValue moves reads carried (by omega)

theorem handled_textFieldEnd (goal : entry.goal = .textFieldEnd) :
    Handled entry s (s.textFieldEnd entry) := by
  have reads : entry.goal.Reads .textField 1 := goal ▸ ⟨rfl, rfl, rfl, rfl⟩
  rw [textFieldEnd]
  split
  case isTrue => exact ⟨entry, s, .start, .separate goal (Nat.le_refl _)⟩
  case isFalse =>
    split
    case isTrue => exact ⟨entry, s, .start, .terminate goal (Nat.le_refl _)⟩
    case isFalse => exact handled_close .start reads rfl (goal ▸ (by rintro ⟨⟩)) (by omega)

end ProtoFront
