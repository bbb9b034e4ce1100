import ProtoFront.Parse.Run
import ProtoFront.Proofs.Parse.Recovery

/-!
# Steps at statements

Every goal that begins, continues or ends a statement, and the goals that go from one statement to
the next, are handled: their steps consist of moves and one end.
-/

namespace ProtoFront

open ParseState

variable {entry : Pending} {s t : ParseState} {price : Int}

/-- A word that is expected is not the end of the input. -/
theorem TokenKind.ne_eof_of_isIdentifierLike {kind : TokenKind} (h : kind.isIdentifierLike = true) :
    kind ≠ .eof := by
  rintro rfl
  cases h

theorem ParseState.startsType_ne_eof {kind : TokenKind} (h : startsType kind = true) :
    kind ≠ .eof := by
  rintro rfl
  exact absurd h (by decide)

/-- What was reported last is a report. -/
theorem ParseState.diagnostics_ne_of_reportedHere (h : s.reportedHere = true) :
    s.diagnostics ≠ #[] := by
  intro hnone
  simp [reportedHere, hnone] at h

/-! ## The statements of a file -/

theorem ParseState.topLevel?_eq_some {kind : TokenKind} {goal : Goal}
    (h : topLevel? kind = some goal) :
    goal.Begins kind ∧ goal.part = .statement ∧ goal.cost < 0 := by
  unfold topLevel? at h
  split at h <;> first
    | (cases h; done)
    | (cases h; exact ⟨⟨rfl, rfl⟩, rfl, by decide⟩)

theorem handled_file (h : Pursued entry s) (goal : entry.goal = .file) :
    Handled entry s (s.file entry) := by
  have opened : entry.goal.isOpen = true := by rw [goal]; rfl
  have part : Goal.file.part = entry.goal.part := by rw [goal]
  have carried : entry.goal.carried = Goal.file.carried := by rw [goal]
  have cost : entry.goal.cost = 1 := by rw [goal]; rfl
  rw [file]
  split
  case h_1 next hnext =>
    obtain ⟨begins, hpart, hcost⟩ := topLevel?_eq_some hnext
    refine ⟨entry, s, .start, .delegate .file next entry.failed opened part ?_ begins ?_ ?_⟩
    · rw [hpart]; rfl
    · rw [Pending.flagged, carried]
    · have hcost : Goal.file.cost = 1 := rfl
      rw [cost]
      omega
  case h_2 =>
    split
    case h_1 hkind =>
      have hrest := h.atEnd hkind
      exact ⟨entry, s, .start, .finish part.symm hrest (by rw [left, hrest]; rfl)⟩
    case h_2 hkind =>
      have hleft := s.left_take_lt (by simp [hkind])
      refine ⟨entry, s.take, Moves.start.take opened,
        .goOn .file opened rfl part rfl (by rintro ⟨⟩) carried ?_⟩
      have hcost : Goal.file.cost = 1 := rfl
      rw [cost]
      omega
    case h_3 hthere _ =>
      -- the report marks the token that is skipped, and not the file
      dsimp only
      split
      case isTrue hreported =>
        have hdiagnostics := diagnostics_ne_of_reportedHere hreported
        exact ⟨entry, s, .start, .junk entry.failed goal (Nat.le_refl _) hthere hdiagnostics⟩
      case isFalse =>
        have hdiagnostics := s.diagnostics_report_ne [.topLevelStatement]
        exact ⟨entry.broken, _, Moves.start.report _,
          .junk entry.failed goal (Nat.le_refl _) hthere hdiagnostics⟩

theorem handled_syntaxLevel (h : Pursued entry s) (goal : entry.goal = .syntaxLevel) :
    Handled entry s (s.syntaxLevel entry) := by
  have reads : entry.goal.Reads .statement (-15) := goal ▸ ⟨rfl, rfl, rfl, rfl⟩
  have hread := s.left_take_lt (h.there (goal ▸ rfl))
  have moves : Moves entry s entry s.take := Moves.start.take reads.opened
  have close (kind : DeclarationKind) (plain : (NodeKind.declaration kind).isPlain = true) :
      Handled entry s
        (s.take.expect .equals (failStatement entry kind) fun s =>
          s.expectStrings (failStatement entry kind) (endStatement entry kind)) := by
    have hequals := s.take.left_take_le
    have hstrings := s.take.take.left_takeRun_le (· == .stringLiteral)
    refine handled_expect ?_ fun _ => handled_expectStrings ?_ fun _ => ?_
    · exact handled_failStatement (moves.report _) reads plain (by rw [left_report]; omega)
    · exact handled_failStatement ((moves.take reads.opened).report _) reads plain
        (by rw [left_report]; omega)
    · exact handled_endStatement ((moves.take reads.opened).takeRun _ reads.opened) reads plain
        (by omega)
  rw [syntaxLevel]
  refine close _ ?_
  split <;> rfl

theorem handled_importing (h : Pursued entry s) (goal : entry.goal = .importing) :
    Handled entry s (s.importing entry) := by
  have reads : entry.goal.Reads .statement (-15) := goal ▸ ⟨rfl, rfl, rfl, rfl⟩
  have hread := s.left_take_lt (h.there (goal ▸ rfl))
  have moves : Moves entry s entry s.take := Moves.start.take reads.opened
  have close {t : ParseState} (moves : Moves entry s entry t) (hleft : t.left ≤ s.take.left) :
      Handled entry s
        (t.expectStrings (failStatement entry .importing) (endStatement entry .importing)) := by
    have hstrings := t.left_takeRun_le (· == .stringLiteral)
    refine handled_expectStrings ?_ fun _ => ?_
    · exact handled_failStatement (moves.report _) reads rfl (by rw [left_report]; omega)
    · exact handled_endStatement (moves.takeRun _ reads.opened) reads rfl (by omega)
  rw [importing]
  exact close (moves.takeIf _ reads.opened) (left_takeIf_le _ _)

theorem handled_package (h : Pursued entry s) (goal : entry.goal = .package) :
    Handled entry s (s.package entry) := by
  have reads : entry.goal.Reads .statement (-15) := goal ▸ ⟨rfl, rfl, rfl, rfl⟩
  have hread := s.left_take_lt (h.there (goal ▸ rfl))
  have moves : Moves entry s entry s.take := Moves.start.take reads.opened
  rw [package]
  refine handled_require ?_ fun hword => ?_
  · exact handled_failStatement (moves.report _) reads rfl (by rw [left_report]; omega)
  · refine handled_wait moves reads rfl rfl ⟨hword, rfl⟩ ?_
    have hcost : (Goal.qualifiedName (some .name)).cost = -15 := rfl
    omega

/-! ## Options and the ends of statements -/

theorem handled_optionStatement (h : Pursued entry s) (goal : entry.goal = .option) :
    Handled entry s (s.optionStatement entry) := by
  have reads : entry.goal.Reads .statement (-11) := goal ▸ ⟨rfl, rfl, rfl, rfl⟩
  have hread := s.left_take_lt (h.there (goal ▸ rfl))
  refine handled_wait (Moves.start.take reads.opened) reads rfl rfl ⟨rfl, rfl⟩ ?_
  have hcost : Goal.optionName.cost = 3 := rfl
  omega

theorem handled_optionAfterName (goal : entry.goal = .optionAfterName) :
    Handled entry s (s.optionAfterName entry) := by
  have reads : entry.goal.Reads .statement 1 := goal ▸ ⟨rfl, rfl, rfl, rfl⟩
  rw [optionAfterName]
  split
  case isTrue hfailed =>
    have moves : Moves entry s entry.broken s := Pending.broken_eq hfailed ▸ .start
    exact handled_failStatement moves reads rfl (by omega)
  case isFalse =>
    refine handled_expect ?_ fun hkind => ?_
    · exact handled_failStatement (Moves.start.report _) reads rfl (by rw [left_report]; omega)
    · have hread := s.left_take_lt (by rw [hkind]; simp)
      refine handled_wait (Moves.start.take reads.opened) reads rfl rfl ⟨rfl, rfl⟩ ?_
      have hcost : Goal.value.cost = 1 := rfl
      omega

theorem handled_statementEnd {kind : DeclarationKind} (reads : entry.goal.Reads .statement 1)
    (plain : (NodeKind.declaration kind).isPlain = true) :
    Handled entry s (s.statementEnd kind entry) := by
  rw [statementEnd]
  split
  case isTrue hfailed =>
    have moves : Moves entry s entry.broken s := Pending.broken_eq hfailed ▸ .start
    exact handled_failStatement moves reads plain (by omega)
  case isFalse => exact handled_endStatement .start reads plain (by omega)

theorem handled_optionsOrEnd {kind : DeclarationKind} (moves : Moves entry s entry t)
    (reads : entry.goal.Reads .statement price) (plain : (NodeKind.declaration kind).isPlain = true)
    (paid : 16 * (t.left : Int) < 16 * s.left + price) :
    Handled entry s (t.optionsOrEnd kind entry) := by
  rw [optionsOrEnd]
  split
  case h_1 hkind =>
    refine handled_wait moves reads rfl (if_pos plain) (by rw [hkind]; exact ⟨rfl, rfl⟩) ?_
    have hcost : Goal.optionList.cost = -9 := rfl
    omega
  case h_2 hkind =>
    have hle := t.left_take_le
    exact handled_closeStatement (moves.take reads.opened) reads plain (by omega)
  case h_3 => exact handled_failStatement (moves.report _) reads plain (by rwa [left_report])

end ProtoFront
