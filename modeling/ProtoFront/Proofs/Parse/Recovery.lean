import ProtoFront.Parse.Declarations
import ProtoFront.Proofs.Parse.Moves

/-!
# Skips and failures as moves

The skips of a failed construct are moves, however far they reach, and the ways in which a
statement ends or fails are ways to end a step. A goal that tests a token and goes on is handled
when both outcomes of the test are (`handled_require`, `handled_expect`).
-/

namespace ProtoFront

theorem TokenKind.eq_opener_of_isOpener {kind : TokenKind} (h : kind.isOpener = true) :
    ∃ pair, kind = .opener pair := by
  cases kind with
  | opener pair => exact ⟨pair, rfl⟩
  | _ => exact absurd h Bool.false_ne_true

theorem Pending.broken_eq {entry : Pending} (h : entry.failed = true) : entry.broken = entry := by
  cases entry
  cases h
  rfl

namespace ParseState

theorem left_discardMany_le (n : Nat) (s : ParseState) : (discardMany n s).left ≤ s.left := by
  induction n generalizing s with
  | zero => exact Nat.le_refl _
  | succ n ih => exact Nat.le_trans (ih _) (s.left_addLeaf_le none true)

theorem left_takeMany_le (n : Nat) (s : ParseState) : (takeMany n s).left ≤ s.left := by
  induction n generalizing s with
  | zero => exact Nat.le_refl _
  | succ n ih => exact Nat.le_trans (ih _) s.left_take_le

theorem left_takeRun_le (s : ParseState) (member : TokenKind → Bool) :
    (s.takeRun member).left ≤ s.left :=
  left_takeMany_le _ s

theorem left_skipTo_le (s : ParseState) (stop : TokenKind → Bool) : (s.skipTo stop).left ≤ s.left :=
  left_discardMany_le _ s

theorem pending_discardMany (n : Nat) (s : ParseState) :
    (discardMany n s).pending = s.pending := by
  induction n generalizing s with
  | zero => rfl
  | succ n ih => rw [discardMany, ih, discard, pending_addLeaf]

theorem pending_skipStatement (origin : Origin) (s : ParseState) :
    (s.skipStatement origin).pending = s.pending := by
  rw [skipStatement]
  split
  · rw [take, pending_addLeaf, pending_discardMany]
  · rw [pending_discardMany]

theorem pending_recoverStatement (origin : Origin) (s : ParseState) :
    (s.recoverStatement origin).pending = s.pending :=
  s.pending_skipStatement origin

/-- A group is its opener and what comes behind it. -/
theorem exists_skipGroup {s : ParseState} (h : s.kind.isOpener = true) :
    ∃ n, s.skipGroup = discardMany n s.discard := by
  rcases hrest : s.cursor.rest with _ | ⟨next, rest⟩
  · rw [kind, Cursor.kind, hrest] at h
    cases h
  · obtain ⟨pair, hpair⟩ : ∃ pair, next.kind = .opener pair := by
      rw [kind, Cursor.kind, hrest] at h
      exact TokenKind.eq_opener_of_isOpener h
    refine ⟨groupExtent [pair] rest, ?_⟩
    rw [skipGroup, hrest, groupExtent, hpair]
    rfl

theorem left_skipGroup_lt {s : ParseState} (h : s.kind.isOpener = true) :
    s.skipGroup.left < s.left := by
  have hkind : s.kind ≠ .eof := by
    intro heof
    rw [heof] at h
    cases h
  obtain ⟨n, hgroup⟩ := exists_skipGroup h
  have hfirst : s.discard.left + 1 = s.left := s.left_addLeaf_lt none true hkind
  have hle := left_discardMany_le n s.discard
  rw [hgroup]
  omega

theorem left_skipStatement_le (s : ParseState) (origin : Origin) :
    (s.skipStatement origin).left ≤ s.left := by
  have hskip := left_discardMany_le (statementExtent origin s.cursor.rest) s
  rw [skipStatement]
  split
  · exact Nat.le_trans (left_take_le _) hskip
  · exact hskip

theorem left_recoverStatement_le (s : ParseState) (origin : Origin) :
    (s.recoverStatement origin).left ≤ s.left :=
  s.left_skipStatement_le origin

theorem left_takeIf_le (s : ParseState) (c : Prop) [Decidable c] :
    (if c then s.take else s).left ≤ s.left := by
  split
  · exact s.left_take_le
  · exact Nat.le_refl _

theorem left_recoverTo_le (s : ParseState) (stop : TokenKind → Bool) :
    (s.recoverTo stop).1.left ≤ s.left :=
  s.left_skipTo_le stop

end ParseState

/-! ## Reading and skipping several tokens -/

namespace Moves

open ParseState

variable {entry now : Pending} {s t : ParseState}

theorem take (h : Moves entry s now t) (opened : now.goal.isOpen = true) :
    Moves entry s now t.take :=
  h.leaf none opened rfl

theorem takeAs (tag : NodeKind) (h : Moves entry s now t) (opened : now.goal.isOpen = true)
    (plain : tag.isPlain = true) : Moves entry s now (t.takeAs tag) :=
  h.leaf (some tag) opened plain

theorem takeMany (n : Nat) (h : Moves entry s now t) (opened : now.goal.isOpen = true) :
    Moves entry s now (ParseState.takeMany n t) := by
  induction n generalizing t with
  | zero => exact h
  | succ n ih => exact ih (h.take opened)

theorem takeIf (c : Prop) [Decidable c] (h : Moves entry s now t)
    (opened : now.goal.isOpen = true) : Moves entry s now (if c then t.take else t) := by
  split
  · exact h.take opened
  · exact h

theorem takeRun (member : TokenKind → Bool) (h : Moves entry s now t)
    (opened : now.goal.isOpen = true) : Moves entry s now (t.takeRun member) :=
  h.takeMany _ opened

theorem discardMany (n : Nat) (h : Moves entry s now t) (opened : now.goal.isOpen = true)
    (failed : now.failed = true) : Moves entry s now (ParseState.discardMany n t) := by
  induction n generalizing t with
  | zero => exact h
  | succ n ih => exact ih (h.discard opened failed)

theorem skipTo (stop : TokenKind → Bool) (h : Moves entry s now t)
    (opened : now.goal.isOpen = true) (failed : now.failed = true) :
    Moves entry s now (t.skipTo stop) :=
  h.discardMany _ opened failed

theorem skipGroup (h : Moves entry s now t) (opened : now.goal.isOpen = true)
    (failed : now.failed = true) : Moves entry s now t.skipGroup :=
  h.discardMany _ opened failed

theorem skipStatement (origin : Origin) (h : Moves entry s now t)
    (opened : now.goal.isOpen = true) (failed : now.failed = true) :
    Moves entry s now (t.skipStatement origin) := by
  have hskip := h.discardMany (statementExtent origin t.cursor.rest) opened failed
  rw [ParseState.skipStatement]
  split
  · exact hskip.take opened
  · exact hskip

theorem recoverTo (stop : TokenKind → Bool) (h : Moves entry s now t)
    (opened : now.goal.isOpen = true) (failed : now.failed = true) :
    Moves entry s now (t.recoverTo stop).1 :=
  (h.skipTo stop opened failed).resync _ failed

theorem recoverStatement (origin : Origin) (h : Moves entry s now t)
    (opened : now.goal.isOpen = true) (failed : now.failed = true) :
    Moves entry s now (t.recoverStatement origin) :=
  (h.skipStatement origin opened failed).resync _ failed

end Moves

/-! ## Tests -/

section

open ParseState

variable {entry : Pending} {s t : ParseState} {expected : List Expectation}
variable {fail ok : ParseState → ParseState}

theorem handled_require {test : Bool} (hfail : Handled entry s (fail (t.report expected)))
    (hok : test = true → Handled entry s (ok t)) :
    Handled entry s (t.require test expected fail ok) := by
  rw [require]
  split
  case isTrue h => exact hok h
  case isFalse => exact hfail

theorem handled_expect {kind : TokenKind}
    (hfail : Handled entry s (fail (t.report [.token kind])))
    (hok : t.kind = kind → Handled entry s (ok t.take)) :
    Handled entry s (t.expect kind fail ok) :=
  handled_require hfail fun h => hok (by simpa using h)

theorem handled_expectStrings
    (hfail : Handled entry s (fail (t.report [.token .stringLiteral])))
    (hok : t.kind = .stringLiteral → Handled entry s (ok (t.takeRun (· == .stringLiteral)))) :
    Handled entry s (t.expectStrings fail ok) :=
  handled_require hfail fun h => hok (by simpa using h)

end

/-! ## The goal on top of the stack -/

/-- What is known of the goal on top of the stack when the parser takes it off. -/
structure Pursued (entry : Pending) (s : ParseState) : Prop where
  ready : entry.goal.ready s.kind = true
  /-- a goal that has waited for nothing has not failed -/
  fresh : entry.goal.awaits? = none → entry.failed = false
  reported : entry.flagged = true → s.diagnostics ≠ #[]
  atEnd : s.kind = .eof → s.cursor.rest = []

/-- An eager goal has a token to read. -/
theorem Pursued.there {entry : Pending} {s : ParseState} (h : Pursued entry s)
    (eager : entry.goal.eager = true) : s.kind ≠ .eof := by
  intro hkind
  have hready := h.ready
  rw [hkind] at hready
  rw [Goal.eager_eq_false_of_ready_eof hready] at eager
  simp at eager

/-- A goal that reads a statement or a part of one, and its price. -/
structure Goal.Reads (goal : Goal) (part : Part) (price : Int) : Prop where
  opened : goal.isOpen = true
  covers : goal.part = part
  cost : goal.cost = price
  inner : part.isInner = true

namespace Goal.Reads

variable {goal : Goal} {part : Part} {price : Int}

theorem ne_document (h : goal.Reads part price) : goal.part ≠ .document := by
  rw [h.covers]
  rintro rfl
  cases h.inner

theorem ne_block (h : goal.Reads part price) (kind : BodyKind) : goal.part ≠ .block kind := by
  rw [h.covers]
  rintro rfl
  cases h.inner

theorem carried (h : goal.Reads .statement price) : goal.carried = false :=
  Goal.carried_eq_false h.covers

end Goal.Reads

/-- A goal whose construct is open closes it with any plain tag. -/
theorem Goal.closes_of_isOpen {goal : Goal} {tag? : Option NodeKind} (opened : goal.isOpen = true)
    (plain : tag?.all NodeKind.isPlain = true) : goal.Closes tag? := by
  cases goal <;> first | exact plain | cases opened

/-! ## The ends of a part -/

section

open ParseState

variable {entry now : Pending} {s t : ParseState} {part : Part} {price : Int}

theorem handled_pass (moves : Moves entry s now t) (reads : entry.goal.Reads part price)
    (within : part ≠ .statement) (carried : entry.goal.carried = false)
    (paid : 16 * (t.left : Int) < 16 * s.left + price) : Handled entry s (t.letGo now) := by
  rw [← moves.goal_eq] at reads carried
  refine ⟨now, t, moves, .pass reads.opened reads.ne_document reads.ne_block carried ?_ ?_⟩
  · rwa [reads.covers]
  · rw [reads.cost]
    exact paid

theorem ParseState.letGo_of_unmarked (unmarked : entry.failed = false) : t.letGo entry = t := by
  rw [letGo, if_neg (by rw [unmarked]; simp)]

theorem handled_done (moves : Moves entry s entry t) (reads : entry.goal.Reads part price)
    (within : part ≠ .statement) (carried : entry.goal.carried = false)
    (unmarked : entry.failed = false)
    (paid : 16 * (t.left : Int) < 16 * s.left + price) : Handled entry s t := by
  have hpass := handled_pass moves reads within carried paid
  rwa [letGo_of_unmarked unmarked] at hpass

/-- A part that fails lets the construct around it fail. -/
theorem handled_markEnclosing (moves : Moves entry s entry.broken t)
    (reads : entry.goal.Reads part price) (within : part ≠ .statement)
    (carried : entry.goal.carried = false)
    (paid : 16 * (t.left : Int) < 16 * s.left + price) : Handled entry s t.markEnclosing :=
  handled_pass moves reads within carried paid

theorem handled_close {tag? : Option NodeKind} (moves : Moves entry s now t)
    (reads : entry.goal.Reads part price) (plain : tag?.all NodeKind.isPlain = true)
    (settled : entry.goal.carried = true → now.failed = true)
    (paid : 16 * (t.left : Int) < 16 * s.left + price) :
    Handled entry s (t.close now tag?) := by
  rw [← moves.goal_eq] at reads settled
  refine ⟨now, t, moves, .close tag? reads.ne_document reads.ne_block
    (Goal.closes_of_isOpen reads.opened plain) settled ?_⟩
  rw [reads.cost]
  exact paid

theorem handled_replace {next : Goal} (moves : Moves entry s entry t)
    (reads : entry.goal.Reads part price) (carried : entry.goal.carried = false)
    (unmarked : entry.failed = false) (hpart : next.part = part)
    (begins : next.Begins t.kind)
    (paid : 16 * (t.left : Int) + next.cost < 16 * s.left + price) :
    Handled entry s (t.pushGoal next) := by
  refine ⟨entry, t, moves, .replace next reads.opened ?_ begins unmarked carried ?_⟩
  · rw [hpart, reads.covers]
  · rw [reads.cost]
    exact paid

theorem handled_delegate {goal next : Goal} (moves : Moves entry s now t)
    (reads : entry.goal.Reads part price) (failed : Bool) (hpart : goal.part = part)
    (awaits : goal.awaits? = some next.part) (begins : next.Begins t.kind)
    (kept : (failed || goal.carried) = now.flagged)
    (paid : 16 * (t.left : Int) + 1 + next.cost < 16 * s.left + price) :
    Handled entry s ((t.resume { now with failed } goal).pushGoal next) := by
  rw [← moves.goal_eq] at reads
  refine ⟨now, t, moves, .delegate goal next failed reads.opened ?_ awaits begins kept ?_⟩
  · rw [hpart, reads.covers]
  · rw [Goal.cost_eq_one awaits, reads.cost]
    exact paid

end

/-! ## The ends of a statement -/

section

open ParseState

variable {entry now : Pending} {s t : ParseState} {kind : DeclarationKind} {price : Int}

/-- A statement that becomes a node. -/
theorem handled_closeStatement (moves : Moves entry s now t)
    (reads : entry.goal.Reads .statement price)
    (plain : (NodeKind.declaration kind).isPlain = true)
    (paid : 16 * (t.left : Int) < 16 * s.left + price) :
    Handled entry s (t.close now (some (.declaration kind))) := by
  refine handled_close moves reads plain (fun carried => ?_) paid
  rw [reads.carried] at carried
  cases carried

/-- A statement that fails when the parser already counts it as failed. -/
theorem handled_failStatement (moves : Moves entry s entry.broken t)
    (reads : entry.goal.Reads .statement price)
    (plain : (NodeKind.declaration kind).isPlain = true)
    (paid : 16 * (t.left : Int) < 16 * s.left + price) :
    Handled entry s (t.failStatement entry kind) := by
  rw [failStatement]
  -- a statement that failed before has not told the guard of this skip, another one has
  split
  · have hskip := t.left_skipStatement_le entry.origin
    exact handled_closeStatement (moves.skipStatement _ reads.opened rfl) reads plain (by omega)
  · have hrecover := t.left_recoverStatement_le entry.origin
    exact handled_closeStatement (moves.recoverStatement _ reads.opened rfl) reads plain (by omega)

/-- A statement that ends with a semicolon, or fails for want of one. -/
theorem handled_endStatement (moves : Moves entry s entry t)
    (reads : entry.goal.Reads .statement price)
    (plain : (NodeKind.declaration kind).isPlain = true)
    (paid : 16 * (t.left : Int) < 16 * s.left + price) :
    Handled entry s (t.endStatement entry kind) := by
  have hle := t.left_take_le
  refine handled_expect ?_ fun _ => ?_
  · exact handled_failStatement (moves.report _) reads plain paid
  · exact handled_closeStatement (moves.take reads.opened) reads plain (by omega)

/-- A statement that waits for a part of it. -/
theorem handled_wait {goal next : Goal} (moves : Moves entry s entry t)
    (reads : entry.goal.Reads .statement price) (part : goal.part = .statement)
    (awaits : goal.awaits? = some next.part) (begins : next.Begins t.kind)
    (paid : 16 * (t.left : Int) + 1 + next.cost < 16 * s.left + price) :
    Handled entry s ((t.resume entry goal).pushGoal next) := by
  refine handled_delegate moves reads entry.failed part awaits begins ?_ paid
  rw [Pending.flagged, Goal.carried_eq_false part, reads.carried]

/-- A statement whose body begins. -/
theorem handled_enterBody {kind : BodyKind} (moves : Moves entry s entry t)
    (reads : entry.goal.Reads .statement price) (unmarked : entry.failed = false)
    (paid : 16 * (t.left : Int) + 2 < 16 * s.left + price) :
    Handled entry s (t.enterBody kind entry) := by
  refine ⟨entry, t, moves, .enter kind reads.opened reads.covers unmarked reads.carried ?_⟩
  rw [reads.cost]
  exact paid

end

end ProtoFront
