import ProtoFront.Proofs.Parse.Input
import ProtoFront.Proofs.Parse.Stack

/-!
# What a step is made of

A step takes one goal off the stack and pursues it. Whatever the goal is, the step has two halves.
In the first one, `Moves`, the parser holds the goal: it makes leaves of tokens, reports that
something is missing, skips tokens. From the first report on the construct counts as failed, and
only a failed construct skips. In the second half, `Ends`, the parser lets go of the goal in one of
a few ways: the construct goes on at another goal, waits for a part, is closed by a node, or hands
what it has read to the construct around it.

Everything that the parser can do to its state is a rule here, with what has to hold for it. What
a whole run keeps is proved rule by rule and not goal by goal.
-/

namespace ProtoFront

namespace ParseState

variable (s : ParseState)

/-! ## What leaves and reports change -/

/-- The goals on the stack. -/
def goals : List Goal := s.pending.map Pending.goal

/-- The number of lexemes that are left. -/
def left : Nat := s.cursor.rest.length

theorem left_eq_zero {s : ParseState} (h : s.cursor.rest = []) : s.left = 0 := by
  rw [left, h]
  rfl

theorem exists_rest {s : ParseState} (h : s.kind ≠ .eof) :
    ∃ next rest, s.cursor.rest = next :: rest := by
  rcases hrest : s.cursor.rest with _ | ⟨next, rest⟩
  · rw [kind, Cursor.kind, hrest] at h
    exact absurd rfl h
  · exact ⟨next, rest, rfl⟩

section
variable (tag? : Option NodeKind) (failed : Bool)

@[simp] theorem pending_addLeaf : (s.addLeaf tag? failed).pending = s.pending := by
  rw [addLeaf]; split <;> rfl

@[simp] theorem diagnostics_addLeaf : (s.addLeaf tag? failed).diagnostics = s.diagnostics := by
  rw [addLeaf]; split <;> rfl

@[simp] theorem cursor_addLeaf : (s.addLeaf tag? failed).cursor =
    { s.cursor with rest := s.cursor.rest.tail } := by
  rw [addLeaf]
  split
  case h_1 hrest => rw [hrest, List.tail_nil, ← hrest]
  case h_2 hrest => rw [hrest, List.tail_cons]

@[simp] theorem rest_addLeaf : (s.addLeaf tag? failed).cursor.rest = s.cursor.rest.tail := by
  rw [cursor_addLeaf]

@[simp] theorem endIndex_addLeaf :
    (s.addLeaf tag? failed).cursor.endIndex = s.cursor.endIndex := by
  rw [cursor_addLeaf]

@[simp] theorem kind_addLeaf : (s.addLeaf tag? failed).kind = s.following := by
  rw [kind, Cursor.kind, rest_addLeaf, following, Cursor.following]
  rcases s.cursor.rest with _ | ⟨next, _ | ⟨second, rest⟩⟩ <;> rfl

theorem addLeaf_of_rest_eq_nil (h : s.cursor.rest = []) : s.addLeaf tag? failed = s := by
  simp [addLeaf, h]

theorem nodes_addLeaf {next : Lexeme} {rest : List Lexeme} (h : s.cursor.rest = next :: rest) :
    (s.addLeaf tag? failed).nodes = s.nodes.push ⟨some next.index, 1, failed, tag?⟩ := by
  simp [addLeaf, h]

/-- A token that leaves the input is a node. -/
theorem size_addLeaf_add_left : s.nodes.size + s.left ≤
    (s.addLeaf tag? failed).nodes.size + (s.addLeaf tag? failed).left := by
  rcases hrest : s.cursor.rest with _ | ⟨next, rest⟩
  · have hsame := s.addLeaf_of_rest_eq_nil tag? failed hrest
    exact Nat.le_of_eq (by rw [hsame])
  · rw [s.nodes_addLeaf _ _ hrest]
    simp only [left, rest_addLeaf, hrest, Array.size_push, List.length_cons, List.tail_cons]
    omega

theorem left_addLeaf_le : (s.addLeaf tag? failed).left ≤ s.left := by
  simp [left]

/-- A token that is there is read. -/
theorem left_addLeaf_lt (h : s.kind ≠ .eof) : (s.addLeaf tag? failed).left + 1 = s.left := by
  rcases hrest : s.cursor.rest with _ | ⟨next, rest⟩
  · exact absurd (by simp [kind, Cursor.kind, hrest]) h
  · simp [left, hrest]

end

theorem left_take_le : s.take.left ≤ s.left := s.left_addLeaf_le none false

theorem left_takeAs_le (kind : NodeKind) : (s.takeAs kind).left ≤ s.left :=
  s.left_addLeaf_le (some kind) false

theorem left_take_lt (h : s.kind ≠ .eof) : s.take.left + 1 = s.left :=
  s.left_addLeaf_lt none false h

theorem left_takeAs_lt (tag : NodeKind) (h : s.kind ≠ .eof) : (s.takeAs tag).left + 1 = s.left :=
  s.left_addLeaf_lt (some tag) false h

section
variable (expected : List Expectation)

@[simp] theorem left_report : (s.report expected).left = s.left := rfl
@[simp] theorem pending_report : (s.report expected).pending = s.pending := rfl
@[simp] theorem nodes_report : (s.report expected).nodes = s.nodes := rfl

/-- What has been reported stays reported. -/
theorem diagnostics_report_ne : (s.report expected).diagnostics ≠ #[] := by
  simp [report]

end

section
variable (start : Nat)

@[simp] theorem left_resync : (s.resync start).1.left = s.left := rfl
@[simp] theorem pending_resync : (s.resync start).1.pending = s.pending := rfl
@[simp] theorem nodes_resync : (s.resync start).1.nodes = s.nodes := rfl
@[simp] theorem diagnostics_resync : (s.resync start).1.diagnostics = s.diagnostics := rfl

end

section
variable (token? : Option Nat) (start : Nat) (tag? : Option NodeKind) (failed : Bool)

@[simp] theorem left_addParent : (s.addParent token? start tag? failed).left = s.left := rfl
@[simp] theorem cursor_addParent : (s.addParent token? start tag? failed).cursor = s.cursor := rfl
@[simp] theorem pending_addParent :
    (s.addParent token? start tag? failed).pending = s.pending := rfl
@[simp] theorem diagnostics_addParent :
    (s.addParent token? start tag? failed).diagnostics = s.diagnostics := rfl
@[simp] theorem nodes_addParent : (s.addParent token? start tag? failed).nodes =
    s.nodes.push ⟨token?, s.nodes.size - start + 1, failed, tag?⟩ := rfl

end

@[simp] theorem cursor_markEnclosing : s.markEnclosing.cursor = s.cursor := by
  rw [markEnclosing]
  split <;> rfl

@[simp] theorem nodes_markEnclosing : s.markEnclosing.nodes = s.nodes := by
  rw [markEnclosing]
  split <;> rfl

/-- Hands over to the construct around the present one, which fails with it. -/
def letGo (entry : Pending) : ParseState := if entry.failed then s.markEnclosing else s

@[simp] theorem cursor_letGo (entry : Pending) : (s.letGo entry).cursor = s.cursor := by
  rw [letGo]
  split
  · exact s.cursor_markEnclosing
  · rfl

@[simp] theorem nodes_letGo (entry : Pending) : (s.letGo entry).nodes = s.nodes := by
  rw [letGo]
  split
  · exact s.nodes_markEnclosing
  · rfl

/-- A construct that is closed gets its node, and then the parser lets go of it. -/
theorem close_eq (entry : Pending) (tag? : Option NodeKind) : s.close entry tag? =
    (s.addParent (if entry.start = s.nodes.size then none else some entry.origin.token) entry.start
      tag? entry.failed).letGo entry := rfl

@[simp] theorem cursor_close (entry : Pending) (tag? : Option NodeKind) :
    (s.close entry tag?).cursor = s.cursor := by
  rw [close_eq, cursor_letGo]
  rfl

section
variable {s : ParseState} {entry : Pending}

theorem goals_addLeaf (tag? : Option NodeKind) (failed : Bool) :
    (s.addLeaf tag? failed).goals = s.goals := by
  rw [goals, pending_addLeaf, goals]

theorem goals_markEnclosing : s.markEnclosing.goals = s.goals := by
  rw [goals, markEnclosing]
  split
  case h_1 => rfl
  case h_2 hpending => rw [goals, hpending]; rfl

theorem goals_letGo : (s.letGo entry).goals = s.goals := by
  rw [letGo]
  split
  · exact goals_markEnclosing
  · rfl

@[simp] theorem diagnostics_markEnclosing : s.markEnclosing.diagnostics = s.diagnostics := by
  rw [markEnclosing]
  split <;> rfl

@[simp] theorem diagnostics_letGo : (s.letGo entry).diagnostics = s.diagnostics := by
  rw [letGo]
  split
  · exact diagnostics_markEnclosing
  · rfl

@[simp] theorem diagnostics_close (tag? : Option NodeKind) :
    (s.close entry tag?).diagnostics = s.diagnostics := by
  rw [close_eq, diagnostics_letGo, diagnostics_addParent]

theorem goals_close (tag? : Option NodeKind) : (s.close entry tag?).goals = s.goals := by
  rw [close_eq, goals_letGo]
  rfl

end

end ParseState

open ParseState in
theorem Spelled.addLeaf {s : ParseState} (h : Spelled s.cursor.rest) (tag? : Option NodeKind)
    (failed : Bool) :
    Spelled (s.addLeaf tag? failed).cursor.rest := by
  rw [rest_addLeaf]
  exact fun lexeme hlexeme => h lexeme (List.mem_of_mem_tail hlexeme)

theorem ParseState.kind_of_atWord {s : ParseState} {word : ContextWord}
    (spelled : Spelled s.cursor.rest)
    (h : s.atWord word = true) : s.kind = .identifier := by
  rw [atWord, Cursor.word?, beq_iff_eq] at h
  rw [kind, Cursor.kind]
  cases hrest : s.cursor.rest with
  | nil =>
    rw [hrest] at h
    simp at h
  | cons next rest =>
    rw [hrest] at h
    refine spelled next (by rw [hrest]; exact List.mem_cons_self) ?_
    rw [show next.word? = some word from h]
    simp

/-! ## The first half: reading, reporting, skipping -/

/-- Whether leaves may be added to a construct: its body is not behind it. -/
def Goal.isOpen : Goal → Bool
  | declarationEnd _ => false
  | _ => true

/-- `Moves entry s now t`: holding the goal `entry` at `s`, the parser can get to `t`, where it
holds `now`. Only the mark of the goal changes. -/
inductive Moves : Pending → ParseState → Pending → ParseState → Prop
  | start {entry s} : Moves entry s entry s
  /-- a token becomes a leaf -/
  | leaf {entry s now t} (tag? : Option NodeKind) : Moves entry s now t → now.goal.isOpen = true →
      tag?.all NodeKind.isPlain = true → Moves entry s now (t.addLeaf tag? false)
  /-- a token is skipped -/
  | discard {entry s now t} : Moves entry s now t → now.goal.isOpen = true →
      now.failed = true → Moves entry s now t.discard
  /-- something is reported, so the construct has failed -/
  | report {entry s now t} (expected : List Expectation) : Moves entry s now t →
      Moves entry s now.broken (t.report expected)
  /-- the construct has failed in a way that was reported before -/
  | breaks {entry s now t} : Moves entry s now t → t.diagnostics ≠ #[] →
      Moves entry s now.broken t
  /-- the guard is told of a skip -/
  | resync {entry s now t} (start : Nat) : Moves entry s now t → now.failed = true →
      Moves entry s now (t.resync start).1
  /-- what has been read since `t` becomes a range; nothing in it has failed -/
  | range {entry s now t u} : Moves entry s now t → Moves now t now u → now.goal.isOpen = true →
      now.failed = false → t.nodes.size < u.nodes.size →
      Moves entry s now (u.addParent (some t.position) t.nodes.size (some .range) false)

namespace Moves

variable {entry now : Pending} {s t : ParseState}

theorem pending_eq (h : Moves entry s now t) : t.pending = s.pending := by
  induction h with
  | start => rfl
  | leaf tag? _ _ _ ih => simpa using ih
  | discard _ _ _ ih => simpa [ParseState.discard] using ih
  | report expected _ ih => simpa using ih
  | breaks _ _ ih => exact ih
  | resync start _ _ ih => simpa using ih
  | range _ _ _ _ _ ih ih' => simpa using ih'.trans ih

theorem left_le (h : Moves entry s now t) : t.left ≤ s.left := by
  induction h with
  | start => exact Nat.le_refl _
  | leaf tag? _ _ _ ih => exact Nat.le_trans (ParseState.left_addLeaf_le ..) ih
  | discard _ _ _ ih => exact Nat.le_trans (ParseState.left_addLeaf_le ..) ih
  | report expected _ ih => simpa using ih
  | breaks _ _ ih => exact ih
  | resync start _ _ ih => simpa using ih
  | range _ _ _ _ _ ih ih' => simpa using Nat.le_trans ih' ih

theorem trans {last : Pending} {u : ParseState} (h : Moves entry s now t)
    (h' : Moves now t last u) : Moves entry s last u := by
  induction h' with
  | start => exact h
  | leaf tag? _ opened plain ih => exact (ih h).leaf tag? opened plain
  | discard _ opened failed ih => exact (ih h).discard opened failed
  | report expected _ ih => exact (ih h).report expected
  | breaks _ reported ih => exact (ih h).breaks reported
  | resync start _ failed ih => exact (ih h).resync start failed
  | range _ h₂ opened unmarked grown ih _ => exact (ih h).range h₂ opened unmarked grown

/-- Nothing is put back into the input. -/
theorem rest_suffix (h : Moves entry s now t) : t.cursor.rest <:+ s.cursor.rest := by
  induction h with
  | start => exact List.suffix_refl _
  | leaf tag? _ _ _ ih =>
    rw [ParseState.rest_addLeaf]
    exact (List.tail_suffix _).trans ih
  | discard _ _ _ ih =>
    rw [ParseState.discard, ParseState.rest_addLeaf]
    exact (List.tail_suffix _).trans ih
  | report expected _ ih => exact ih
  | breaks _ _ ih => exact ih
  | resync start _ _ ih => exact ih
  | range _ _ _ _ _ ih ih' => exact ih'.trans ih

theorem endIndex_eq (h : Moves entry s now t) : t.cursor.endIndex = s.cursor.endIndex := by
  induction h with
  | start => rfl
  | leaf tag? _ _ _ ih => rw [ParseState.endIndex_addLeaf, ih]
  | discard _ _ _ ih => rw [ParseState.discard, ParseState.endIndex_addLeaf, ih]
  | report expected _ ih => exact ih
  | breaks _ _ ih => exact ih
  | resync start _ _ ih => exact ih
  | range _ _ _ _ _ ih ih' => exact ih'.trans ih

/-- The parser stands somewhere else only behind a token that it has read. -/
theorem left_lt_of_position_ne (h : Moves entry s now t) (hposition : t.position ≠ s.position) :
    t.left < s.left := by
  refine Nat.lt_of_le_of_ne h.left_le fun hleft => hposition ?_
  have hrest := h.rest_suffix.eq_of_length hleft
  rw [ParseState.position, ParseState.position, Cursor.position, Cursor.position, hrest,
    h.endIndex_eq]

/-- Every token that is read becomes a node. -/
theorem grows (h : Moves entry s now t) :
    s.nodes.size + s.left ≤ t.nodes.size + t.left := by
  induction h with
  | start => exact Nat.le_refl _
  | leaf tag? _ _ _ ih => exact Nat.le_trans ih (ParseState.size_addLeaf_add_left _ _ _)
  | discard _ _ _ ih => exact Nat.le_trans ih (ParseState.size_addLeaf_add_left _ _ _)
  | report expected _ ih => simpa using ih
  | breaks _ _ ih => exact ih
  | resync start _ _ ih => simpa using ih
  | range _ _ _ _ _ ih ih' =>
    refine Nat.le_trans (Nat.le_trans ih ih') ?_
    simp only [ParseState.nodes_addParent, Array.size_push, ParseState.left_addParent]
    omega

/-- Moves never take a report back. -/
theorem mem_diagnostics {diagnostic : Diagnostic} (h : Moves entry s now t)
    (hs : diagnostic ∈ s.diagnostics) : diagnostic ∈ t.diagnostics := by
  induction h with
  | start => exact hs
  | leaf tag? _ _ _ ih => simpa using ih hs
  | discard _ _ _ ih => simpa [ParseState.discard] using ih hs
  | report expected _ ih => exact Array.mem_push_of_mem _ (ih hs)
  | breaks _ _ ih => exact ih hs
  | resync start _ _ ih => simpa using ih hs
  | range _ _ _ _ _ ih ih' => simpa using ih' (ih hs)

theorem diagnostics_ne (h : Moves entry s now t) (hs : s.diagnostics ≠ #[]) :
    t.diagnostics ≠ #[] := by
  obtain ⟨diagnostic, hdiagnostic⟩ := Array.exists_mem_of_ne_empty _ hs
  exact Array.ne_empty_of_mem (h.mem_diagnostics hdiagnostic)

/-- The goal, the beginning of the construct and the number of its first node stay. -/
theorem entry_eq (h : Moves entry s now t) : now = entry ∨ now = entry.broken := by
  induction h with
  | start => exact .inl rfl
  | leaf tag? _ _ _ ih => exact ih
  | discard _ _ _ ih => exact ih
  | report expected _ ih => rcases ih with rfl | rfl <;> exact .inr rfl
  | breaks _ _ ih => rcases ih with rfl | rfl <;> exact .inr rfl
  | resync start _ _ ih => exact ih
  | range _ _ _ _ _ ih _ => exact ih

theorem goal_eq (h : Moves entry s now t) : now.goal = entry.goal := by
  rcases h.entry_eq with rfl | rfl <;> rfl

theorem start_eq (h : Moves entry s now t) : now.start = entry.start := by
  rcases h.entry_eq with rfl | rfl <;> rfl

/-- A construct that fails while it is held has been reported. -/
theorem reported (h : Moves entry s now t) (hs : entry.failed = true → s.diagnostics ≠ #[])
    (hfailed : now.failed = true) : t.diagnostics ≠ #[] := by
  induction h with
  | start => exact hs hfailed
  | leaf tag? _ _ _ ih => simpa using ih hs hfailed
  | discard _ _ _ ih => simpa [ParseState.discard] using ih hs hfailed
  | report expected _ ih => exact ParseState.diagnostics_report_ne _ _
  | breaks _ hreported _ => exact hreported
  | resync start _ _ ih => simpa using ih hs hfailed
  | range h₁ h₂ _ _ _ ih _ => simpa using h₂.diagnostics_ne (ih hs hfailed)

/-- A construct that counts as failed has been reported. -/
theorem flagged_reported (h : Moves entry s now t) (hs : entry.flagged = true → s.diagnostics ≠ #[])
    (hflagged : now.flagged = true) : t.diagnostics ≠ #[] := by
  rw [Pending.flagged, h.goal_eq, Bool.or_eq_true_iff] at hflagged
  rcases hflagged with hfailed | hcarried
  · exact h.reported (fun hfailed => hs (by rw [Pending.flagged, hfailed, Bool.true_or])) hfailed
  · exact h.diagnostics_ne (hs (by rw [Pending.flagged, hcarried, Bool.or_true]))

end Moves

/-! ## The second half: letting go of the goal -/

/-- The tags that a goal may close its construct with. -/
def Goal.Closes : Goal → Option NodeKind → Prop
  | declarationEnd kind, tag? => tag? = some (.declaration kind)
  | _, tag? => tag?.all NodeKind.isPlain = true

/-- `Ends before now t final`: holding `now` at `t`, the parser ends a step at `final`. There were
`before` lexemes left when the step began. In each rule, `paid` says that the goals on the stack
cost less than what the step has read and the goal that it has pursued. -/
inductive Ends (before : Nat) (now : Pending) (t : ParseState) : ParseState → Prop
  /-- the input has been read -/
  | finish (part : now.goal.part = .document) (rest : t.cursor.rest = []) (left : before = 0) :
      Ends before now t t
  /-- the construct goes on at another goal -/
  | goOn (goal : Goal) (opened : now.goal.isOpen = true) (stays : goal.isOpen = true)
      (part : goal.part = now.goal.part)
      (ready : goal.ready t.kind = true) (unmarked : goal.awaits? = none → now.failed = false)
      (carried : now.goal.carried = goal.carried)
      (paid : 16 * (t.left : Int) + goal.cost < 16 * before + now.goal.cost) :
      Ends before now t (t.resume now goal)
  /-- the construct waits for a part of it -/
  | delegate (goal next : Goal) (failed : Bool) (opened : now.goal.isOpen = true)
      (part : goal.part = now.goal.part) (awaits : goal.awaits? = some next.part)
      (begins : next.Begins t.kind)
      (kept : (failed || goal.carried) = now.flagged)
      (paid : 16 * (t.left : Int) + goal.cost + next.cost < 16 * before + now.goal.cost) :
      Ends before now t ((t.resume { now with failed } goal).pushGoal next)
  /-- a declaration waits for its body -/
  | enter (kind : BodyKind) (opened : now.goal.isOpen = true) (part : now.goal.part = .statement)
      (unmarked : now.failed = false) (carried : now.goal.carried = false)
      (paid : 16 * (t.left : Int) + 2 < 16 * before + now.goal.cost) :
      Ends before now t
        ((t.resume now (.declarationEnd kind.declaration)).resume now (.body kind))
  /-- another goal reads the rest of the part -/
  | replace (next : Goal) (opened : now.goal.isOpen = true) (part : next.part = now.goal.part)
      (begins : next.Begins t.kind) (unmarked : now.failed = false)
      (carried : now.goal.carried = false)
      (paid : 16 * (t.left : Int) + next.cost < 16 * before + now.goal.cost) :
      Ends before now t (t.pushGoal next)
  /-- a parenthesis in the name of an option has been opened -/
  | parenthesize (goal : now.goal = .optionNamePart) (unmarked : now.failed = false)
      (ready : ParseState.startsType t.kind = true) (read : t.left < before) :
      Ends before now t
        ((t.pushGoal .optionNameExtensionEnd).pushGoal (.qualifiedName none))
  /-- the part, which is no statement, ends without a node of its own -/
  | pass (opened : now.goal.isOpen = true) (inner : now.goal.part ≠ .document)
      (bare : ∀ kind, now.goal.part ≠ .block kind) (carried : now.goal.carried = false)
      (within : now.goal.part ≠ .statement)
      (paid : 16 * (t.left : Int) < 16 * before + now.goal.cost) :
      Ends before now t (t.letGo now)
  /-- the construct becomes a node -/
  | close (tag? : Option NodeKind) (inner : now.goal.part ≠ .document)
      (bare : ∀ kind, now.goal.part ≠ .block kind) (closes : now.goal.Closes tag?)
      (settled : now.goal.carried = true → now.failed = true)
      (paid : 16 * (t.left : Int) < 16 * before + now.goal.cost) :
      Ends before now t (t.close now tag?)
  /-- a text field and the separator behind it -/
  | separate (goal : now.goal = .textFieldEnd) (left : t.left ≤ before) :
      Ends before now t (t.close now (some .textField)).take
  /-- a text field without separator in front of another one -/
  | terminate (goal : now.goal = .textFieldEnd) (left : t.left ≤ before) :
      Ends before now t ((t.close now (some .textField)).addSynthetic .terminator false)
  /-- a scope without a body -/
  | closeScope (kind : ScopeKind) (goal : now.goal = .scope kind) (marked : now.failed = true)
      (read : t.left < before) :
      Ends before now t ((t.addSynthetic .scopeClose true).close now (some (.scope kind)))
  /-- the brace that closes a body -/
  | closeBody (kind : BodyKind) (goal : now.goal = .body kind) (left : t.left ≤ before)
      (there : t.kind ≠ .eof) :
      Ends before now t ((t.addLeaf kind.closeTag? false).letGo now)
  /-- a body that the end of the input cuts off -/
  | cutBody (kind : BodyKind) (goal : now.goal = .body kind) (left : t.left ≤ before)
      (marked : now.failed = true) :
      Ends before now t
        ((match kind.closeTag? with
          | some tag => t.addSynthetic tag true
          | none => t).letGo now)
  /-- a token that begins no statement of a file, which does not count as failed for that -/
  | junk (failed : Bool) (goal : now.goal = .file) (left : t.left ≤ before) (there : t.kind ≠ .eof)
      (reported : t.diagnostics ≠ #[]) :
      Ends before now t (t.discard.resume { now with failed } .file)

/-- Letting go of a goal reads one token at most. -/
theorem Ends.cursor_eq {before : Nat} {now : Pending} {t final : ParseState}
    (h : Ends before now t final) : final.cursor = t.cursor ∨
      final.cursor = { t.cursor with rest := t.cursor.rest.tail } := by
  cases h with
  | finish | goOn | delegate | enter | replace | parenthesize => exact .inl rfl
  | pass => exact .inl (t.cursor_letGo now)
  | close tag? => exact .inl (t.cursor_close now tag?)
  | separate =>
    refine .inr ?_
    rw [ParseState.take, ParseState.cursor_addLeaf, ParseState.cursor_close]
  | terminate => exact .inl (t.cursor_close now _)
  | closeScope => exact .inl ((t.addSynthetic _ _).cursor_close now _)
  | closeBody => exact .inr (by rw [ParseState.cursor_letGo, ParseState.cursor_addLeaf])
  | cutBody =>
    rw [ParseState.cursor_letGo]
    split <;> exact .inl rfl
  | junk => exact .inr (t.cursor_addLeaf none true)

open ParseState in
/-- Letting go of a goal reports nothing. -/
theorem Ends.diagnostics_eq {before : Nat} {now : Pending} {t final : ParseState}
    (h : Ends before now t final) : final.diagnostics = t.diagnostics := by
  cases h with
  | finish | goOn | delegate | enter | replace | parenthesize => rfl
  | pass => exact diagnostics_letGo
  | close tag? => exact diagnostics_close tag?
  | separate => rw [take, diagnostics_addLeaf, diagnostics_close]
  | terminate => exact diagnostics_close _
  | closeScope => exact diagnostics_close _
  | closeBody => rw [diagnostics_letGo, diagnostics_addLeaf]
  | cutBody =>
    rw [diagnostics_letGo]
    split <;> rfl
  | junk => exact t.diagnostics_addLeaf none true

/-- What a step may make of the state `s` when it pursues `entry`. -/
def Handled (entry : Pending) (s final : ParseState) : Prop :=
  ∃ now t, Moves entry s now t ∧ Ends s.left now t final

end ProtoFront
