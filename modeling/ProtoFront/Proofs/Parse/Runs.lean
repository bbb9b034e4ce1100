import ProtoFront.Proofs.Parse.Values

/-!
# What every run keeps

A state between two steps is sound (`Sound`): its stack is well formed, the goal on top is ready for
the next token, and whatever is marked has been reported. A step at a sound state is made of moves
and one end, and both keep soundness. So every theorem about `Moves` and `Ends` is one about runs.

The price of a sound state (`ParseState.price`) falls with every step. It does not depend on the
guard.
-/

namespace ProtoFront

open ParseState

variable {entry now : Pending} {s t final : ParseState} {part : Part} {before : Nat}

theorem ParseState.step_of_pending {top : Pending} {below : List Pending}
    (h : s.pending = top :: below) : s.step = pursue top { s with pending := below } := by
  rw [step, h]

/-- Every goal is handled. -/
theorem handled_pursue (h : Pursued entry s) : Handled entry s (s.pursue entry) := by
  have reads {goal : Goal} {price : Int} (hgoal : entry.goal = goal)
      (hreads : goal.Reads .statement price) : entry.goal.Reads .statement price := hgoal ▸ hreads
  rw [pursue]
  cases goal : entry.goal with
  | file => exact handled_file h goal
  | fragmentBody kind => exact handled_fragmentBody h goal
  | body kind => exact handled_body goal
  | syntaxLevel => exact handled_syntaxLevel h goal
  | importing => exact handled_importing h goal
  | package => exact handled_package h goal
  | packageEnd => exact handled_statementEnd (reads goal ⟨rfl, rfl, rfl, rfl⟩) rfl
  | option => exact handled_optionStatement h goal
  | optionAfterName => exact handled_optionAfterName goal
  | optionEnd => exact handled_statementEnd (reads goal ⟨rfl, rfl, rfl, rfl⟩) rfl
  | optionName => exact handled_optionName goal
  | optionNamePart => exact handled_optionNamePart h goal
  | optionNameExtensionEnd => exact handled_optionNameExtensionEnd goal
  | optionNameEnd => exact handled_optionNameEnd goal
  | optionList => exact handled_optionList h goal
  | listOption => exact handled_listOption goal
  | listOptionAfterName => exact handled_listOptionAfterName goal
  | listOptionEnd => exact handled_listOptionEnd goal
  | textList => exact handled_textList h goal
  | listAfterItem list failed => exact handled_listAfterItem h goal
  | scope kind => exact handled_scope h goal
  | extend => exact handled_extend h goal
  | extendAfterName => exact handled_extendAfterName goal
  | declarationEnd kind => exact handled_declarationEnd goal
  | field => exact handled_field h goal
  | fieldAfterType => exact handled_fieldAfterType goal
  | mapFieldAfterValue => exact handled_mapFieldAfterValue goal
  | statementEnd kind =>
    have plain := h.ready
    rw [goal] at plain
    exact handled_statementEnd (reads goal ⟨rfl, rfl, rfl, rfl⟩) plain
  | enumValue => exact handled_enumValue h goal
  | ranges kind => exact handled_ranges h goal
  | rangesItem kind => exact handled_rangesItem h goal
  | rpc => exact handled_rpc h goal
  | rpcAfterInput => exact handled_rpcAfterInput goal
  | rpcAfterOutput => exact handled_rpcAfterOutput goal
  | value => exact handled_value h goal
  | textMessage pair => exact handled_textMessage h goal
  | textMessageBody pair => exact handled_textMessageBody goal
  | textField => exact handled_textField h goal
  | textFieldEnd => exact handled_textFieldEnd goal
  | qualifiedName tag? => exact handled_qualifiedName h goal
  | qualifiedNameRest => exact handled_qualifiedNameRest h goal
  | qualifiedNameEnd tag? => exact handled_qualifiedNameEnd h goal

/-! ## Soundness -/

/-- The goals below one that reads `part` are in order, and so is the input. -/
structure Settled (part : Part) (s : ParseState) : Prop where
  awaited : Awaited part s.pending
  lexemes : ∀ lexeme ∈ s.cursor.rest, lexeme.kind ≠ .eof
  starts : ∀ entry ∈ s.pending, entry.start ≤ s.nodes.size
  reported : ∀ entry ∈ s.pending, entry.flagged = true → s.diagnostics ≠ #[]

/-- A state in which the parser may be between two steps. -/
inductive Sound : ParseState → Prop
  | finished {s : ParseState} (pending : s.pending = []) (rest : s.cursor.rest = []) : Sound s
  | going {s : ParseState} (top : Pending) (settled : Settled top.goal.part s)
      (pursued : Pursued top s) (start : top.start ≤ s.nodes.size) :
      Sound { s with pending := top :: s.pending }

namespace Settled

theorem rest_eq_nil (h : Settled part s) (hkind : s.kind = .eof) : s.cursor.rest = [] := by
  rcases hrest : s.cursor.rest with _ | ⟨next, rest⟩
  · rfl
  · rw [kind, Cursor.kind, hrest] at hkind
    exact absurd hkind (h.lexemes next (by rw [hrest]; exact List.mem_cons_self))

/-- Nothing is below the goal for the whole input. -/
theorem pending_eq_nil (h : Settled .document s) : s.pending = [] := by
  rcases hpending : s.pending with _ | ⟨next, below⟩
  · rfl
  · have hawaited := h.awaited
    rw [hpending] at hawaited
    exact absurd hawaited.1 next.goal.awaits_ne_document

/-- Reading, reporting and making nodes keep the goals in order. -/
theorem mono (h : Settled part s) (pending : t.pending = s.pending)
    (rest : t.cursor.rest <:+ s.cursor.rest) (size : s.nodes.size ≤ t.nodes.size)
    (diagnostics : s.diagnostics ≠ #[] → t.diagnostics ≠ #[]) : Settled part t := by
  refine ⟨?_, fun lexeme hlexeme => h.lexemes lexeme (rest.subset hlexeme), ?_, ?_⟩
  · rw [pending]
    exact h.awaited
  · intro entry hentry
    rw [pending] at hentry
    exact Nat.le_trans (h.starts entry hentry) size
  · intro entry hentry hflagged
    rw [pending] at hentry
    exact diagnostics (h.reported entry hentry hflagged)

theorem moves (h : Settled part s) (m : Moves entry s now t) : Settled part t := by
  have hgrows := m.grows
  have hleft := m.left_le
  exact h.mono m.pending_eq m.rest_suffix (by omega) m.diagnostics_ne

/-- A goal is put on the stack that waits for `part`. -/
theorem push (entry : Pending) {part' : Part} (h : Settled part s) (hpart : entry.goal.part = part)
    (awaits : entry.goal.awaits? = some part') (start : entry.start ≤ s.nodes.size)
    (reported : entry.flagged = true → s.diagnostics ≠ #[]) :
    Settled part' { s with pending := entry :: s.pending } := by
  refine ⟨⟨awaits, hpart ▸ h.awaited⟩, h.lexemes, ?_, ?_⟩
  · rintro _ (_ | ⟨_, hother⟩)
    · exact start
    · exact h.starts _ hother
  · rintro _ (_ | ⟨_, hother⟩)
    · exact reported
    · exact h.reported _ hother

/-- A goal is put on the stack that is pursued next. -/
theorem sound_push (entry : Pending) (h : Settled part s) (hpart : entry.goal.part = part)
    (ready : entry.goal.ready s.kind = true)
    (fresh : entry.goal.awaits? = none → entry.failed = false)
    (reported : entry.flagged = true → s.diagnostics ≠ #[])
    (start : entry.start ≤ s.nodes.size) : Sound { s with pending := entry :: s.pending } :=
  .going entry (hpart ▸ h) ⟨ready, fresh, reported, h.rest_eq_nil⟩ start

/-- A part of a construct has been read: the construct around it is pursued next. -/
theorem sound (h : Settled part s) (inner : part ≠ .document) : Sound s := by
  rcases hpending : s.pending with _ | ⟨next, below⟩
  · have hawaited := h.awaited
    rw [hpending] at hawaited
    exact absurd hawaited inner
  · obtain ⟨awaits, hbelow⟩ : next.goal.awaits? = some part ∧ Awaited next.goal.part below := by
      have hawaited := h.awaited
      rwa [hpending] at hawaited
    have hnext : next ∈ s.pending := by rw [hpending]; exact List.mem_cons_self
    have hmem {entry : Pending} (hentry : entry ∈ below) : entry ∈ s.pending := by
      rw [hpending]
      exact List.mem_cons_of_mem _ hentry
    have settled : Settled next.goal.part { s with pending := below } :=
      ⟨hbelow, h.lexemes, fun entry hentry => h.starts entry (hmem hentry),
        fun entry hentry => h.reported entry (hmem hentry)⟩
    have fresh : next.goal.awaits? = none → next.failed = false := by
      rw [awaits]
      simp
    have hsound := settled.sound_push next rfl (Goal.ready_of_awaits awaits _) fresh
      (h.reported next hnext) (h.starts next hnext)
    rwa [show { s with pending := next :: below } = s by rw [← hpending]] at hsound

theorem markEnclosing (h : Settled part s) (reported : s.diagnostics ≠ #[]) :
    Settled part s.markEnclosing := by
  rw [ParseState.markEnclosing]
  split
  case h_1 => exact h
  case h_2 top below hpending =>
    have hmem {entry : Pending} (hentry : entry ∈ top :: below) : entry ∈ s.pending := by
      rwa [hpending]
    refine ⟨?_, h.lexemes, ?_, fun _ _ _ => reported⟩
    · have hawaited := h.awaited
      rwa [hpending] at hawaited
    · rintro _ (_ | ⟨_, hother⟩)
      · exact h.starts top (hmem List.mem_cons_self)
      · exact h.starts _ (hmem (List.mem_cons_of_mem _ hother))

theorem letGo (h : Settled part s) (reported : now.failed = true → s.diagnostics ≠ #[]) :
    Settled part (s.letGo now) := by
  rw [ParseState.letGo]
  split
  case isTrue hfailed => exact h.markEnclosing (reported hfailed)
  case isFalse => exact h

theorem node (h : Settled part s) (node : Node) :
    Settled part { s with nodes := s.nodes.push node } :=
  h.mono rfl (List.suffix_refl _) (by simp) id

theorem addLeaf (h : Settled part s) (tag? : Option NodeKind) (failed : Bool) :
    Settled part (s.addLeaf tag? failed) := by
  refine h.mono (s.pending_addLeaf tag? failed) ?_ ?_ ?_
  · rw [rest_addLeaf]
    exact List.tail_suffix _
  · have hgrows := s.size_addLeaf_add_left tag? failed
    have hleft := s.left_addLeaf_le tag? failed
    omega
  · rw [diagnostics_addLeaf]
    exact id

theorem close (h : Settled part s) (tag? : Option NodeKind)
    (reported : now.failed = true → s.diagnostics ≠ #[]) : Settled part (s.close now tag?) :=
  (h.node _).letGo reported

end Settled

/-- A goal that begins a construct is put on the stack. -/
theorem Settled.sound_pushGoal (next : Goal) (h : Settled next.part t)
    (begins : next.Begins t.kind) : Sound (t.pushGoal next) := by
  refine h.sound_push _ rfl begins.ready (fun _ => rfl) ?_ (Nat.le_refl _)
  rw [Pending.flagged, Goal.carried_eq_false_of_awaits begins.waits]
  simp

/-- Letting go of a goal leads to a sound state. -/
theorem Ends.sound (h : Ends before now t final) (settled : Settled now.goal.part t)
    (reported : now.flagged = true → t.diagnostics ≠ #[]) (start : now.start ≤ t.nodes.size) :
    Sound final := by
  have failed (hfailed : now.failed = true) : t.diagnostics ≠ #[] :=
    reported (by rw [Pending.flagged, hfailed, Bool.true_or])
  cases h with
  | finish part rest => exact .finished (part ▸ settled).pending_eq_nil rest
  | goOn goal opened stays part ready unmarked carried =>
    refine settled.sound_push _ part ready unmarked ?_ start
    rwa [Pending.flagged, ← carried]
  | delegate goal next failed opened part awaits begins kept =>
    refine (settled.push { now with goal, failed } part awaits start ?_).sound_pushGoal next begins
    rwa [Pending.flagged, kept]
  | enter kind opened part unmarked =>
    have hend : (Goal.declarationEnd kind.declaration).awaits? = some (Goal.body kind).part := by
      cases kind <;> rfl
    have unflagged (goal : Goal) (hgoal : goal.carried = false) :
        ({ now with goal } : Pending).flagged = true → t.diagnostics ≠ #[] := by
      rw [Pending.flagged, unmarked, hgoal]
      intro hflagged
      exact absurd hflagged Bool.false_ne_true
    have hpush := settled.push { now with goal := .declarationEnd kind.declaration } part.symm hend
      start (unflagged _ rfl)
    exact hpush.sound_push { now with goal := .body kind } rfl rfl (by rintro ⟨⟩)
      (unflagged _ rfl) start
  | replace next opened part begins => exact Settled.sound_pushGoal next (part ▸ settled) begins
  | parenthesize goal unmarked ready =>
    rw [goal] at settled
    have hpush := settled.push ⟨.optionNameExtensionEnd, t.cursor.origin, t.nodes.size, false⟩
      rfl rfl (Nat.le_refl _) (by rintro ⟨⟩)
    exact hpush.sound_pushGoal (.qualifiedName none) ⟨ready, rfl⟩
  | pass opened inner => exact (settled.letGo failed).sound inner
  | close tag? inner => exact (settled.close tag? failed).sound inner
  | separate goal =>
    exact ((settled.close _ failed).addLeaf none false).sound (by rw [goal]; decide)
  | terminate goal => exact ((settled.close _ failed).node _).sound (by rw [goal]; decide)
  | closeScope kind goal =>
    exact ((settled.node _).close _ failed).sound (by rw [goal]; rintro ⟨⟩)
  | closeBody kind goal =>
    refine ((settled.addLeaf kind.closeTag? false).letGo ?_).sound (by rw [goal]; rintro ⟨⟩)
    rw [diagnostics_addLeaf]
    exact failed
  | cutBody kind goal =>
    have inner : now.goal.part ≠ .document := by rw [goal]; rintro ⟨⟩
    split
    · exact ((settled.node _).letGo failed).sound inner
    · exact (settled.letGo failed).sound inner
  | junk _ goal left there hreported =>
    have hsize := t.size_addLeaf_add_left none true
    have hleft := t.left_addLeaf_le none true
    refine (settled.addLeaf none true).sound_push _ ?_ rfl (by rintro ⟨⟩) (fun _ => ?_) ?_
    · rw [goal]
    · rwa [diagnostics_addLeaf]
    · exact Nat.le_trans start (by omega)

namespace Sound

/-- The goal on top of the stack is ready to be pursued. -/
theorem pursued {top : Pending} {below : List Pending} (h : Sound s)
    (hpending : s.pending = top :: below) :
    Settled top.goal.part { s with pending := below } ∧
      Pursued top { s with pending := below } := by
  cases h with
  | finished ended => exact absurd ended (by rw [hpending]; exact List.cons_ne_nil _ _)
  | going first settled pursued =>
    obtain ⟨rfl, rfl⟩ := List.cons.inj hpending
    exact ⟨settled, pursued⟩

/-- A step at a sound state is made of moves and one end. -/
theorem handled (h : Sound s) (running : s.pending ≠ []) : ∃ top t, Settled top.goal.part t ∧
    top.start ≤ t.nodes.size ∧ (top.flagged = true → t.diagnostics ≠ #[]) ∧
    s = { t with pending := top :: t.pending } ∧ Handled top t s.step := by
  cases h with
  | finished pending => exact absurd pending running
  | going top settled pursued start =>
    exact ⟨top, _, settled, start, pursued.reported, rfl, handled_pursue pursued⟩

theorem step (h : Sound s) : Sound s.step := by
  by_cases running : s.pending = []
  · rwa [ParseState.step, running]
  · obtain ⟨top, t, settled, start, reported, -, now, u, moves, ends⟩ := h.handled running
    have hgrows := moves.grows
    have hleft := moves.left_le
    refine ends.sound (moves.goal_eq ▸ settled.moves moves) ?_ (by rw [moves.start_eq]; omega)
    exact moves.flagged_reported reported

/-- A step keeps what has been reported. -/
theorem mem_diagnostics_step {diagnostic : Diagnostic} (h : Sound s)
    (reported : diagnostic ∈ s.diagnostics) : diagnostic ∈ s.step.diagnostics := by
  by_cases running : s.pending = []
  · rwa [ParseState.step, running]
  · obtain ⟨top, t, -, -, -, hs, now, u, moves, ends⟩ := h.handled running
    rw [ends.diagnostics_eq]
    rw [hs] at reported
    exact moves.mem_diagnostics reported

theorem diagnostics_step_ne (h : Sound s) (reported : s.diagnostics ≠ #[]) :
    s.step.diagnostics ≠ #[] := by
  obtain ⟨diagnostic, hdiagnostic⟩ := Array.exists_mem_of_ne_empty _ reported
  exact Array.ne_empty_of_mem (h.mem_diagnostics_step hdiagnostic)

/-- The guard plays no part in soundness. -/
theorem guard (h : Sound s) (guard : SyncGuard) : Sound { s with guard } := by
  cases h with
  | finished pending rest => exact .finished pending rest
  | @going t top settled pursued start =>
    have settled' : Settled top.goal.part { t with guard } :=
      ⟨settled.awaited, settled.lexemes, settled.starts, settled.reported⟩
    have pursued' : Pursued top { t with guard } :=
      ⟨pursued.ready, pursued.fresh, pursued.reported, pursued.atEnd⟩
    exact .going top settled' pursued' start

/-- No construct claims more nodes than there are. -/
theorem starts (h : Sound s) : ∀ entry ∈ s.pending, entry.start ≤ s.nodes.size := by
  cases h with
  | finished pending =>
    rw [pending]
    simp
  | going top settled _ start =>
    rintro _ (_ | ⟨_, hbelow⟩)
    · exact start
    · exact settled.starts _ hbelow

/-- What every step at a sound state keeps, a run from a sound state keeps. -/
theorem run_keeps (holds : ParseState → Prop) (h : Sound s) (start : holds s)
    (hstep : ∀ u, Sound u → holds u → holds u.step) (fuel : Nat) : holds (s.run fuel) := by
  induction fuel generalizing s with
  | zero => exact start
  | succ fuel ih =>
    rw [ParseState.run]
    split
    case isTrue => exact start
    case isFalse => exact ih h.step (hstep s h start)

/-- A run keeps soundness. -/
theorem run (h : Sound s) (fuel : Nat) : Sound (s.run fuel) :=
  h.run_keeps Sound h (fun _ sound _ => sound.step) fuel

end Sound

/-- A parse begins at a sound state. -/
theorem sound_initial {cursor : Cursor} (lexemes : ∀ lexeme ∈ cursor.rest, lexeme.kind ≠ .eof)
    (fragment : Fragment) (syncLimit : Nat) : Sound (initial cursor fragment syncLimit) := by
  have settled :
      Settled .document (⟨cursor, #[], [], #[], ⟨syncLimit, none, 0⟩, #[]⟩ : ParseState) :=
    ⟨rfl, lexemes, by simp, by simp⟩
  have hpart : fragment.goal.part = .document := by cases fragment <;> rfl
  have awaits : fragment.goal.awaits? = some .statement := by cases fragment <;> rfl
  refine settled.sound_push _ hpart (Goal.ready_of_awaits awaits _) (fun _ => rfl) ?_
    (Nat.le_refl _)
  cases fragment <;> rintro ⟨⟩

/-! ## The price of a state -/

/-- What the goals on a stack cost together. -/
def totalCost (pending : List Pending) : Int :=
  pending.foldr (fun entry cost => entry.goal.cost + cost) 0

/-- The price of a state: sixteen for every token that is left, and the cost of the goals. -/
def ParseState.price (s : ParseState) : Int := 16 * s.left + totalCost s.pending

@[simp] theorem totalCost_cons (entry : Pending) (below : List Pending) :
    totalCost (entry :: below) = entry.goal.cost + totalCost below := rfl

theorem Awaited.totalCost_nonneg {pending : List Pending} (h : Awaited part pending) :
    0 ≤ totalCost pending := by
  induction pending generalizing part with
  | nil => exact Int.le_refl 0
  | cons next below ih =>
    have hbelow := ih h.2
    rw [totalCost_cons, Goal.cost_eq_one h.1]
    omega

@[simp] theorem totalCost_markEnclosing :
    totalCost s.markEnclosing.pending = totalCost s.pending := by
  rw [markEnclosing]
  split
  case h_1 => rfl
  case h_2 hpending => rw [hpending]; rfl

theorem left_markEnclosing : s.markEnclosing.left = s.left := by
  rw [left, cursor_markEnclosing, left]

theorem price_letGo : (s.letGo now).price = s.price := by
  rw [letGo]
  split
  · rw [price, price, left_markEnclosing, totalCost_markEnclosing]
  · rfl

theorem price_close (tag? : Option NodeKind) : (s.close now tag?).price = s.price := by
  exact price_letGo

theorem price_addLeaf_le (tag? : Option NodeKind) (failed : Bool) :
    (s.addLeaf tag? failed).price ≤ s.price := by
  have hle := s.left_addLeaf_le tag? failed
  rw [price, price, pending_addLeaf]
  omega

/-- The step is paid for with what it has read and with the goal that it has pursued. -/
theorem Ends.price_lt (h : Ends before now t final) :
    final.price < 16 * before + now.goal.cost + totalCost t.pending := by
  have price : t.price = 16 * t.left + totalCost t.pending := rfl
  cases h with
  | finish part rest left =>
    rw [price, left_eq_zero rest, Goal.cost_of_document part]
    omega
  | goOn goal opened stays part ready unmarked carried paid =>
    show 16 * (t.left : Int) + (goal.cost + totalCost t.pending) < _
    omega
  | delegate goal next failed opened part awaits begins kept paid =>
    show 16 * (t.left : Int) + (next.cost + (goal.cost + totalCost t.pending)) < _
    omega
  | enter kind opened part unmarked carried paid =>
    show 16 * (t.left : Int) + (1 + (1 + totalCost t.pending)) < _
    omega
  | replace next opened part begins unmarked carried paid =>
    show 16 * (t.left : Int) + (next.cost + totalCost t.pending) < _
    omega
  | parenthesize goal unmarked ready read =>
    show 16 * (t.left : Int) + (-15 + (1 + totalCost t.pending)) < _
    have hcost : Goal.optionNamePart.cost = 1 := rfl
    rw [goal]
    omega
  | pass opened inner bare carried within paid =>
    rw [price_letGo]
    omega
  | close tag? inner bare closes settled paid =>
    rw [price_close]
    omega
  | separate goal left =>
    have hle := price_addLeaf_le (s := t.close now (some .textField)) none false
    rw [price_close] at hle
    have hcost : Goal.textFieldEnd.cost = 1 := rfl
    rw [goal, take]
    omega
  | terminate goal left =>
    have hclose : (t.close now (some .textField)).price = t.price := price_close _
    have hcost : Goal.textFieldEnd.cost = 1 := rfl
    rw [goal]
    show (t.close now (some .textField)).price < _
    omega
  | closeScope kind goal marked read =>
    have hclose : ((t.addSynthetic .scopeClose true).close now (some (.scope kind))).price =
        (t.addSynthetic .scopeClose true).price := price_close _
    have hsynthetic : (t.addSynthetic .scopeClose true).price = t.price := rfl
    have hcost : (Goal.scope kind).cost = -15 := rfl
    rw [goal]
    omega
  | closeBody kind goal left there =>
    have hle := price_addLeaf_le (s := t) kind.closeTag? false
    have hcost : (Goal.body kind).cost = 1 := rfl
    rw [price_letGo, goal]
    omega
  | cutBody kind goal left marked =>
    have hcost : (Goal.body kind).cost = 1 := rfl
    rw [price_letGo, goal]
    split
    · show t.price < _
      omega
    · omega
  | junk _ goal left there reported =>
    have hread := t.left_addLeaf_lt none true there
    show 16 * (t.discard.left : Int) + (1 + totalCost t.discard.pending) < _
    have hcost : Goal.file.cost = 1 := rfl
    rw [ParseState.discard, pending_addLeaf, goal]
    omega

namespace Sound

/-- Every step costs something. -/
theorem price_step_lt (h : Sound s) (running : s.pending ≠ []) : s.step.price < s.price := by
  obtain ⟨top, t, settled, start, reported, hs, now, u, moves, ends⟩ := h.handled running
  have hlt := ends.price_lt
  have hprice : s.price = 16 * t.left + (top.goal.cost + totalCost t.pending) := by rw [hs]; rfl
  rw [moves.goal_eq, moves.pending_eq] at hlt
  rw [hprice]
  omega

/-- Goals that wait cost something, and a goal that costs less than nothing has a token to read. -/
theorem price_nonneg (h : Sound s) : 0 ≤ s.price := by
  cases h with
  | finished pending rest =>
    rw [price, pending, left_eq_zero rest]
    exact Int.le_refl 0
  | @going t top settled pursued =>
    have hbelow := settled.awaited.totalCost_nonneg
    have hleft : top.goal.eager = true → 1 ≤ t.left := by
      intro heager
      have hread := t.left_take_lt (pursued.there heager)
      omega
    show 0 ≤ 16 * (t.left : Int) + (top.goal.cost + totalCost t.pending)
    rcases heager : top.goal.eager with _ | _
    · have hcost := Goal.cost_pos_of_not_eager heager
      omega
    · have hcost := top.goal.cost_ge
      have hleft := hleft heager
      omega

end Sound

end ProtoFront
