import ProtoFront.Log
import ProtoFront.Proofs.Parse.Noting
import ProtoFront.Proofs.Parse.Once

/-!
# No recovery is given up

The guard counts recoveries in a row that read nothing and end at the same token, and it gives up
when there are more than its limit. It never counts beyond one.

Where a recovery has ended, the construct on top of the stack heeds what is reported about the next
token (`ParseState.Watched`). So another recovery that reads nothing begins there only if the token
has not been reported, and then it is reported. After that no construct tells the guard about the
token again.
-/

namespace ProtoFront

open ParseState

variable {buffer : TokenBuffer} {top : Pending} {s t : ParseState} {syncLimit : Nat}

/-! ## The guard -/

namespace SyncGuard

variable {guard : SyncGuard} {start stop : Nat}

@[simp] theorem limit_note : (guard.note start stop).1.limit = guard.limit := by
  rw [note]
  split <;> rfl

@[simp] theorem last?_note : (guard.note start stop).1.last? = some stop := by
  rw [note]
  split
  case isTrue stuck => exact stuck.2
  case isFalse => rfl

/-- What is counted as a repeat has begun and ended where the last recovery ended. -/
theorem stuck_of_repeats_note (h : (guard.note start stop).1.repeats ≠ 0) :
    start = stop ∧ guard.last? = some stop := by
  rw [note] at h
  split at h
  case isTrue stuck => exact stuck
  case isFalse => exact absurd rfl h

/-- If nothing has been repeated before a recovery gets stuck, there is one repeat at most. -/
theorem repeats_note_le_one
    (fresh : start = stop ∧ guard.last? = some stop → guard.repeats = 0) :
    (guard.note start stop).1.repeats ≤ 1 := by
  rw [note]
  split
  case isTrue stuck => exact Nat.le_of_eq (congrArg (· + 1) (fresh stuck))
  case isFalse => exact Nat.zero_le 1

/-- The guard gives up only beyond its limit. -/
theorem limit_lt_of_gaveUp (h : (guard.note start stop).2 = .gaveUp) :
    guard.limit < (guard.note start stop).1.repeats := by
  rw [note] at h ⊢
  split at h
  case isTrue stuck =>
    rw [if_pos stuck]
    dsimp only at h ⊢
    by_contra within
    rw [if_neg within] at h
    cases h
  case isFalse => cases h

end SyncGuard

/-! ## What a parse keeps -/

/-- A recovery that the guard has been told of is one repeat at most, and it was given up only
beyond the limit. -/
def ParseEvent.Within (syncLimit : Nat) : ParseEvent → Prop
  | .resynced outcome _ attempts => attempts ≤ 1 ∧ (outcome = .gaveUp → syncLimit < attempts)
  | .reported _ => True

/-- The guard has counted one repeat at most. If the parser stands where the last recovery ended,
the construct on top of the stack heeds what is reported about the token, and if that recovery was a
repeat, the token has been reported. -/
structure ParseState.Watched (syncLimit : Nat) (s : ParseState) : Prop where
  limit : s.guard.limit = syncLimit
  behind : ∀ stop ∈ s.guard.last?, stop ≤ s.position
  heeds : s.guard.last? = some s.position → s.TopHeeds
  repeats : s.guard.repeats ≤ 1
  reported : s.guard.last? = some s.position → s.guard.repeats ≠ 0 → s.reportedHere = true
  events : ∀ event ∈ s.events, event.Within syncLimit

theorem ParseState.Unnoted.reads (h : s.Unnoted t) (reads : s.Reads buffer) : t.Reads buffer :=
  ⟨h.rest.trans reads.rest, h.endIndex.trans reads.endIndex⟩

theorem ParseState.Unnoted.within (h : s.Unnoted t)
    (events : ∀ event ∈ s.events, event.Within syncLimit) :
    ∀ event ∈ t.events, event.Within syncLimit := by
  rintro (_ | ⟨outcome, token, attempts⟩) hevent
  · trivial
  · exact events _ (h.resyncs outcome token attempts hevent)

section

variable (pursued : Pursued top s) (reads : s.Reads buffer)
variable (ordered : (pursue top s).Ordered buffer)

include pursued reads

/-- A step that stays where it began has read nothing. -/
theorem left_le_of_position_le (stays : (pursue top s).position ≤ s.position) :
    s.left ≤ (pursue top s).left := by
  by_contra read
  have behind := reads.position_lt (reads_pursue pursued reads) (rest_pursue pursued)
    (Nat.not_le.mp read)
  omega

include ordered

/-- A step that stays in front of a token which has been reported, or that reports something there,
leaves the token reported. -/
theorem reportedHere_pursue (stays : (pursue top s).position ≤ s.position)
    (told : s.reportedHere = true ∨ s.diagnostics.size < (pursue top s).diagnostics.size) :
    (pursue top s).reportedHere = true := by
  have readsThen := reads_pursue pursued reads
  have onward := reads.position_le readsThen (rest_pursue pursued)
  -- what is reported on the way is about this token, since nothing behind it has been reached
  have reports {t : ParseState} {expected : List Expectation} (silently : s.Silently t)
      (diagnostics : (pursue top s).diagnostics = (t.report expected).diagnostics) :
      (pursue top s).reportedHere = true := by
    have htoken := ordered.token_le readsThen
      (show ⟨expected, t.kind, t.position⟩ ∈ (pursue top s).diagnostics by
        rw [diagnostics]; exact Array.mem_push_self)
    have hposition := reads.position_le (silently.reads reads) silently.rest
    exact reportedHere_iff.mpr ⟨_, _, diagnostics,
      Nat.le_antisymm htoken (Nat.le_trans stays hposition)⟩
  cases (heeds_pursue pursued).tells with
  | quiet diagnostics =>
    rcases told with here | more
    · rwa [reportedHere, diagnostics, Nat.le_antisymm stays onward]
    · rw [diagnostics] at more
      exact absurd more (Nat.lt_irrefl _)
  | told _ silently diagnostics => exact reports silently diagnostics
  | colon silently diagnostics => exact reports silently diagnostics

variable (settled : Settled top.goal.part s)
variable (h : ({ s with pending := top :: s.pending } : ParseState).Watched syncLimit)

include h

include settled in
/-- If the guard is told nothing and the parser stands where the last recovery ended, it stood there
before. -/
theorem watched_of_unnoted (unnoted : s.Unnoted (pursue top s)) :
    (pursue top s).Watched syncLimit := by
  have guard := unnoted.guard
  have onward := reads.position_le (reads_pursue pursued reads) unnoted.rest
  have stays (here : (pursue top s).guard.last? = some (pursue top s).position) :
      s.guard.last? = some s.position ∧ (pursue top s).position ≤ s.position := by
    rw [guard] at here
    have hle : (pursue top s).position ≤ s.position := h.behind _ here
    exact ⟨Nat.le_antisymm hle onward ▸ here, hle⟩
  refine ⟨guard ▸ h.limit, fun stop hstop => ?_, fun here => ?_, guard ▸ h.repeats,
    fun here again => ?_, unnoted.within h.events⟩
  · exact Nat.le_trans (h.behind stop (guard ▸ hstop)) onward
  · exact topHeeds_of_heeds pursued settled (h.heeds (stays here).1 top rfl)
      (left_le_of_position_le pursued reads (stays here).2)
  · exact reportedHere_pursue pursued reads ordered (stays here).2
      (.inl (h.reported (stays here).1 (guard ▸ again)))

omit pursued ordered in
/-- A recovery that gets stuck where the last one ended has read nothing. So nothing had been
reported there and nothing repeated, and then it has been reported. -/
theorem fresh_of_stuck {r : ParseState} (before : s.Unnoted r)
    (begun : r.left < s.left ∨ (¬(top.heeds = true ∧ s.reportedHere = true) ∧
      s.diagnostics.size < r.diagnostics.size))
    (stuck : r.position = t.position ∧ s.guard.last? = some t.position) :
    t.position = s.position ∧ s.guard.repeats = 0 ∧ s.diagnostics.size < r.diagnostics.size := by
  have readsR := before.reads reads
  have startsAt := reads.position_le readsR before.rest
  have hle : t.position ≤ s.position := h.behind _ stuck.2
  have hposition : t.position = s.position := by omega
  have unread : ¬r.left < s.left := fun read => by
    have hlt := reads.position_lt readsR before.rest read
    omega
  obtain ⟨unheard, told⟩ := begun.resolve_left unread
  refine ⟨hposition, ?_, told⟩
  by_contra again
  have last : s.guard.last? = some s.position := hposition ▸ stuck.2
  exact unheard ⟨h.heeds last top rfl, h.reported last again⟩

/-- Where a recovery has ended, the construct on top of the stack is marked. -/
theorem watched_of_noted {r : ParseState} (before : s.Unnoted r) (skips : r.Unnoted t)
    (behind : (t.resync r.position).1.Unnoted (pursue top s))
    (begun : r.left < s.left ∨ (¬(top.heeds = true ∧ s.reportedHere = true) ∧
      s.diagnostics.size < r.diagnostics.size))
    (settles : (pursue top s).left < t.left ∨ (pursue top s).TopFailed) :
    (pursue top s).Watched syncLimit := by
  have readsThen := reads_pursue pursued reads
  have readsT := skips.reads (before.reads reads)
  have fresh (stuck : r.position = t.position ∧ s.guard.last? = some t.position) :=
    fresh_of_stuck reads h before begun stuck
  have once := SyncGuard.repeats_note_le_one fun stuck => (fresh stuck).2.1
  have guard : (pursue top s).guard = (s.guard.note r.position t.position).1 := by
    rw [behind.guard, ← (before.trans skips).guard]
    rfl
  refine ⟨?_, fun stop hstop => ?_, fun here => ?_, guard ▸ once, fun here again => ?_, ?_⟩
  · rw [guard, SyncGuard.limit_note]
    exact h.limit
  · rw [guard, SyncGuard.last?_note] at hstop
    exact Option.some.inj hstop ▸ readsT.position_le readsThen behind.rest
  · rw [guard, SyncGuard.last?_note] at here
    refine (settles.resolve_left fun read => ?_).topHeeds
    have hlt := readsT.position_lt readsThen behind.rest read
    exact absurd (Option.some.inj here) (Nat.ne_of_lt hlt)
  · rw [guard] at here again
    rw [SyncGuard.last?_note] at here
    obtain ⟨hposition, -, told⟩ := fresh (SyncGuard.stuck_of_repeats_note again)
    have stays : (pursue top s).position ≤ s.position :=
      Nat.le_of_eq ((Option.some.inj here).symm.trans hposition)
    exact reportedHere_pursue pursued reads ordered stays
      (.inr (Nat.lt_of_lt_of_le told (Nat.le_trans skips.reports behind.reports)))
  · refine behind.within fun event hevent => ?_
    rcases Array.mem_push.mp hevent with hold | rfl
    · exact (before.trans skips).within h.events event hold
    · rw [(before.trans skips).guard]
      refine ⟨once, fun gaveUp => ?_⟩
      have hlimit := SyncGuard.limit_lt_of_gaveUp gaveUp
      rwa [show s.guard.limit = syncLimit from h.limit] at hlimit

include settled in
theorem watched_pursue : (pursue top s).Watched syncLimit := by
  cases notes_pursue pursued with
  | quiet unnoted => exact watched_of_unnoted pursued reads ordered settled h unnoted
  | noted before skips behind begun settles =>
    exact watched_of_noted pursued reads ordered h before skips behind begun settles

end

/-! ## Runs -/

theorem ParseState.Watched.step (h : s.Watched syncLimit) (sound : Sound s)
    (reads : s.Reads buffer) (ordered : s.Ordered buffer) : s.step.Watched syncLimit := by
  have orderedThen := ordered.step sound reads
  rcases hpending : s.pending with _ | ⟨top, below⟩
  · rwa [ParseState.step, hpending]
  · obtain ⟨settled, pursued⟩ := sound.pursued hpending
    rw [step_of_pending hpending] at orderedThen ⊢
    refine watched_pursue pursued ⟨reads.rest, reads.endIndex⟩ orderedThen settled ?_
    rwa [show ({ s with pending := top :: below } : ParseState) = s by rw [← hpending]]

theorem TokenBuffer.watched_run (buffer : TokenBuffer) (fragment : Fragment)
    (syncLimit steps : Nat) :
    ((initial buffer.cursor fragment syncLimit).run steps).Watched syncLimit := by
  have start : (initial buffer.cursor fragment syncLimit).Watched syncLimit := by
    refine ⟨rfl, ?_, fun here => ?_, Nat.zero_le 1, fun here => ?_, ?_⟩
    · exact fun stop hnone => absurd hnone (Option.not_mem_none stop)
    · cases here
    · cases here
    · exact fun event hnone => absurd hnone (Array.not_mem_empty event)
  have ordered : (initial buffer.cursor fragment syncLimit).Ordered buffer :=
    buffer.ordered_run fragment syncLimit 0
  exact ((buffer.sound_initial fragment syncLimit).run_keeps_reading
    (fun u => u.Watched syncLimit ∧ u.Ordered buffer) ⟨List.suffix_refl _, rfl⟩ ⟨start, ordered⟩
    (fun _ sound reads h => ⟨h.1.step sound reads h.2, h.2.step sound reads⟩) steps).1

/-- The guard never counts more than one repeat, whatever is parsed. So if it allows one, a parse
gives up no recovery, and it writes no warning to the log. -/
theorem never_gives_up (buffer : TokenBuffer) (fragment : Fragment) (syncLimit : Nat)
    (nonempty : buffer.tokens ≠ #[]) :
    (∀ steps, ((initial buffer.cursor fragment syncLimit).run steps).guard.repeats ≤ 1) ∧
    ∃ parsed, buffer.parse fragment syncLimit = .ok parsed ∧
      (∀ outcome token attempts, .resynced outcome token attempts ∈ parsed.events →
        attempts ≤ 1 ∧ (1 ≤ syncLimit → outcome ≠ .gaveUp)) ∧
      (1 ≤ syncLimit → ∀ event ∈ parsed.log buffer fragment, event.level ≠ .warn) := by
  have watched := buffer.watched_run fragment syncLimit
  have resyncs (outcome : Resync) (token attempts : Nat)
      (hevent : ParseEvent.resynced outcome token attempts ∈
        (buffer.parseTokens fragment syncLimit).events) :
      attempts ≤ 1 ∧ (1 ≤ syncLimit → outcome ≠ .gaveUp) := by
    obtain ⟨once, beyond⟩ := (watched _).events _ (Array.mem_toList_iff.mp hevent)
    refine ⟨once, fun allowed gaveUp => ?_⟩
    have hlt := beyond gaveUp
    omega
  refine ⟨fun steps => (watched steps).repeats, _,
    buffer.parse_eq_ok fragment syncLimit nonempty, resyncs, ?_⟩
  intro allowed event hevent hwarn
  rw [ParsedFile.log, List.mem_append, List.mem_cons, List.mem_map] at hevent
  rcases hevent with (rfl | ⟨happened, hhappened, rfl⟩) | hfinished
  · cases hwarn
  · rcases happened with diagnostic | ⟨_ | _ | _, token, attempts⟩
    · cases hwarn
    · cases hwarn
    · cases hwarn
    · exact (resyncs _ _ _ hhappened).2 allowed rfl
  · obtain rfl := List.mem_singleton.mp hfinished
    cases hwarn

/-- In front of a parenthesis that closes nothing, a text message repeats a recovery. -/
theorem never_gives_up_strayCloser :
    let buffer := tokenize "option a = \x7b 1 ) \x7d;" false
    buffer.tokens ≠ #[] ∧ ∃ parsed, buffer.parse .file 1 = .ok parsed ∧
      .resynced .repeated 5 1 ∈ parsed.events ∧
      (∀ outcome token attempts, .resynced outcome token attempts ∈ parsed.events →
        attempts ≤ 1 ∧ outcome ≠ .gaveUp) ∧
      ∀ event ∈ parsed.log buffer .file, event.level ≠ .warn := by
  intro buffer
  have nonempty : buffer.tokens ≠ #[] := tokens_tokenize_ne _ false
  obtain ⟨-, parsed, hparsed, resyncs, silent⟩ := never_gives_up buffer .file 1 nonempty
  have repeated : .resynced .repeated 5 1 ∈ (buffer.parseTokens .file 1).events := by
    decide +kernel
  obtain rfl := Except.ok.inj ((buffer.parse_eq_ok .file 1 nonempty).symm.trans hparsed)
  exact ⟨nonempty, _, hparsed, repeated,
    fun outcome token attempts hevent => (resyncs outcome token attempts hevent).imp_right
      fun kept => kept (Nat.le_refl 1),
    silent (Nat.le_refl 1)⟩

end ProtoFront
