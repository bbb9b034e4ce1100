import ProtoFront.Proofs.Parse.Input
import ProtoFront.Proofs.Parse.Loops
import ProtoFront.Proofs.Parse.Runs

/-!
# Every parse ends

The price of a state falls with every step, whatever the guard says, and it is never negative. So
the stack is empty after at most as many steps as the first state costs, and no chain of goals
comes back to where it was without reading a token.
-/

namespace ProtoFront

open ParseState

variable {s t u start : ParseState} {buffer : TokenBuffer}

/-- `Course start s`: the parser comes from `start` to `s` step by step, while the guard may be set
to anything at any time. -/
inductive Course (start : ParseState) : ParseState → Prop
  | start : Course start start
  | step {s : ParseState} : Course start s → s.pending ≠ [] → Course start s.step
  | guard {s : ParseState} (guard : SyncGuard) : Course start s → Course start { s with guard }

/-- The price is one of the goals and of the tokens that are left. -/
theorem ParseState.price_eq (s : ParseState) :
    s.price = 16 * s.left + s.goals.foldr (fun goal cost => goal.cost + cost) 0 := by
  rw [price, totalCost, goals, List.foldr_map]

/-! ## Reading within the buffer -/

/-- The parser has a rest of the significant tokens in front of it. -/
structure ParseState.Reads (buffer : TokenBuffer) (s : ParseState) : Prop where
  rest : s.cursor.rest <:+ buffer.significant
  endIndex : s.cursor.endIndex = buffer.endIndex

theorem ParseState.Reads.spelled (h : s.Reads buffer) : Spelled s.cursor.rest :=
  fun lexeme hlexeme => buffer.spelled_significant lexeme (h.rest.subset hlexeme)

theorem ParseState.Reads.addLeaf (h : s.Reads buffer) (tag? : Option NodeKind) (failed : Bool) :
    (s.addLeaf tag? failed).Reads buffer := by
  refine ⟨?_, (s.endIndex_addLeaf tag? failed).trans h.endIndex⟩
  rw [rest_addLeaf]
  exact (List.tail_suffix _).trans h.rest

/-- What the parser computes with is in range: the token that it looks at, the places of the tokens
that are left, and for every construct the number of nodes that it has, which is a difference. -/
structure ParseState.InRange (buffer : TokenBuffer) (s : ParseState) : Prop where
  position : s.position ≤ buffer.size
  lexemes : ∀ lexeme ∈ s.cursor.rest, lexeme.index < buffer.size
  offsets : ∀ lexeme ∈ s.cursor.rest, ∀ offset, buffer.offset? lexeme.index = some offset →
    offset < UInt32.size
  starts : ∀ entry ∈ s.pending, entry.start ≤ s.nodes.size

/-- The loops inside of a step end, wherever they begin, and they end where the skips do. -/
structure ParseState.LoopsEnd (s : ParseState) : Prop where
  run : ∀ member : TokenKind → Bool, member .eof = false →
    ∃ n ≤ s.left, Loop (runRound member) n s (s.takeRun member)
  group : ∃ n ≤ s.left, ∃ inner?, Loop groupRound n (s, some []) (s.skipGroup, inner?)
  skip : ∀ stop, ∃ n ≤ s.left, Loop (skipRound stop) n s (s.skipTo stop)
  statement : ∀ origin, ∃ n ≤ s.left, ∃ ended,
    Loop (statementRound origin) n (s, false) (s.skipStatement origin, ended)

theorem ParseState.Reads.step (h : s.Reads buffer) (sound : Sound s) : s.step.Reads buffer := by
  by_cases running : s.pending = []
  · rwa [ParseState.step, running]
  · obtain ⟨top, t, -, -, -, hs, now, u, moves, ends⟩ := sound.handled running
    have hrest : u.cursor.rest <:+ buffer.significant := by
      rw [hs] at h
      exact moves.rest_suffix.trans h.rest
    have hend : u.cursor.endIndex = buffer.endIndex := by
      rw [hs] at h
      exact moves.endIndex_eq.trans h.endIndex
    rcases ends.cursor_eq with hcursor | hcursor
    · exact ⟨by rwa [hcursor], by rwa [hcursor]⟩
    · exact ⟨by rw [hcursor]; exact (List.tail_suffix _).trans hrest, by rwa [hcursor]⟩

/-- What every step inside of the buffer keeps, a run keeps. -/
theorem Sound.run_keeps_reading (holds : ParseState → Prop) (h : Sound s) (reads : s.Reads buffer)
    (start : holds s) (hstep : ∀ u, Sound u → u.Reads buffer → holds u → holds u.step)
    (fuel : Nat) : holds (s.run fuel) :=
  (h.run_keeps (fun u => u.Reads buffer ∧ holds u) ⟨reads, start⟩
    (fun u sound hu => ⟨hu.1.step sound, hstep u sound hu.1 hu.2⟩) fuel).2

theorem Course.reads (h : Course start s) (sound : Sound start) (reads : start.Reads buffer) :
    Sound s ∧ s.Reads buffer := by
  induction h with
  | start => exact ⟨sound, reads⟩
  | step _ _ ih => exact ⟨ih.1.step, ih.2.step ih.1⟩
  | guard guard _ ih => exact ⟨ih.1.guard guard, ih.2.rest, ih.2.endIndex⟩

theorem ParseState.Reads.inRange (h : s.Reads buffer) (sound : Sound s)
    (lines : ∀ index offset, buffer.offset? index = some offset → offset < UInt32.size) :
    s.InRange buffer := by
  have index {lexeme : Lexeme} (hlexeme : lexeme ∈ s.cursor.rest) : lexeme.index < buffer.size :=
    TokenBuffer.index_lt_size (h.rest.subset hlexeme)
  refine ⟨?_, fun _ hlexeme => index hlexeme, fun lexeme _ => lines lexeme.index, sound.starts⟩
  rw [position, Cursor.position]
  split
  case h_1 =>
    rw [h.endIndex]
    exact TokenBuffer.endIndex_le_size
  case h_2 next rest hrest => exact Nat.le_of_lt (index (by rw [hrest]; exact List.mem_cons_self))

theorem ParseState.loopsEnd (lexemes : ∀ lexeme ∈ s.cursor.rest, lexeme.kind ≠ .eof) :
    s.LoopsEnd where
  run member heof := loop_takeRun member heof s
  group := loop_skipGroup s lexemes
  skip stop := loop_skipTo stop s lexemes
  statement origin := loop_skipStatement origin s lexemes

/-! ## Runs -/

theorem Course.price_le (h : Course start s) (sound : Sound start) :
    Sound s ∧ s.price ≤ start.price := by
  induction h with
  | start => exact ⟨sound, Int.le_refl _⟩
  | step _ running ih =>
    have hlt := ih.1.price_step_lt running
    exact ⟨ih.1.step, by omega⟩
  | guard guard _ ih => exact ⟨ih.1.guard guard, ih.2⟩

/-- A run is long enough if it may cost as much as its first state. -/
theorem Sound.pending_run (h : Sound s) (fuel : Nat) (enough : s.price ≤ fuel) :
    (s.run fuel).pending = [] := by
  induction fuel generalizing s with
  | zero =>
    by_contra running
    have hlt := h.price_step_lt running
    have hnonneg := h.step.price_nonneg
    omega
  | succ fuel ih =>
    rw [ParseState.run]
    split
    case isTrue hdone => exact List.isEmpty_iff.mp hdone
    case isFalse hrunning =>
      have hlt := h.price_step_lt (by rwa [List.isEmpty_iff] at hrunning)
      exact ih h.step (by omega)

/-- The first state costs less than a parse may. -/
theorem price_initial_le (cursor : Cursor) (fragment : Fragment) (syncLimit : Nat) :
    (initial cursor fragment syncLimit).price ≤ stepBound cursor.rest.length := by
  have cost : fragment.goal.cost = 1 := by cases fragment <;> rfl
  show 16 * (cursor.rest.length : Int) + (fragment.goal.cost + 0) ≤ _
  rw [cost, stepBound]
  omega

theorem TokenBuffer.sound_initial (buffer : TokenBuffer) (fragment : Fragment) (syncLimit : Nat) :
    Sound (initial buffer.cursor fragment syncLimit) :=
  ProtoFront.sound_initial (fun _ hlexeme => kind_ne_eof hlexeme) fragment syncLimit

/-- A buffer that holds anything, if only the end marker, is parsed. -/
theorem TokenBuffer.parse_eq_ok (buffer : TokenBuffer) (fragment : Fragment) (syncLimit : Nat)
    (nonempty : buffer.tokens ≠ #[]) :
    buffer.parse fragment syncLimit = .ok (buffer.parseTokens fragment syncLimit) := by
  rw [parse, if_neg (by simpa using nonempty)]

/-- Every parse ends. A buffer that holds a token has a result, which is that of a run after which
no goal is left. In every state on the way, whatever the guard says there, what the parser computes
with is in range, and the next step lowers the price, which is no less than zero. So the goals never
come back to where they were unless a token has been read. The loops inside of the steps end as
well, whatever rest of the input they begin at. -/
theorem parse_finishes (buffer : TokenBuffer) (fragment : Fragment) (syncLimit : Nat)
    (nonempty : buffer.tokens ≠ #[])
    (lines : ∀ index offset, buffer.offset? index = some offset → offset < UInt32.size) :
    let start := initial buffer.cursor fragment syncLimit
    let final := start.run (stepBound buffer.cursor.rest.length)
    buffer.parse fragment syncLimit =
        .ok ⟨⟨final.nodes⟩, final.diagnostics.toList, final.events.toList⟩ ∧
      final.pending = [] ∧
      (∀ s, Course start s →
        s.InRange buffer ∧ 0 ≤ s.price ∧ (s.pending ≠ [] → s.step.price < s.price)) ∧
      (∀ s t, Course start s → s.pending ≠ [] → Course s.step t → t.left = s.left →
        t.goals ≠ s.goals) ∧
      ∀ s : ParseState, s.cursor.rest <:+ buffer.significant → s.LoopsEnd := by
  intro start final
  have sound : Sound start := buffer.sound_initial fragment syncLimit
  have reads : start.Reads buffer := ⟨List.suffix_refl _, rfl⟩
  refine ⟨?_, sound.pending_run _ (price_initial_le ..), ?_, ?_, ?_⟩
  · rw [TokenBuffer.parse, if_neg (by simpa using nonempty)]
    rfl
  · intro s hs
    obtain ⟨hsound, hreads⟩ := hs.reads sound reads
    exact ⟨hreads.inRange hsound lines, hsound.price_nonneg, hsound.price_step_lt⟩
  · -- the price is one of the goals and of what is left, so it would be the same again
    intro s t hs running ht hleft hgoals
    obtain ⟨hsound, -⟩ := hs.reads sound reads
    have hlt := hsound.price_step_lt running
    have hle := (ht.price_le hsound.step).2
    rw [t.price_eq, hleft, hgoals, ← s.price_eq] at hle
    omega
  · intro s hrest
    exact loopsEnd fun _ hlexeme => TokenBuffer.kind_ne_eof (hrest.subset hlexeme)

/-- What a parse makes of the message that is cut off: the brace that is missing is reported, and
the message ends without it. -/
def TokenBuffer.cutMessageParse : ParsedFile where
  tree := ⟨#[⟨some 0, 1, false, none⟩, ⟨some 1, 1, false, some .name⟩, ⟨some 2, 1, false, none⟩,
    ⟨none, 1, true, some .scopeClose⟩, ⟨some 0, 5, true, some (.declaration (.scope .message))⟩]⟩
  diagnostics := [⟨[.token (.closer .brace)], .eof, 3⟩]
  events := [.reported ⟨[.token (.closer .brace)], .eof, 3⟩]

theorem TokenBuffer.parse_cutMessage : cutMessage.parse .file 0 = .ok cutMessageParse := by
  rw [parse_eq_ok cutMessage .file 0 (by decide)]
  exact congrArg Except.ok (by decide +kernel)

/-- The parse of the message that is cut off ends, and its first step already lowers the price. -/
theorem parse_finishes_cutMessage :
    let start := initial TokenBuffer.cutMessage.cursor .file 0
    TokenBuffer.cutMessage.tokens ≠ #[] ∧
    (∀ index offset, TokenBuffer.cutMessage.offset? index = some offset → offset < UInt32.size) ∧
      (start.run (stepBound TokenBuffer.cutMessage.cursor.rest.length)).pending = [] ∧
      start.step.price < start.price ∧
      TokenBuffer.cutMessage.parse .file 0 = .ok TokenBuffer.cutMessageParse := by
  intro start
  have lines (index offset : Nat) (h : TokenBuffer.cutMessage.offset? index = some offset) :
      offset < UInt32.size := by
    rcases index with _ | _ | _ | index
    case succ.succ.succ => cases h
    all_goals
      obtain rfl := Option.some.inj h
      decide
  obtain ⟨-, ended, course, -⟩ := parse_finishes TokenBuffer.cutMessage .file 0 (by decide) lines
  have running : start.pending ≠ [] := by decide +kernel
  exact ⟨by decide, lines, ended, (course start .start).2.2 running, TokenBuffer.parse_cutMessage⟩

end ProtoFront
