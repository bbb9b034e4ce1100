import ProtoFront.Proofs.Parse.Anchors
import ProtoFront.Proofs.Parse.Telling

/-!
# Nothing is reported twice

When a construct reports something, the token is left to the constructs around it. They are marked
one after the other, and a construct that is marked, or that begins with a new token, or that is a
body, does not report the token again. So as long as the parser stands in front of a token that has
been reported, the construct on top of the stack heeds that (`ParseState.Quieted`), and no token is
reported twice.

The end of the input is reported by everything that it cuts off. Besides there is one token that may
be reported twice: a sign behind the name of a text field without a colon. The missing colon is
reported, but the value is read all the same, and if nothing follows that the sign could belong to,
the missing value is reported at the same token (`TokenBuffer.AfterColon`).
-/

namespace ProtoFront

open ParseState

variable {buffer : TokenBuffer} {entry now top : Pending} {s t u final : ParseState}
variable {before : Nat} {expected : List Expectation}

/-! ## Constructs that heed -/

theorem Pending.heeds_of_failed (failed : top.failed = true) : top.heeds = true := by
  rw [heeds, failed, Bool.true_or, Bool.true_or]

theorem Pending.heeds_of_eager (eager : top.goal.eager = true) : top.heeds = true := by
  rw [heeds, eager, Bool.or_true, Bool.true_or]

theorem Goal.cost_of_outer {goal : Goal} (outer : goal.part.isInner = false) : goal.cost = 1 := by
  rcases goal with _ | _ | _ | _ | _ | _ | _ | _ | _ | _ | _ | _ | _ | _ | _ | _ | _ | _ | _ |
    (_ | _) | _ | _ | _ | _ | _ | _ | _ | _ | _ | _ | _ | _ | _ | _ | _ | _ | _ | _ | _ | _ | _ | _
  all_goals first | rfl | cases outer

/-- What heeds a report can cause no step but its own without reading. -/
theorem Pending.cost_le_one (heeds : top.heeds = true)
    (fresh : top.goal.awaits? = none → top.failed = false) : top.goal.cost ≤ 1 := by
  rw [Pending.heeds, Bool.or_eq_true_iff, Bool.or_eq_true_iff, Bool.not_eq_true'] at heeds
  rcases heeds with (failed | eager) | outer
  · obtain ⟨part, awaits⟩ := Option.ne_none_iff_exists'.mp fun begins => by
      rw [fresh begins] at failed
      cases failed
    exact Int.le_of_eq (Goal.cost_eq_one awaits)
  · have hcost := Goal.cost_le_of_eager eager
    omega
  · exact Int.le_of_eq (Goal.cost_of_outer outer)

theorem topFailed_letGo (failed : now.failed = true) : (s.letGo now).TopFailed := by
  rw [letGo, if_pos failed]
  exact topFailed_markEnclosing s

/-- All that waits on top of the stack heeds what has been reported. -/
def ParseState.TopHeeds (s : ParseState) : Prop := ∀ top ∈ s.pending.head?, top.heeds = true

theorem ParseState.TopFailed.topHeeds (h : s.TopFailed) : s.TopHeeds :=
  fun top htop => Pending.heeds_of_failed (h top htop)

/-- If nothing has been read, a construct that heeds what has been reported leaves the token to one
that heeds it as well. -/
theorem Ends.topHeeds (h : Ends before now t final) (heeds : now.heeds = true)
    (cost : now.goal.cost ≤ 1) (unread : before ≤ final.left) (started : t.left ≤ before)
    (bottom : now.goal.part = .document → t.pending = []) : final.TopHeeds := by
  have left_le : final.left ≤ t.left := h.rest_suffix.length_le
  -- a construct that is let go although it is cheap has failed
  have marked (inner : now.goal.part.isInner = true)
      (paid : 16 * (t.left : Int) < 16 * before + now.goal.cost) : now.failed = true := by
    rw [Pending.heeds, inner, Bool.not_true, Bool.or_false, Bool.or_eq_true_iff] at heeds
    refine heeds.resolve_right fun eager => ?_
    have hcost := Goal.cost_le_of_eager eager
    omega
  have isInner (inner : now.goal.part ≠ .document) (bare : ∀ kind, now.goal.part ≠ .block kind) :
      now.goal.part.isInner = true := by
    cases hpart : now.goal.part with
    | document => exact absurd hpart inner
    | block kind => exact absurd hpart (bare kind)
    | _ => rfl
  have fieldFailed (goal : now.goal = .textFieldEnd) : now.failed = true := by
    rw [Pending.heeds, goal] at heeds
    simpa [Goal.eager, Goal.part, Part.isInner] using heeds
  have pushed {entry : Pending} {below : List Pending} (hpending : final.pending = entry :: below)
      (hentry : entry.heeds = true) : final.TopHeeds := by
    rintro top htop
    rw [hpending] at htop
    exact Option.some.inj htop ▸ hentry
  cases h with
  | finish part =>
    intro top htop
    rw [bottom part] at htop
    cases htop
  | goOn goal opened stays part ready unmarked carried paid =>
    refine pushed rfl ?_
    rw [Pending.heeds, Bool.or_eq_true_iff, Bool.or_eq_true_iff] at heeds ⊢
    rw [part]
    refine heeds.imp_left fun h => h.imp_right fun eager => ?_
    have hcost := Goal.cost_le_of_eager eager
    have hcredit : goal.cost ≤ 0 := by omega
    exact Goal.eager_of_cost_le hcredit
  | delegate goal next failed opened part awaits begins kept paid =>
    have hcost := Goal.cost_eq_one awaits
    have hleft : before ≤ t.left := Nat.le_trans unread left_le
    have hcredit : next.cost ≤ 0 := by omega
    exact pushed rfl (Pending.heeds_of_eager (Goal.eager_of_cost_le hcredit))
  | enter kind opened part unmarked carried paid => omega
  | replace next opened part begins unmarked carried paid =>
    have hleft : before ≤ t.left := Nat.le_trans unread left_le
    have hcredit : next.cost ≤ 0 := by omega
    exact pushed rfl (Pending.heeds_of_eager (Goal.eager_of_cost_le hcredit))
  | parenthesize goal unmarked ready read => omega
  | pass opened inner bare carried within paid =>
    exact (topFailed_letGo (marked (isInner inner bare) paid)).topHeeds
  | close tag? inner bare closes settled paid =>
    exact (topFailed_letGo (marked (isInner inner bare) paid)).topHeeds
  | separate goal =>
    refine TopFailed.topHeeds ?_
    rw [TopFailed, take, pending_addLeaf]
    exact topFailed_letGo (fieldFailed goal)
  | terminate goal => exact (topFailed_letGo (fieldFailed goal)).topHeeds
  | closeScope kind goal marked read => omega
  | closeBody kind goal left inside =>
    have hread := t.left_addLeaf_lt kind.closeTag? false inside
    have hletGo : ((t.addLeaf kind.closeTag? false).letGo now).left =
        (t.addLeaf kind.closeTag? false).left := by
      rw [ParseState.left, cursor_letGo, ParseState.left]
    omega
  | cutBody kind goal left failed => exact (topFailed_letGo failed).topHeeds
  | junk failed goal left inside =>
    have hread := t.left_addLeaf_lt none true inside
    have hdiscard : (t.discard.resume { now with failed } .file).left =
        (t.addLeaf none true).left := rfl
    omega

/-! ## Places of states -/

namespace ParseState

theorem Silently.reads (h : s.Silently t) (reads : s.Reads buffer) : t.Reads buffer :=
  ⟨h.rest.trans reads.rest, h.endIndex.trans reads.endIndex⟩

/-- Behind a token that has been read, the parser stands further down. -/
theorem Reads.position_lt (h : s.Reads buffer) (ht : t.Reads buffer)
    (rest : t.cursor.rest <:+ s.cursor.rest) (read : t.left < s.left) :
    s.position < t.position := by
  rw [h.position_eq, ht.position_eq]
  exact TokenBuffer.position_lt rest h.rest read

theorem Reads.position_le (h : s.Reads buffer) (ht : t.Reads buffer)
    (rest : t.cursor.rest <:+ s.cursor.rest) : s.position ≤ t.position := by
  rw [h.position_eq, ht.position_eq]
  exact TokenBuffer.position_le rest h.rest

/-- As long as nothing is read, the parser stands where it stood. -/
theorem Reads.cursor_eq_of_left_le (h : s.Reads buffer) (ht : t.Reads buffer)
    (rest : t.cursor.rest <:+ s.cursor.rest) (unread : s.left ≤ t.left) : t.cursor = s.cursor := by
  rw [h.cursor_eq, ht.cursor_eq, rest.eq_of_length (Nat.le_antisymm rest.length_le unread)]

theorem reportedHere_iff : s.reportedHere = true ↔
    ∃ older last, s.diagnostics = Array.push older last ∧ last.token = s.position := by
  rw [reportedHere]
  split
  case h_1 last hlast =>
    obtain ⟨older, hpush⟩ := Array.back?_eq_some_iff.mp hlast
    rw [beq_iff_eq]
    refine ⟨fun here => ⟨older, last, hpush, here⟩, ?_⟩
    rintro ⟨others, other, hother, here⟩
    rw [hpush] at hother
    obtain ⟨rfl, -⟩ := Array.push_eq_push.mp hother
    exact here
  case h_2 hnone =>
    refine iff_of_false Bool.false_ne_true ?_
    rintro ⟨older, last, hpush, -⟩
    rw [hpush, Array.back?_push] at hnone
    cases hnone

/-- If a report is about the next token, the last one is. -/
theorem Ordered.reportedHere_of_mem (h : s.Ordered buffer) (reads : s.Reads buffer)
    {diagnostic : Diagnostic} (reported : diagnostic ∈ s.diagnostics)
    (here : diagnostic.token = s.position) : s.reportedHere = true := by
  obtain ⟨older, last, hpush⟩ := Array.exists_push_of_ne_empty (Array.ne_empty_of_mem reported)
  refine reportedHere_iff.mpr ⟨older, last, hpush, Nat.le_antisymm ?_ ?_⟩
  · exact h.token_le reads (hpush ▸ Array.mem_push_self)
  · have ordered := h.ordered
    rw [hpush] at reported
    rw [hpush, Array.toList_push, List.pairwise_append] at ordered
    rcases Array.mem_push.mp reported with hearlier | rfl
    · rw [← here]
      exact ordered.2.2 _ (Array.mem_toList_iff.mpr hearlier) _ (List.mem_singleton_self _)
    · exact here.ge

/-- Once the parser has read on, the next token has not been reported. -/
theorem Ordered.not_reportedHere (h : s.Ordered buffer) (reads : s.Reads buffer)
    (ht : t.Reads buffer) (rest : t.cursor.rest <:+ s.cursor.rest) (read : t.left < s.left)
    (diagnostics : t.diagnostics = s.diagnostics) : t.reportedHere ≠ true := by
  intro here
  obtain ⟨older, last, hpush, hlast⟩ := reportedHere_iff.mp here
  have hbehind := reads.position_lt ht rest read
  have hmem : last ∈ s.diagnostics := by
    rw [← diagnostics, hpush]
    exact Array.mem_push_self
  have hle := h.token_le reads hmem
  omega

end ParseState

/-! ## A value behind a missing colon -/

/-- A sign at which no value begins: no number and no identifier follows it. -/
def TokenBuffer.LoneSign (buffer : TokenBuffer) (token : Nat) : Prop :=
  ∃ front sign rest, buffer.significant = front ++ sign :: rest ∧ sign.index = token ∧
    (sign.kind = .minus ∨ sign.kind = .plus) ∧
    ∀ next ∈ rest.head?, next.kind.isNumber = false ∧ next.kind ≠ .identifier

/-- The one way in which a token is reported twice: a sign at which first a colon is missing and
then a value. -/
structure TokenBuffer.AfterColon (buffer : TokenBuffer) (earlier later : Diagnostic) : Prop where
  colon : earlier.expected = [.token .colon]
  value : later.expected = [.value]
  sign : buffer.LoneSign later.token

/-- A value is to be read that may be a scalar, and the last report, the only one about the next
token, is that there is no colon in front of it. -/
structure ParseState.LacksColon (s : ParseState) (top : Pending) : Prop where
  goal : top.goal = .value
  scalar : startsScalar s.kind = true
  reported : ∃ older : Array Diagnostic,
    s.diagnostics = older.push ⟨[.token .colon], s.kind, s.position⟩ ∧
      ∀ diagnostic ∈ older, diagnostic.token ≠ s.position

/-- A sign is read with the number or the word that it belongs to, unless it stands alone. -/
theorem loneSign_of_following (reads : s.Reads buffer) (sign : s.kind = .minus ∨ s.kind = .plus)
    (alone : ¬(s.following.isNumber || s.following == .identifier) = true) :
    buffer.LoneSign s.position := by
  rcases hrest : s.cursor.rest with _ | ⟨next, rest⟩
  · rw [kind, Cursor.kind, hrest] at sign
    rcases sign with h | h <;> cases h
  · obtain ⟨front, hfront⟩ := reads.rest
    refine ⟨front, next, rest, by rw [← hrest, hfront], ?_, ?_, ?_⟩
    · rw [position, Cursor.position, hrest]
    · rwa [← kind_of_rest hrest]
    · intro second hsecond
      obtain ⟨more, rfl⟩ := List.head?_eq_some_iff.mp hsecond
      rw [following, Cursor.following, hrest] at alone
      simpa using alone

/-- A scalar is read, unless it is a sign that stands alone. -/
theorem value_of_startsScalar (reads : s.Reads buffer) (scalar : startsScalar s.kind = true) :
    s.value.diagnostics = s.diagnostics ∧ s.value.left < s.left ∨
      s.value = s.missingValue ∧ buffer.LoneSign s.position := by
  have there : s.kind ≠ .eof := by
    intro heof
    rw [heof] at scalar
    cases scalar
  have read : s.take.left < s.left := Nat.lt_of_succ_le (s.left_take_lt there).le
  have took : s.take.diagnostics = s.diagnostics := s.diagnostics_addLeaf none false
  rw [value]
  cases hkind : s.kind with
  | stringLiteral =>
    obtain ⟨next, rest, hrest⟩ := exists_rest there
    refine .inl ⟨takeRun_of_take (P := fun t => t.diagnostics = s.diagnostics) rfl
      fun t ht _ => (t.diagnostics_addLeaf none false).trans ht, ?_⟩
    change (s.takeRun (· == .stringLiteral)).left < s.left
    rw [takeRun_take hrest (by rw [← kind_of_rest hrest, hkind]; rfl)]
    exact Nat.lt_of_le_of_lt (left_takeRun_le _ _) read
  | minus | plus =>
    dsimp only
    split
    case isTrue =>
      exact .inl ⟨(s.take.diagnostics_addLeaf none false).trans took,
        Nat.lt_of_le_of_lt s.take.left_take_le read⟩
    case isFalse alone =>
      exact .inr ⟨rfl, loneSign_of_following reads (by rw [hkind]; decide) alone⟩
  | intLiteral | floatLiteral | identifier | keyword | scalar => exact .inl ⟨took, read⟩
  | _ =>
    rw [hkind] at scalar
    cases scalar

/-! ## Steps -/

/-- If the next token has been reported, the construct on top of the stack heeds it, or it is a
value without a colon in front of it. The end of the input does not count. -/
def ParseState.Quieted (s : ParseState) : Prop :=
  ∀ top ∈ s.pending.head?, s.reportedHere = true → s.kind ≠ .eof →
    top.heeds = true ∨ s.LacksColon top

/-- No token has been reported twice. -/
def ParseState.Apart (buffer : TokenBuffer) (s : ParseState) : Prop :=
  s.diagnostics.toList.Pairwise fun earlier later => earlier.token = later.token →
    later.found = .eof ∨ buffer.AfterColon earlier later

section

variable (pursued : Pursued top s)

include pursued

theorem rest_pursue : (pursue top s).cursor.rest <:+ s.cursor.rest := by
  obtain ⟨now, u, moves, ends⟩ := handled_pursue pursued
  exact ends.rest_suffix.trans moves.rest_suffix

/-- A construct that heeds what has been reported reads on, or what is on top then heeds it too. -/
theorem topHeeds_of_heeds (settled : Settled top.goal.part s) (heeds : top.heeds = true)
    (unread : s.left ≤ (pursue top s).left) : (pursue top s).TopHeeds := by
  obtain ⟨now, u, moves, ends⟩ := handled_pursue pursued
  have heedsNow : now.heeds = true := by
    rcases moves.entry_eq with rfl | rfl
    · exact heeds
    · exact Pending.heeds_of_failed rfl
  have cost : now.goal.cost ≤ 1 := moves.goal_eq ▸ Pending.cost_le_one heeds pursued.fresh
  refine ends.topHeeds heedsNow cost unread moves.left_le fun document => ?_
  rw [moves.goal_eq] at document
  rw [moves.pending_eq]
  exact (document ▸ settled).pending_eq_nil

variable (reads : s.Reads buffer)

include reads

theorem reads_pursue : (pursue top s).Reads buffer := by
  refine ⟨(rest_pursue pursued).trans reads.rest, ?_⟩
  obtain ⟨now, u, moves, ends⟩ := handled_pursue pursued
  rw [← reads.endIndex, ← moves.endIndex_eq]
  rcases ends.cursor_eq with h | h <;> rw [h]

/-- A construct that heeds a report about the next token tells nothing about this token. -/
theorem position_ne_of_heeds (here : s.reportedHere = true) (there : s.kind ≠ .eof)
    (heeds : top.heeds = true) {report : Diagnostic}
    (pushed : (pursue top s).diagnostics = s.diagnostics.push report) :
    report.token ≠ s.position := by
  have readsTake : s.take.Reads buffer := reads.addLeaf none false
  have hlt := reads.position_lt readsTake (Silently.addLeaf s none false).rest
    (Nat.lt_of_succ_le (s.left_take_lt there).le)
  -- what is told is told behind the token
  have behind {t : ParseState} {expected : List Expectation} (silently : s.take.Silently t)
      (diagnostics : (pursue top s).diagnostics = (t.report expected).diagnostics) :
      report.token ≠ s.position := by
    have hle := readsTake.position_le (silently.reads readsTake) silently.rest
    rw [pushed] at diagnostics
    obtain ⟨rfl, -⟩ := Array.push_eq_push.mp diagnostics
    exact Nat.ne_of_gt (Nat.lt_of_lt_of_le hlt hle)
  cases (heeds_pursue pursued).heeds ⟨heeds, here, there⟩ with
  | quiet unchanged =>
    rw [pushed, take, diagnostics_addLeaf] at unchanged
    exact absurd unchanged Array.push_ne_self
  | told _ silently diagnostics => exact behind silently diagnostics
  | colon silently diagnostics => exact behind silently diagnostics

omit pursued in
/-- What is told about a value without a colon is that it is missing. -/
theorem afterColon_of_lacksColon (lacks : s.LacksColon top) {earlier report : Diagnostic}
    (pushed : (pursue top s).diagnostics = s.diagnostics.push report)
    (reported : earlier ∈ s.diagnostics) (same : earlier.token = s.position) :
    buffer.AfterColon earlier report := by
  rw [pursue, lacks.goal] at pushed
  obtain ⟨older, holder, others⟩ := lacks.reported
  rcases value_of_startsScalar reads lacks.scalar with ⟨unchanged, -⟩ | ⟨missing, lone⟩
  · exact absurd (pushed.symm.trans unchanged) Array.push_ne_self
  · rw [missing, missingValue, diagnostics_markEnclosing] at pushed
    obtain ⟨rfl, -⟩ := Array.push_eq_push.mp pushed
    rw [holder] at reported
    rcases Array.mem_push.mp reported with hother | rfl
    · exact absurd same (others earlier hother)
    · exact ⟨rfl, rfl, lone⟩

variable (ordered : s.Ordered buffer)
variable (quieted : s.reportedHere = true → s.kind ≠ .eof → top.heeds = true ∨ s.LacksColon top)

include ordered quieted

/-- What a step reports is about a token that has not been reported. -/
theorem not_reported_before (silently : s.Silently t)
    (diagnostics : (pursue top s).diagnostics = (t.report expected).diagnostics)
    {earlier : Diagnostic} (reported : earlier ∈ s.diagnostics)
    (same : earlier.token = t.position) (there : t.kind ≠ .eof) :
    buffer.AfterColon earlier ⟨expected, t.kind, t.position⟩ := by
  have readsThen := silently.reads reads
  have token_le := ordered.token_le reads reported
  -- otherwise the report is about a token behind all that have been reported
  have unread : s.left ≤ t.left := by
    by_contra read
    have hbehind := reads.position_lt readsThen silently.rest (Nat.not_le.mp read)
    omega
  have hcursor := reads.cursor_eq_of_left_le readsThen silently.rest unread
  have hposition : t.position = s.position := by rw [position, hcursor, position]
  have here := ordered.reportedHere_of_mem reads reported (same.trans hposition)
  have pushed : (pursue top s).diagnostics =
      s.diagnostics.push ⟨expected, t.kind, t.position⟩ := by
    rw [diagnostics, ← silently.diagnostics]
    rfl
  rw [kind, hcursor, ← kind] at there
  rcases quieted here there with heeds | lacks
  · exact absurd hposition (position_ne_of_heeds pursued reads here there heeds pushed)
  · exact afterColon_of_lacksColon reads lacks pushed reported (same.trans hposition)

theorem apart_pursue (apart : s.Apart buffer) : (pursue top s).Apart buffer := by
  have reports {t : ParseState} {expected : List Expectation} (silently : s.Silently t)
      (diagnostics : (pursue top s).diagnostics = (t.report expected).diagnostics) :
      (pursue top s).Apart buffer := by
    rw [Apart, diagnostics]
    change (t.diagnostics.push _).toList.Pairwise _
    rw [Array.toList_push, silently.diagnostics, List.pairwise_append]
    refine ⟨apart, List.pairwise_singleton _ _, fun earlier hearlier later hlater same => ?_⟩
    obtain rfl := List.mem_singleton.mp hlater
    by_cases there : t.kind = .eof
    · exact .inl there
    · exact .inr (not_reported_before pursued reads ordered quieted silently diagnostics
        (Array.mem_toList_iff.mp hearlier) same there)
  cases (heeds_pursue pursued).tells with
  | quiet diagnostics => rwa [Apart, diagnostics]
  | told expected silently diagnostics => exact reports silently diagnostics
  | colon silently diagnostics => exact reports silently diagnostics

/-- If a step tells nothing about a token that has been reported, the construct that is on top then
heeds the report. -/
theorem topHeeds_pursue (settled : Settled top.goal.part s)
    (diagnostics : (pursue top s).diagnostics = s.diagnostics)
    (here : (pursue top s).reportedHere = true) (there : (pursue top s).kind ≠ .eof) :
    (pursue top s).TopHeeds := by
  have rest := rest_pursue pursued
  have readsThen := reads_pursue pursued reads
  have unread : s.left ≤ (pursue top s).left := by
    by_contra read
    exact ordered.not_reportedHere reads readsThen rest (Nat.not_le.mp read) diagnostics here
  have hcursor := reads.cursor_eq_of_left_le readsThen rest unread
  have hkind : (pursue top s).kind = s.kind := by rw [kind, hcursor, kind]
  have hposition : (pursue top s).position = s.position := by rw [position, hcursor, position]
  have hereThen : s.reportedHere = true := by
    rwa [reportedHere, diagnostics, hposition] at here
  rcases quieted hereThen (hkind ▸ there) with heeds | lacks
  · exact topHeeds_of_heeds pursued settled heeds unread
  · -- a scalar would have been read, or reported
    exfalso
    have hvalue : pursue top s = s.value := by rw [pursue, lacks.goal]
    rw [hvalue] at unread diagnostics
    rcases value_of_startsScalar reads lacks.scalar with ⟨-, read⟩ | ⟨missing, -⟩
    · omega
    · rw [missing, missingValue, diagnostics_markEnclosing] at diagnostics
      exact absurd diagnostics Array.push_ne_self

theorem quieted_pursue (settled : Settled top.goal.part s) : (pursue top s).Quieted := by
  intro next hnext here there
  cases (heeds_pursue pursued).tells with
  | quiet diagnostics =>
    exact .inl
      (topHeeds_pursue pursued reads ordered quieted settled diagnostics here there next hnext)
  | @told t expected silently diagnostics settled =>
    rcases settled with read | failed
    · -- the parser stands behind the token that it has reported
      exfalso
      have behind := List.suffix_of_suffix_length_le (rest_pursue pursued) silently.rest
        (Nat.le_of_lt read)
      have hlt := (silently.reads reads).position_lt (reads_pursue pursued reads) behind read
      obtain ⟨older, last, hpush, hlast⟩ := reportedHere_iff.mp here
      rw [diagnostics] at hpush
      obtain ⟨rfl, -⟩ := Array.push_eq_push.mp hpush
      exact absurd hlast (Nat.ne_of_lt hlt)
    · exact .inl (failed.topHeeds next hnext)
  | @colon t silently diagnostics stays scalar asks =>
    have hkind : (pursue top s).kind = t.kind := by rw [kind, stays, kind]
    have hposition : (pursue top s).position = t.position := by rw [position, stays, position]
    refine .inr ⟨asks next hnext, hkind ▸ scalar, t.diagnostics, ?_,
      fun earlier hearlier same => ?_⟩
    · rw [diagnostics, hkind, hposition]
      rfl
    · rw [silently.diagnostics] at hearlier
      have after := not_reported_before pursued reads ordered quieted silently diagnostics hearlier
        (same.trans hposition) (hkind ▸ there)
      cases after.value

end

/-! ## Runs -/

/-- What a parse keeps: its reports are in order, none repeats another, and what has been reported
at the next token is heeded. -/
structure ParseState.ReportsOnce (buffer : TokenBuffer) (s : ParseState) : Prop where
  ordered : s.Ordered buffer
  apart : s.Apart buffer
  quieted : s.Quieted

theorem ParseState.ReportsOnce.step (h : s.ReportsOnce buffer) (sound : Sound s)
    (reads : s.Reads buffer) : s.step.ReportsOnce buffer := by
  rcases hpending : s.pending with _ | ⟨top, below⟩
  · rwa [ParseState.step, hpending]
  · obtain ⟨settled, pursued⟩ := sound.pursued hpending
    have quieted := h.quieted top (by rw [hpending]; rfl)
    have ordered : ({ s with pending := below } : ParseState).Ordered buffer :=
      ⟨h.ordered.made, h.ordered.ordered⟩
    have hstep : s.step = pursue top { s with pending := below } := by
      rw [ParseState.step, hpending]
    have quieted' : ({ s with pending := below } : ParseState).reportedHere = true →
        ({ s with pending := below } : ParseState).kind ≠ .eof →
          top.heeds = true ∨ ({ s with pending := below } : ParseState).LacksColon top :=
      fun here there => (quieted here there).imp_right fun lacks =>
        ⟨lacks.goal, lacks.scalar, lacks.reported⟩
    refine ⟨h.ordered.step sound reads, ?_, ?_⟩
    · rw [hstep]
      exact apart_pursue pursued ⟨reads.rest, reads.endIndex⟩ ordered quieted' h.apart
    · rw [hstep]
      exact quieted_pursue pursued ⟨reads.rest, reads.endIndex⟩ ordered quieted' settled

/-- No token is reported twice, except the end of the input, which everything that it cuts off
reports, and a lone sign behind the name of a text field, at which both a colon and a value are
missing. -/
theorem reported_once (buffer : TokenBuffer) (fragment : Fragment) (syncLimit : Nat)
    (nonempty : buffer.tokens ≠ #[]) :
    ∃ parsed, buffer.parse fragment syncLimit = .ok parsed ∧
      parsed.diagnostics.Pairwise fun earlier later => earlier.token = later.token →
        later.found = .eof ∨ buffer.AfterColon earlier later := by
  have start : (initial buffer.cursor fragment syncLimit).ReportsOnce buffer := by
    refine ⟨⟨fun diagnostic hnone => absurd hnone (Array.not_mem_empty diagnostic), .nil⟩, .nil, ?_⟩
    intro top htop here
    cases here
  have reads : (initial buffer.cursor fragment syncLimit).Reads buffer :=
    ⟨List.suffix_refl _, rfl⟩
  have ended := (buffer.sound_initial fragment syncLimit).run_keeps_reading (ReportsOnce buffer)
    reads start (fun _ sound reads once => once.step sound reads)
    (stepBound buffer.cursor.rest.length)
  exact ⟨_, buffer.parse_eq_ok fragment syncLimit nonempty, ended.apart⟩

/-- An option with a text field whose value is only a sign. -/
def TokenBuffer.loneSign : TokenBuffer :=
  ⟨"option a = \x7b b - \x7d;", #[⟨.keyword .kwOption, 0, 0, 6⟩, ⟨.identifier, 0, 7, 1⟩,
    ⟨.equals, 0, 9, 1⟩, ⟨.opener .brace, 0, 11, 1⟩, ⟨.identifier, 0, 13, 1⟩, ⟨.minus, 0, 15, 1⟩,
    ⟨.closer .brace, 0, 17, 1⟩, ⟨.semicolon, 0, 18, 1⟩, ⟨.eof, 0, 19, 0⟩], #[⟨0, 19⟩]⟩

theorem reported_once_loneSign : TokenBuffer.loneSign.tokens ≠ #[] ∧
    ∃ parsed, TokenBuffer.loneSign.parse .file 10 = .ok parsed ∧
      parsed.diagnostics.Pairwise fun earlier later => earlier.token = later.token →
        later.found = .eof ∨ TokenBuffer.loneSign.AfterColon earlier later :=
  ⟨by decide, reported_once TokenBuffer.loneSign .file 10 (by decide)⟩

/-- At the sign behind the name of the field both a colon and a value are reported missing. -/
theorem sign_reported_twice_loneSign :
    ∃ parsed, TokenBuffer.loneSign.parse .file 10 = .ok parsed ∧
      parsed.diagnostics = [⟨[.token .colon], .minus, 5⟩, ⟨[.value], .minus, 5⟩] ∧
      ¬ parsed.diagnostics.Pairwise fun earlier later => earlier.token = later.token →
        later.found = .eof := by
  have diagnostics : (TokenBuffer.loneSign.parseTokens .file 10).diagnostics =
      [⟨[.token .colon], .minus, 5⟩, ⟨[.value], .minus, 5⟩] := by
    decide +kernel
  refine ⟨TokenBuffer.loneSign.parseTokens .file 10, rfl, diagnostics, ?_⟩
  rw [diagnostics]
  simp

end ProtoFront
