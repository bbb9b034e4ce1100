import ProtoFront.Proofs.Composition.Separators

/-!
# Fields and what divides them

The goals of text messages and their fields keep terminators between fields. A message that goes on
in front of a field has room for one more, and one that ends lacks none. So in every tree, also of
broken input, the children of a text message that bears no mark are what `Production.textMessage`
says, and terminators have fields on both sides.
-/

namespace ProtoFront

open ParseState Production

variable {buffer : TokenBuffer} {entry now next : Pending} {s t : ParseState}
variable {since more added : Forest} {kind : TokenKind} {goal : Goal} {pair : Bracket}
variable {fits fits' : Forest → Prop} {L : Language Item}

/-! ## Holding a goal -/

/-- What a move adds, if it leaves alone what has to do with text messages. -/
theorem Heaped.adds {before : Forest} (h : Heaped buffer s before more) (adds : Adds buffer L s t)
    (texts : t.texts = s.texts) : ∃ added : Forest, added.items buffer ∈ L ∧ added.Free ∧
      Heaped buffer t before (more ++ added) := by
  obtain ⟨added, -, items, lays⟩ := adds.grows
  have hlays := lays _ h.lays
  have quiet := h.lays.quiet texts hlays
  exact ⟨added, items, quiet.free, h.add quiet hlays adds.pending⟩

/-- Holding the goal `entry`, a construct has made trees that fit. -/
def Keeps (buffer : TokenBuffer) (fits : Forest → Prop) (entry : Pending) (s : ParseState) : Prop :=
  ∃ before since, Heaped buffer s before since ∧ Awaited entry.goal.part s.pending ∧
    entry.start = before.size ∧ s.Reads buffer ∧ fits since

namespace Keeps

theorem reads (h : Keeps buffer fits entry s) : s.Reads buffer := by
  obtain ⟨_, _, -, -, -, reads, -⟩ := h
  exact reads

theorem mono (h : Keeps buffer fits entry s) (weaker : ∀ since, fits since → fits' since) :
    Keeps buffer fits' entry s := by
  obtain ⟨before, since, heaped, awaited, start, reads, hfits⟩ := h
  exact ⟨before, since, heaped, awaited, start, reads, weaker since hfits⟩

/-- What has been made fits with what is added. -/
theorem add (h : Keeps buffer fits entry s) (adds : Adds buffer L s t) (texts : t.texts = s.texts)
    (grows : ∀ since added : Forest, fits since → added.items buffer ∈ L → added.Free →
      fits' (since ++ added)) : Keeps buffer fits' entry t := by
  obtain ⟨before, since, heaped, awaited, start, -, hfits⟩ := h
  obtain ⟨added, items, free, heaped⟩ := heaped.adds adds texts
  refine ⟨before, since ++ added, heaped, ?_, start, adds.reads,
    grows since added hfits items free⟩
  rwa [adds.pending]

/-- Something is added that is no terminator. -/
theorem addFree (h : Keeps buffer Forest.Free entry s) (adds : Adds buffer L s t)
    (texts : t.texts = s.texts) : Keeps buffer Forest.Free entry t :=
  h.add adds texts fun _ _ free _ more => free.append more

theorem addDivided (h : Keeps buffer Forest.Divided entry s) (adds : Adds buffer L s t)
    (texts : t.texts = s.texts) : Keeps buffer Forest.Divided entry t :=
  h.add adds texts fun _ _ divided _ more => divided.append_free more

theorem report (h : Keeps buffer fits entry s) (expected : List Expectation) :
    Keeps buffer fits entry (s.report expected) := by
  obtain ⟨before, since, heaped, awaited, start, reads, hfits⟩ := h
  exact ⟨before, since, heaped.congr rfl rfl, awaited, start, ⟨reads.rest, reads.endIndex⟩, hfits⟩

/-- The construct may have failed. -/
theorem spoil (h : Keeps buffer fits entry s) : Keeps buffer fits entry.broken s := h

theorem goOn (h : Keeps buffer fits entry s) (goal : Goal)
    (stands : ∀ since, fits since → Stands buffer s.kind { entry with goal } since) :
    Separated buffer (s.resume entry goal) := by
  obtain ⟨before, since, heaped, -, start, -, hfits⟩ := h
  exact .going before since rfl heaped.lays heaped.uniform heaped.below start (stands since hfits)

theorem delegate (h : Keeps buffer fits entry s) (goal next : Goal)
    (pauses : ∀ since, fits since → Pauses buffer { entry with goal } since)
    (other : next.isSequel = false) : Separated buffer ((s.resume entry goal).pushGoal next) := by
  obtain ⟨before, since, heaped, -, start, -, hfits⟩ := h
  have waiting : Grown (Pauses buffer) ({ entry with goal } :: s.pending) (before ++ since) :=
    .piece heaped.below start (pauses since hfits)
  exact separated_begins waiting rfl heaped.lays heaped.uniform rfl other

end Keeps

/-! ## Text messages -/

theorem Pending.resumed (h : entry.goal = goal) : ({ entry with goal } : Pending) = entry := by
  subst h
  rfl

/-- Before any token, if a message can both go on and end. -/
theorem Opened.poised (h : Opened buffer entry pair since) (h' : Filled buffer entry pair since) :
    Poised buffer kind entry pair since := by
  rw [Poised]
  split
  · exact h
  · exact h'

/-- Of a message that has failed, no more is asked. -/
theorem poised_of_flagged (bracket : pair = .brace ∨ pair = .angle) (divided : since.Divided)
    (flagged : entry.flagged = true) : Poised buffer kind entry pair since := by
  have unasked {p : Prop} (unflagged : entry.flagged = false) : p :=
    Bool.noConfusion (unflagged.symm.trans flagged)
  exact Opened.poised ⟨bracket, divided.toLinked, unasked⟩ ⟨bracket, divided, unasked⟩

theorem separated_textMessage (h : Keeps buffer (· = .nil) entry s)
    (bracket : pair = .brace ∨ pair = .angle) (ready : s.kind = .opener pair) :
    Separated buffer (s.textMessage pair entry) := by
  have opened : Keeps buffer (fun since =>
      since.items buffer ∈ (just (.opener pair)).matches' ∧ since.Free) entry s.take :=
    h.add (.just h.reads ready rfl) (by simp) fun since added hsince items free => by
      subst hsince
      exact ⟨items, free⟩
  refine opened.goOn (.textMessageBody pair) fun since hsince => ?_
  obtain ⟨items, free⟩ := hsince
  exact Opened.poised ⟨bracket, free.divided.toLinked, fun _ => mem_textOpening_of_opener items⟩
    ⟨bracket, free.divided, fun _ => mem_textContent_of_opener items⟩

theorem separated_closeTextMessage (h : Keeps buffer fits entry s)
    (goal : entry.goal = .textMessageBody pair) (divided : ∀ since, fits since → since.Divided)
    (message : entry.failed = false → ∀ since, fits since →
      since.items buffer ∈ Production.textMessage.matches') :
    Separated buffer (s.closeTextMessage entry) := by
  obtain ⟨before, since, heaped, awaited, start, -, hfits⟩ := h
  obtain ⟨label, hkind, -, -, closed⟩ := heaped.close start (some .textMessage)
    fun label hkind hfailed => ⟨divided since hfits,
      fun _ unmarked => message (hfailed.symm.trans unmarked) since hfits,
      fun hterminator => absurd (hkind.symm.trans hterminator) (by simp)⟩
  have inner : entry.goal.part = .value := by rw [goal]; rfl
  refine closed.returns (awaited_close awaited entry _) (by rw [inner]; rintro ⟨⟩)
    (by rw [inner]; rintro ⟨⟩) (Forest.free_tree ?_)
  rw [hkind]
  rintro ⟨⟩

theorem separated_textMessageJunk (h : Keeps buffer Forest.Divided entry s)
    (goal : entry.goal = .textMessageBody pair) (bracket : pair = .brace ∨ pair = .angle) :
    Separated buffer (s.textMessageJunk pair entry) := by
  have junk {t : ParseState} (broken : Keeps buffer Forest.Divided entry.broken t) :
      Separated buffer (if t.position = s.position then t.closeTextMessage entry.broken
        else t.resume entry.broken (.textMessageBody pair)) := by
    split
    case isTrue =>
      exact separated_closeTextMessage broken goal (fun _ divided => divided) (by rintro ⟨⟩)
    case isFalse =>
      exact broken.goOn (.textMessageBody pair) fun since divided =>
        poised_of_flagged bracket divided rfl
  have behind {t : ParseState} (broken : Keeps buffer Forest.Divided entry.broken t) :
      Keeps buffer Forest.Divided entry.broken
        (if isTextSeparator t.kind then t.discard else t) := by
    split
    case isTrue => exact broken.addDivided (.discard broken.reads) (by simp)
    case isFalse => exact broken
  rw [textMessageJunk]
  by_cases hreported : s.reportedHere = true
  · rw [if_pos hreported]
    exact junk (behind (h.spoil.addDivided (.skipTo h.reads _) (by simp)))
  · have reported := (h.report [.textFieldName]).spoil
    rw [if_neg hreported]
    exact junk (behind (reported.addDivided (.recoverTo reported.reads _) (by simp)))

theorem separated_textMessageBody (h : Keeps buffer (Poised buffer s.kind entry pair) entry s)
    (goal : entry.goal = .textMessageBody pair) :
    Separated buffer (s.textMessageBody pair entry) := by
  have filled (none : startsTextField s.kind = false) :
      Keeps buffer (Filled buffer entry pair) entry s :=
    h.mono fun since poised => by rwa [Poised, none] at poised
  rw [textMessageBody]
  split
  case isTrue hclose =>
    have closing : Keeps buffer (fun since => since.Divided ∧ (entry.flagged = false →
        since.items buffer ∈ Production.textMessage.matches')) entry s.take := by
      refine (filled (by rw [hclose]; rfl)).add (.just h.reads hclose rfl) (by simp)
        fun since added filled closer free =>
          ⟨filled.divided.append_free free, fun unflagged => ?_⟩
      rw [Forest.items_append]
      exact append_mem_textMessage filled.bracket (filled.items unflagged) closer
    exact separated_closeTextMessage closing goal (fun _ closed => closed.1)
      fun unfailed _ closed => closed.2 (Pending.flagged_eq_false unfailed (by rw [goal]; rfl))
  case isFalse =>
    split
    case isTrue heof =>
      have held := filled (by rw [heof]; rfl)
      exact separated_closeTextMessage (held.report _).spoil goal
        (fun _ filled => filled.divided) (by rintro ⟨⟩)
    case isFalse =>
      split
      case isTrue hfield =>
        refine h.delegate (.textMessageBody pair) .textField (fun since poised => ?_) rfl
        rw [Poised, if_pos hfield] at poised
        rwa [Pending.resumed goal, Pauses, goal]
      case isFalse hnone =>
        have held := filled (Bool.eq_false_iff.mpr hnone)
        have divided := held.mono fun _ filled => filled.divided
        obtain ⟨_, _, -, -, -, -, filled⟩ := held
        exact separated_textMessageJunk divided goal filled.bracket

/-! ## Text fields -/

/-- Only a text message waits for a field, and it has made what may stand in front of one. -/
theorem Heaped.returns_field {before : Forest} (h : Heaped buffer s before more)
    (awaited : Awaited .textField s.pending)
    (poised : ∀ top ∈ s.pending.head?, ∀ pair since, Opened buffer top pair since →
      Poised buffer s.kind top pair (since ++ more)) : Separated buffer s := by
  obtain ⟨below, lays, uniform⟩ := h
  rcases hpending : s.pending with _ | ⟨top, rest⟩
  · rw [hpending] at awaited
    cases awaited
  · rw [hpending] at below awaited poised
    cases below with
    | @piece _ _ earlier own below start kept =>
      rw [Forest.append_assoc] at lays uniform
      refine .going earlier (own ++ more) hpending lays uniform below start ?_
      obtain ⟨pair, hgoal⟩ := Goal.eq_of_awaits_textField awaited.1
      rw [Pauses, hgoal] at kept
      rw [Stands, hgoal]
      exact poised top rfl pair own kept

/-- A construct that fails marks the one around it. -/
theorem ParseState.unfailed_of_close {tag? : Option NodeKind} {top : Pending}
    (h : top ∈ (s.close now tag?).pending.head?) (unflagged : top.flagged = false) :
    now.failed = false := by
  by_contra failed
  rw [close_eq, letGo, if_pos (Bool.not_eq_false _ ▸ failed), markEnclosing] at h
  split at h
  case h_1 hpending =>
    rw [hpending] at h
    cases h
  case h_2 first rest _ =>
    obtain rfl : { first with failed := true } = top := Option.some.inj h
    cases unflagged

/-- A text field has become a node of the text message around it. -/
structure Fielded (buffer : TokenBuffer) (s : ParseState) (before more : Forest) : Prop where
  heaped : Heaped buffer s before more
  awaited : Awaited .textField s.pending
  reads : s.Reads buffer
  kinds : more.kinds = [some .textField]
  items : ∀ top ∈ s.pending.head?, top.flagged = false → more.items buffer = [.node .textField]

/-- A field is closed. It has read something, or has failed. -/
theorem Keeps.closeField (h : Keeps buffer Forest.Free entry s)
    (part : entry.goal.part = .textField)
    (nonempty : entry.failed = false → entry.start < s.nodes.size) :
    ∃ before more, Fielded buffer (s.closeTextField entry) before more := by
  obtain ⟨before, since, heaped, awaited, start, reads, free⟩ := h
  obtain ⟨label, hkind, -, real, closed⟩ := heaped.close start (some .textField)
    fun label hkind _ =>
      Forest.sequenced_of_ne free.divided (by simp [hkind]) (by simp [hkind])
  rw [part] at awaited
  have reads' : (s.closeTextField entry).Reads buffer :=
    ⟨by rw [closeTextField, cursor_close]; exact reads.rest,
      by rw [closeTextField, cursor_close]; exact reads.endIndex⟩
  refine ⟨before, _, closed, awaited_close awaited entry _, reads',
    by rw [Forest.kinds_tree, hkind], fun top htop unflagged => ?_⟩
  have grown := nonempty (unfailed_of_close htop unflagged)
  rw [heaped.lays.size_eq, Forest.size_append, start] at grown
  have inner : 0 < since.size := by omega
  rw [Forest.tree, Forest.items, Forest.items, Label.item_node label (real inner) inner, hkind]
  rfl

/-- A field that has failed needs no separator. -/
theorem separated_closeBrokenField (h : Keeps buffer Forest.Free entry.broken s)
    (part : entry.goal.part = .textField) :
    Separated buffer (s.closeTextField entry.broken) := by
  obtain ⟨before, more, fielded⟩ := h.closeField part (by rintro ⟨⟩)
  refine fielded.heaped.returns_field fielded.awaited fun top htop pair since opened => ?_
  refine poised_of_flagged opened.bracket (opened.linked.append_field fielded.kinds) ?_
  by_contra unflagged
  exact Bool.noConfusion (unfailed_of_close htop (Bool.eq_false_iff.mpr unflagged))

theorem separated_textFieldValue (h : Keeps buffer Forest.Free entry s)
    (goal : entry.goal = .textField) : Separated buffer (s.textFieldValue entry) := by
  have named : Keeps buffer Forest.Free entry
      (if (s.kind == .colon) = true then s.take else s) := by
    split
    case isTrue hcolon => exact h.addFree (.just h.reads (beq_iff_eq.mp hcolon) rfl) (by simp)
    case isFalse => exact h
  rw [textFieldValue]
  generalize (if (s.kind == .colon) = true then s.take else s) = u at named ⊢
  dsimp only
  split
  case h_1 next hnext =>
    have other : next.isSequel = false := by
      unfold compositeGoal? at hnext
      split at hnext <;> cases hnext <;> rfl
    exact named.delegate .textFieldEnd next (fun _ free => free) other
  case h_2 =>
    split
    case isTrue => exact named.delegate .textFieldEnd .value (fun _ free => free) rfl
    case isFalse =>
      have broken := (named.report [.token .colon]).spoil
      split
      case isTrue => exact broken.delegate .textFieldEnd .value (fun _ free => free) rfl
      case isFalse => exact separated_closeBrokenField broken (by rw [goal]; rfl)

theorem separated_textField (h : Keeps buffer (· = .nil) entry s) (goal : entry.goal = .textField)
    (ready : startsTextField s.kind = true) : Separated buffer (s.textField entry) := by
  have fresh : Keeps buffer Forest.Free entry s := h.mono fun since hsince => by
    subst hsince
    exact Forest.free_nil
  have there : s.kind ≠ .eof := by
    intro heof
    rw [heof] at ready
    cases ready
  have taken := fresh.addFree (.take h.reads there) (by simp)
  rw [textField]
  split
  case isTrue hopen =>
    have run := taken.addFree (.takeAny taken.reads isExtensionNamePart) (by simp)
    rw [expect, require]
    split
    case isTrue hclose =>
      exact separated_textFieldValue
        (run.addFree (.just run.reads (beq_iff_eq.mp hclose) rfl) (by simp)) goal
    case isFalse => exact separated_closeBrokenField (run.report _).spoil (by rw [goal]; rfl)
  case isFalse => exact separated_textFieldValue taken goal

section

variable (h : Opened buffer entry pair since) (kinds : more.kinds = [some .textField])
variable (items : entry.flagged = false → more.items buffer = [.node .textField])
include h kinds items

/-- In front of a message's end the last field needs no separator. -/
theorem Opened.field : Filled buffer entry pair (since ++ more) := by
  refine ⟨h.bracket, h.linked.append_field kinds, fun unflagged => ?_⟩
  rw [Forest.items_append, items unflagged]
  exact append_mem_textContent (h.items unflagged) (.inl rfl)

/-- Behind a field and a separator there may be another field, or none. -/
theorem Opened.separate (free : added.Free)
    (separator : added.items buffer ∈ textSeparator.matches') :
    Poised buffer kind entry pair (since ++ (more ++ added)) := by
  have divided := (h.linked.append_field kinds).append_free free
  rw [Forest.append_assoc] at divided
  refine Opened.poised ⟨h.bracket, divided.toLinked, fun unflagged => ?_⟩
    ⟨h.bracket, divided, fun unflagged => ?_⟩
  · rw [Forest.items_append, Forest.items_append, items unflagged]
    exact append_mem_textOpening (h.items unflagged) (.inl separator)
  · rw [Forest.items_append, Forest.items_append, items unflagged]
    exact append_mem_textContent (h.items unflagged) (.inr separator)

/-- Behind a field and a terminator there is another field. -/
theorem Opened.terminate :
    Opened buffer entry pair (since ++ (more ++ .leaf none false (some .terminator))) := by
  refine ⟨h.bracket, h.linked.append_terminator ?_, fun unflagged => ?_⟩
  · rw [Forest.kinds_append, kinds]
    rfl
  · rw [Forest.items_append, Forest.items_append, items unflagged]
    exact append_mem_textOpening (h.items unflagged) (.inr rfl)

end

/-- The separator behind a field. -/
theorem Adds.separator (reads : s.Reads buffer) (hkind : isTextSeparator s.kind = true) :
    Adds buffer textSeparator.matches' s s.take := by
  rcases Bool.or_eq_true_iff.mp hkind with hcomma | hsemicolon
  · exact (just reads (beq_iff_eq.mp hcomma) rfl).mono le_sup_left
  · exact (just reads (beq_iff_eq.mp hsemicolon) rfl).mono le_sup_right

theorem separated_textFieldEnd (h : Keeps buffer Forest.Free entry s)
    (goal : entry.goal = .textFieldEnd)
    (nonempty : entry.failed = false → entry.start < s.nodes.size) :
    Separated buffer (s.textFieldEnd entry) := by
  obtain ⟨before, more, ⟨heaped, awaited, reads, kinds, items⟩⟩ :=
    h.closeField (by rw [goal]; rfl) nonempty
  rw [textFieldEnd]
  generalize s.closeTextField entry = closed at heaped awaited reads items ⊢
  split
  case isTrue hseparator =>
    have adds := Adds.separator reads hseparator
    obtain ⟨added, separator, free, divided⟩ := heaped.adds adds (by simp)
    refine divided.returns_field (by rwa [adds.pending]) fun top htop pair since opened => ?_
    rw [adds.pending] at htop
    exact opened.separate kinds (items top htop) free separator
  case isFalse =>
    split
    case isTrue hfield =>
      have terminated : Heaped buffer (closed.addSynthetic .terminator false) before
          (more ++ .leaf none false (some .terminator)) := by
        refine ⟨heaped.below, ?_, ?_⟩
        · rw [← Forest.append_assoc]
          exact heaped.lays.addSynthetic .terminator false
        · rw [← Forest.append_assoc]
          exact Forest.uniform_append.mpr ⟨heaped.uniform, Forest.uniform_nil.tree
            ⟨Forest.free_nil.divided, by simp, fun _ => ⟨rfl, rfl⟩⟩⟩
      refine terminated.returns_field awaited fun top htop pair since opened => ?_
      have hfield : startsTextField (closed.addSynthetic .terminator false).kind = true := hfield
      rw [Poised, if_pos hfield]
      exact opened.terminate kinds (items top htop)
    case isFalse hnone =>
      refine heaped.returns_field awaited fun top htop pair since opened => ?_
      rw [Poised, if_neg hnone]
      exact opened.field kinds (items top htop)

/-! ## Steps -/

/-- A construct of which nothing is made yet begins with the next node. -/
theorem Composed.start_eq {top : Pending} {rest : List Pending} (h : Composed buffer s)
    (pending : s.pending = top :: rest) (unflagged : top.flagged = false)
    (fresh : top.goal.made = 1) : top.start = s.nodes.size := by
  cases h with
  | finished _ ended => exact absurd ended (by rw [pending]; exact List.cons_ne_nil _ _)
  | going before since hpending lays complete below start made =>
    obtain ⟨rfl, rfl⟩ := List.cons.inj (pending.symm.trans hpending)
    have items : since.items buffer ∈ (1 : Language Item) := fresh ▸ made unflagged
    cases since with
    | nil => rw [lays.size_eq, Forest.append_nil, start]
    | cons label children rest => cases items

theorem Composed.start_lt {top : Pending} {rest : List Pending} (h : Composed buffer s)
    (pending : s.pending = top :: rest) (unflagged : top.flagged = false)
    (grown : top.goal.made ≤ someItems) : top.start < s.nodes.size := by
  cases h with
  | finished _ ended => exact absurd ended (by rw [pending]; exact List.cons_ne_nil _ _)
  | going before since hpending lays complete below start made =>
    obtain ⟨rfl, rfl⟩ := List.cons.inj (pending.symm.trans hpending)
    have inner := Forest.size_pos_of_items_ne_nil (grown (made unflagged))
    rw [lays.size_eq, Forest.size_append, start]
    omega

/-- If a step leaves alone what has to do with text messages, so do the moves it is made of. -/
theorem Moves.texts_eq {left : Nat} (moves : Moves entry s now t) {final : ParseState}
    (ends : Ends left now t final) (texts : final.texts = s.texts) : t.texts = s.texts := by
  refine Prod.ext (Nat.le_antisymm ?_ moves.prefix_nodes.sublist.countP_le) ?_
  · rw [← texts]
    exact ends.prefix_nodes.sublist.countP_le
  · rw [ParseState.texts, goals, moves.pending_eq]
    rfl

/-- A goal that is not about text messages keeps terminators between fields. -/
theorem separated_pursue (h : Keeps buffer Forest.Free entry s) (pursued : Pursued entry s)
    (other : entry.goal.isText = false) : Separated buffer (s.pursue entry) := by
  obtain ⟨before, since, heaped, awaited, start, -, free⟩ := h
  have texts := texts_pursue other awaited
  obtain ⟨now, u, moves, ends⟩ := handled_pursue pursued
  obtain ⟨added, lays, -, -⟩ := moves.adds heaped.lays
  have same := moves.texts_eq ends texts
  have quiet := heaped.lays.quiet same lays
  refine ends.separated (texts.trans same.symm) (by rwa [moves.goal_eq])
    (heaped.add quiet lays moves.pending_eq) ?_ (by rw [moves.start_eq, start])
    (free.append quiet.free)
  rwa [moves.goal_eq, moves.pending_eq]

theorem Separated.step (h : Separated buffer s) (composed : Composed buffer s) (sound : Sound s)
    (reads : s.Reads buffer) : Separated buffer s.step := by
  cases h with
  | finished forest pending lays uniform free =>
    rw [ParseState.step, pending]
    exact .finished forest pending lays uniform free
  | @going top rest before since pending lays uniform below start stands =>
    obtain ⟨settled, pursued⟩ := sound.pursued pending
    have held {fits : Forest → Prop} (hfits : fits since) :
        Keeps buffer fits top { s with pending := rest } :=
      ⟨before, since, ⟨below, lays, uniform⟩, settled.awaited, start,
        ⟨reads.rest, reads.endIndex⟩, hfits⟩
    have fresh (waits : top.goal.awaits? = none) (made : top.goal.made = 1) : since = .nil := by
      have unflagged := Pending.flagged_eq_false (pursued.fresh waits)
        (Goal.carried_eq_false_of_awaits waits)
      have hstart := composed.start_eq pending unflagged made
      rw [lays.size_eq, Forest.size_append, start] at hstart
      cases since with
      | nil => rfl
      | cons label children rest =>
        rw [Forest.size] at hstart
        omega
    rw [step_of_pending pending]
    cases goal : top.goal with
    | textMessage pair =>
      rw [Stands, goal] at stands
      have ready := pursued.ready
      rw [goal] at ready
      rw [pursue, goal]
      exact separated_textMessage (held (fresh (by rw [goal]; rfl) (by rw [goal]; rfl))) stands
        (beq_iff_eq.mp ready)
    | textMessageBody pair =>
      rw [Stands, goal] at stands
      rw [pursue, goal]
      exact separated_textMessageBody (held stands) goal
    | textField =>
      have ready := pursued.ready
      rw [goal] at ready
      rw [pursue, goal]
      exact separated_textField (held (fresh (by rw [goal]; rfl) (by rw [goal]; rfl))) goal ready
    | textFieldEnd =>
      rw [Stands, goal] at stands
      rw [pursue, goal]
      refine separated_textFieldEnd (held stands) goal fun unfailed => ?_
      exact composed.start_lt pending (Pending.flagged_eq_false unfailed (by rw [goal]; rfl))
        (by rw [goal]; exact le_rfl)
    | _ =>
      rw [Stands, goal] at stands
      exact separated_pursue (held stands) pursued (by rw [goal]; rfl)

/-! ## Runs -/

theorem separated_initial (buffer : TokenBuffer) (fragment : Fragment) (syncLimit : Nat) :
    Separated buffer (initial buffer.cursor fragment syncLimit) := by
  refine .going .nil .nil rfl rfl Forest.uniform_nil .bottom rfl ?_
  cases fragment <;> exact Forest.free_nil

theorem Separated.run (h : Separated buffer s) (composed : Composed buffer s) (sound : Sound s)
    (reads : s.Reads buffer) (fuel : Nat) : Separated buffer (s.run fuel) :=
  (sound.run_keeps_reading (fun t => Composed buffer t ∧ Separated buffer t) reads ⟨composed, h⟩
    (fun _ sound reads kept => ⟨kept.1.step sound reads, kept.2.step kept.1 sound reads⟩) fuel).2

/-- In the tree of every parse, also of broken input, text fields are separated: in a text message
that bears no mark there is exactly one comma, semicolon or terminator between two fields, and
wherever there is a terminator, it is between two fields. -/
theorem separatesFields_parse (buffer : TokenBuffer) (fragment : Fragment) (syncLimit : Nat)
    (nonempty : buffer.tokens ≠ #[]) :
    ∃ parsed, buffer.parse fragment syncLimit = .ok parsed ∧
      parsed.tree.SeparatesFields buffer := by
  have sound := buffer.sound_initial fragment syncLimit
  have ended := sound.pending_run _ (price_initial_le buffer.cursor fragment syncLimit)
  have separated := (separated_initial buffer fragment syncLimit).run
    (composed_initial buffer fragment syncLimit) sound ⟨List.suffix_refl _, rfl⟩
    (stepBound buffer.cursor.rest.length)
  refine ⟨_, buffer.parse_eq_ok fragment syncLimit nonempty, ?_⟩
  cases separated with
  | going _ _ pending => exact absurd ended (by rw [pending]; exact List.cons_ne_nil _ _)
  | finished forest _ lays uniform free =>
    have hshows : (buffer.parseTokens fragment syncLimit).tree.Shows 0 forest :=
      ParseTree.shows_of_nodes [] [] (by rw [List.nil_append, List.append_nil]; exact lays)
    exact ParseTree.separatesFields_of_uniform hshows lays.size_eq uniform free

/-- An option without semicolon, whose value has a field without separator in front of another. -/
def TokenBuffer.unendedOption : TokenBuffer :=
  ⟨"option o = \x7b a: 1 b < c: 2; > \x7d",
    #[⟨.keyword .kwOption, 0, 0, 6⟩, ⟨.identifier, 0, 7, 1⟩, ⟨.equals, 0, 9, 1⟩,
      ⟨.opener .brace, 0, 11, 1⟩, ⟨.identifier, 0, 13, 1⟩, ⟨.colon, 0, 14, 1⟩,
      ⟨.intLiteral, 0, 16, 1⟩, ⟨.identifier, 0, 18, 1⟩, ⟨.opener .angle, 0, 20, 1⟩,
      ⟨.identifier, 0, 22, 1⟩, ⟨.colon, 0, 23, 1⟩, ⟨.intLiteral, 0, 25, 1⟩,
      ⟨.semicolon, 0, 26, 1⟩, ⟨.closer .angle, 0, 28, 1⟩, ⟨.closer .brace, 0, 30, 1⟩,
      ⟨.eof, 0, 31, 0⟩], #[⟨0, 31⟩]⟩

theorem separatesFields_unendedOption : TokenBuffer.unendedOption.tokens ≠ #[] ∧
    ∃ parsed, TokenBuffer.unendedOption.parse .file 10 = .ok parsed ∧ parsed.hasErrors = true ∧
      parsed.tree.SeparatesFields .unendedOption ∧
      parsed.tree.node? 21 = some ⟨some 3, 18, false, some .textMessage⟩ ∧
      parsed.tree.node? 9 = some ⟨none, 1, false, some .terminator⟩ := by
  have nonempty : TokenBuffer.unendedOption.tokens ≠ #[] := by decide
  obtain ⟨parsed, hparsed, separates⟩ :=
    separatesFields_parse TokenBuffer.unendedOption .file 10 nonempty
  obtain rfl : TokenBuffer.unendedOption.parseTokens .file 10 = parsed := Except.ok.inj hparsed
  have significant : TokenBuffer.unendedOption.significant = [⟨0, .keyword .kwOption, 0, 0, none⟩,
      ⟨1, .identifier, 0, 7, none⟩, ⟨2, .equals, 0, 9, none⟩, ⟨3, .opener .brace, 0, 11, none⟩,
      ⟨4, .identifier, 0, 13, none⟩, ⟨5, .colon, 0, 14, none⟩, ⟨6, .intLiteral, 0, 16, none⟩,
      ⟨7, .identifier, 0, 18, none⟩, ⟨8, .opener .angle, 0, 20, none⟩,
      ⟨9, .identifier, 0, 22, none⟩, ⟨10, .colon, 0, 23, none⟩, ⟨11, .intLiteral, 0, 25, none⟩,
      ⟨12, .semicolon, 0, 26, none⟩, ⟨13, .closer .angle, 0, 28, none⟩,
      ⟨14, .closer .brace, 0, 30, none⟩] := by
    decide +kernel
  refine ⟨nonempty, _, hparsed, ?_, separates, ?_, ?_⟩
  all_goals
    rw [TokenBuffer.parseTokens, TokenBuffer.cursor, significant]
    cbv

end ProtoFront
