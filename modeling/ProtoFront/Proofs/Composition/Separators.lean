import ProtoFront.Proofs.Composition.Trees
import ProtoFront.Proofs.Parse.Leads
import ProtoFront.Proofs.Parse.Scopes
import ProtoFront.Proofs.Parse.Texts

/-!
# Terminators on the way

Whether a terminator is made is decided in front of the next token, when a field ends. Whether
another field follows is decided by the text message around it, one step later. Between the two the
next token is the same. So where a text message goes on, what it has made is such that a field may
follow if the token begins one, and else such that no field has to follow (`Stands`). No other
construct has a terminator among its trees, and a goal that is not about text messages keeps it so
(`Ends.separated`).
-/

namespace ProtoFront

open ParseState Production

variable {buffer : TokenBuffer} {entry now : Pending} {s t final : ParseState} {part : Part}
variable {before since more added : Forest} {kind : TokenKind} {goal : Goal} {pair : Bracket}

/-! ## Pieces -/

/-- What a text message has made when a field of it comes next. -/
structure Opened (buffer : TokenBuffer) (entry : Pending) (pair : Bracket) (since : Forest) :
    Prop where
  bracket : pair = .brace ∨ pair = .angle
  linked : since.Linked
  items : entry.flagged = false → since.items buffer ∈ (textOpening pair).matches'

/-- What a text message has made when no field of it comes next. -/
structure Filled (buffer : TokenBuffer) (entry : Pending) (pair : Bracket) (since : Forest) :
    Prop where
  bracket : pair = .brace ∨ pair = .angle
  divided : since.Divided
  items : entry.flagged = false → since.items buffer ∈ (textContent pair).matches'

/-- What a text message has made in front of a token. -/
def Poised (buffer : TokenBuffer) (kind : TokenKind) (entry : Pending) (pair : Bracket)
    (since : Forest) : Prop :=
  if startsTextField kind then Opened buffer entry pair since else Filled buffer entry pair since

/-- The piece of a construct that waits. -/
def Pauses (buffer : TokenBuffer) (entry : Pending) (since : Forest) : Prop :=
  match entry.goal with
  | .textMessageBody pair => Opened buffer entry pair since
  | _ => since.Free

/-- The piece of the construct on top of the stack, in front of a token. -/
def Stands (buffer : TokenBuffer) (kind : TokenKind) (entry : Pending) (since : Forest) : Prop :=
  match entry.goal with
  | .textMessage pair => pair = .brace ∨ pair = .angle
  | .textMessageBody pair => Poised buffer kind entry pair since
  | _ => since.Free

/-- A state between two steps: text messages and terminators are as they should be in the tree that
has been made, and fit the goals on the stack. -/
inductive Separated (buffer : TokenBuffer) : ParseState → Prop
  | finished {s : ParseState} (forest : Forest) (pending : s.pending = []) (lays : s.Lays forest)
      (uniform : forest.Uniform buffer) (free : forest.Free) : Separated buffer s
  | going {s : ParseState} {top : Pending} {rest : List Pending} (before since : Forest)
      (pending : s.pending = top :: rest) (lays : s.Lays (before ++ since))
      (uniform : (before ++ since).Uniform buffer) (below : Grown (Pauses buffer) rest before)
      (start : top.start = before.size) (stands : Stands buffer s.kind top since) :
      Separated buffer s

/-- The tree of a state is made of the pieces of the constructs on the stack and of some more. -/
structure Heaped (buffer : TokenBuffer) (s : ParseState) (before more : Forest) : Prop where
  below : Grown (Pauses buffer) s.pending before
  lays : s.Lays (before ++ more)
  uniform : (before ++ more).Uniform buffer

theorem stands_of_free (free : since.Free) (other : entry.goal.isSequel = false) :
    Stands buffer kind entry since := by
  rw [Stands]
  split
  case h_1 hgoal =>
    rw [hgoal, Goal.isSequel, Bool.and_eq_false_iff, bne_eq_false_iff_eq,
      bne_eq_false_iff_eq] at other
    exact other
  case h_2 hgoal =>
    rw [hgoal] at other
    cases other
  case h_3 => exact free

theorem pauses_iff_free (other : entry.goal.isSequel = false) :
    Pauses buffer entry since ↔ since.Free := by
  rw [Pauses]
  split
  case h_1 hgoal =>
    rw [hgoal] at other
    cases other
  case h_2 => exact Iff.rfl

theorem pauses_broken (h : Pauses buffer entry since) : Pauses buffer entry.broken since := by
  rw [Pauses] at h ⊢
  split
  case h_1 pair hgoal =>
    rw [show entry.goal = .textMessageBody pair from hgoal] at h
    exact ⟨h.bracket, h.linked,
      fun unflagged => Bool.noConfusion (unflagged.symm.trans entry.flagged_broken)⟩
  case h_2 hother =>
    split at h
    case h_1 pair hgoal => exact absurd hgoal (hother pair)
    case h_2 => exact h

/-! ## The stack -/

/-- Only text messages wait for text fields. -/
theorem Goal.isSequel_of_awaits (h : goal.awaits? = some part) (other : part ≠ .textField) :
    goal.isSequel = false := by
  cases goal with
  | textMessage pair => cases h
  | textMessageBody pair => exact absurd (Option.some.inj h).symm other
  | _ => rfl

theorem Goal.eq_of_awaits_textField (h : goal.awaits? = some .textField) :
    ∃ pair, goal = .textMessageBody pair := by
  cases goal with
  | textMessageBody pair => exact ⟨pair, rfl⟩
  | declarationEnd kind => cases kind <;> cases h
  | listAfterItem list failed => cases list <;> cases h
  | statementEnd kind => cases (Option.ite_none_right_eq_some.mp h).2
  | qualifiedNameEnd tag? => cases (Option.ite_none_right_eq_some.mp h).2
  | _ => cases h

theorem Goal.part_ne_textField (h : goal.isText = false) : goal.part ≠ .textField := by
  cases goal with
  | textField => cases h
  | textFieldEnd => cases h
  | listAfterItem list failed => cases list <;> rintro ⟨⟩
  | _ => rintro ⟨⟩

/-- What a step puts on the stack, if it leaves alone what has to do with text messages. -/
theorem ParseState.isSequel_of_texts (texts : t.texts = s.texts) (new : List Goal)
    (goals : t.goals = new ++ s.goals) : ∀ goal ∈ new, goal.isSequel = false := by
  have same : t.goals.countP Goal.isSequel = s.goals.countP Goal.isSequel := congrArg Prod.snd texts
  rw [goals, List.countP_append, Nat.add_eq_right, List.countP_eq_zero] at same
  exact fun goal hgoal => Bool.eq_false_iff.mpr (same goal hgoal)

/-- What a step makes, if it leaves alone what has to do with text messages. -/
theorem ParseState.isText_of_texts (texts : t.texts = s.texts) (new : List Node)
    (nodes : t.nodes.toList = s.nodes.toList ++ new) : ∀ node ∈ new, node.isText = false := by
  have same : t.nodes.toList.countP Node.isText = s.nodes.toList.countP Node.isText :=
    congrArg Prod.fst texts
  rw [nodes, List.countP_append, Nat.add_eq_left, List.countP_eq_zero] at same
  exact fun node hnode => Bool.eq_false_iff.mpr (same node hnode)

theorem ParseState.Lays.quiet (texts : t.texts = s.texts) (h : s.Lays before)
    (h' : t.Lays (before ++ more)) : more.Quiet := by
  refine isText_of_texts texts _ ?_
  rw [h', h, Forest.encode_append]

namespace Heaped

theorem congr (h : Heaped buffer s before more) (nodes : t.nodes = s.nodes)
    (pending : t.pending = s.pending) : Heaped buffer t before more := by
  refine ⟨by rw [pending]; exact h.below, ?_, h.uniform⟩
  rw [Lays, nodes]
  exact h.lays

theorem add (h : Heaped buffer s before more) (quiet : added.Quiet)
    (lays : t.Lays (before ++ more ++ added)) (pending : t.pending = s.pending) :
    Heaped buffer t before (more ++ added) := by
  rw [Forest.append_assoc] at lays
  refine ⟨by rw [pending]; exact h.below, lays, ?_⟩
  rw [← Forest.append_assoc]
  exact Forest.uniform_append.mpr ⟨h.uniform, quiet.uniform⟩

theorem letGo (h : Heaped buffer s before more) (now : Pending) :
    Heaped buffer (s.letGo now) before more := by
  refine ⟨?_, h.lays.letGo now, h.uniform⟩
  rw [ParseState.letGo]
  split
  · exact h.below.markEnclosing pauses_broken
  · exact h.below

/-- A construct that is closed is one tree of the construct around it. It stands for a token if
something has been made of it. -/
theorem close (h : Heaped buffer s before since) (start : now.start = before.size)
    (tag? : Option NodeKind) (sequenced : ∀ label : Label, label.kind? = tag? →
      label.failed = now.failed → Forest.Sequenced buffer label since) :
    ∃ label : Label, label.kind? = tag? ∧ label.failed = now.failed ∧
      (0 < since.size → label.token? ≠ none) ∧
      Heaped buffer (s.close now tag?) before (.tree label since) := by
  obtain ⟨hbefore, hsince⟩ := Forest.uniform_append.mp h.uniform
  let token? := if now.start = s.nodes.size then none else some now.origin.token
  have closed : Heaped buffer (s.addParent token? now.start tag? now.failed) before
      (.tree ⟨token?, now.failed, tag?⟩ since) := by
    refine ⟨h.below, ?_, Forest.uniform_append.mpr ⟨hbefore, hsince.tree (sequenced _ rfl rfl)⟩⟩
    rw [start]
    exact h.lays.addParent _ _ _
  refine ⟨_, rfl, rfl, fun inner => ?_, closed.letGo now⟩
  have further : now.start ≠ s.nodes.size := by
    rw [h.lays.size_eq, Forest.size_append, start]
    omega
  exact (if_neg further).trans_ne (Option.some_ne_none _)

/-- A construct that waits for something else than a text field is given more. -/
theorem extend (h : Heaped buffer s before more) (awaited : Awaited part s.pending)
    (inner : part ≠ .document) (other : part ≠ .textField) (free : more.Free) :
    Grown (Pauses buffer) s.pending (before ++ more) := by
  have below := h.below
  rcases hpending : s.pending with _ | ⟨next, rest⟩
  · rw [hpending] at awaited
    exact absurd awaited inner
  · rw [hpending] at below awaited
    have waits := Goal.isSequel_of_awaits awaited.1 other
    cases below with
    | piece below start kept =>
      rw [Forest.append_assoc]
      exact .piece below start
        ((pauses_iff_free waits).mpr (((pauses_iff_free waits).mp kept).append free))

/-- A part has ended, and the construct around it goes on. -/
theorem returns (h : Heaped buffer s before more) (awaited : Awaited part s.pending)
    (inner : part ≠ .document) (other : part ≠ .textField) (free : more.Free) :
    Separated buffer s := by
  have grown := h.extend awaited inner other free
  obtain ⟨-, lays, uniform⟩ := h
  generalize before ++ more = forest at grown lays uniform
  rcases hpending : s.pending with _ | ⟨next, rest⟩
  · rw [hpending] at awaited
    exact absurd awaited inner
  · rw [hpending] at grown awaited
    have waits := Goal.isSequel_of_awaits awaited.1 other
    cases grown with
    | @piece _ _ earlier own below start kept =>
      exact .going earlier own hpending lays uniform below start
        (stands_of_free ((pauses_iff_free waits).mp kept) waits)

end Heaped

/-- A construct begins. -/
theorem separated_begins {top : Pending} {rest : List Pending} {forest : Forest}
    (below : Grown (Pauses buffer) rest forest) (pending : s.pending = top :: rest)
    (lays : s.Lays forest) (uniform : forest.Uniform buffer) (start : top.start = s.nodes.size)
    (other : top.goal.isSequel = false) : Separated buffer s := by
  refine .going forest .nil pending ?_ ?_ below (start.trans lays.size_eq)
    (stands_of_free Forest.free_nil other)
  · rwa [Forest.append_nil]
  · rwa [Forest.append_nil]

theorem Forest.quiet_leaf (token? : Option Nat) (failed : Bool) {tag? : Option NodeKind}
    (message : tag? ≠ some .textMessage) (terminator : tag? ≠ some .terminator) :
    (Forest.leaf token? failed tag?).Quiet := by
  intro node hnode
  obtain rfl := List.mem_singleton.mp hnode
  simp [Node.isText, Label.node, message, terminator]

theorem BodyKind.closeTag?_ne (kind : BodyKind) :
    kind.closeTag? ≠ some .textMessage ∧ kind.closeTag? ≠ some .terminator := by
  cases kind <;> simp [closeTag?]

/-! ## Steps that are not about text messages -/

/-- A leaf is read, unless the input has ended. -/
theorem Heaped.addLeaf (h : Heaped buffer s before more) (free : more.Free)
    (tag? : Option NodeKind) (message : tag? ≠ some .textMessage)
    (terminator : tag? ≠ some .terminator) (failed : Bool) :
    ∃ more : Forest, more.Free ∧ Heaped buffer (s.addLeaf tag? failed) before more := by
  rcases hrest : s.cursor.rest with _ | ⟨next, rest⟩
  · rw [s.addLeaf_of_rest_eq_nil _ _ hrest]
    exact ⟨more, free, h⟩
  · have quiet := Forest.quiet_leaf (some next.index) failed message terminator
    exact ⟨_, free.append quiet.free,
      h.add quiet (h.lays.addLeaf tag? failed hrest) (s.pending_addLeaf tag? failed)⟩

/-- Letting go of a goal that is not about text messages. -/
theorem Ends.separated {left : Nat} (h : Ends left now t final) (texts : final.texts = t.texts)
    (other : now.goal.isText = false) (held : Heaped buffer t before since)
    (awaited : Awaited now.goal.part t.pending) (start : now.start = before.size)
    (free : since.Free) : Separated buffer final := by
  have field := Goal.part_ne_textField other
  have kept {entry : Pending} {since : Forest} (hother : entry.goal.isSequel = false)
      (free : since.Free) : Pauses buffer entry since := (pauses_iff_free hother).mpr free
  cases h with
  | finish part rest =>
    rcases hpending : t.pending with _ | ⟨next, rest⟩
    · obtain ⟨below, lays, uniform⟩ := held
      rw [hpending] at below
      cases below
      exact .finished since hpending lays uniform free
    · rw [hpending, part] at awaited
      exact absurd awaited.1 next.goal.awaits_ne_document
  | goOn goal opened stays part =>
    have sequel := isSequel_of_texts texts [goal] rfl goal (.head _)
    exact .going before since rfl held.lays held.uniform held.below start
      (stands_of_free free sequel)
  | delegate goal next failed opened part awaits begins =>
    have sequel := isSequel_of_texts texts [next, goal] rfl
    have waiting : Grown (Pauses buffer) ({ now with goal, failed } :: t.pending)
        (before ++ since) :=
      .piece held.below start (kept (sequel goal (.tail _ (.head _))) free)
    exact separated_begins waiting rfl held.lays held.uniform rfl (sequel next (.head _))
  | enter kind opened part =>
    -- the body begins where the declaration does, which itself has made nothing yet
    have waiting : Grown (Pauses buffer)
        ({ now with goal := .declarationEnd kind.declaration } :: t.pending) (before ++ .nil) :=
      .piece held.below start (kept rfl Forest.free_nil)
    rw [Forest.append_nil] at waiting
    exact .going before since rfl held.lays held.uniform waiting start (stands_of_free free rfl)
  | replace next opened part begins =>
    have inner : now.goal.part ≠ .document := part ▸ begins.ne_document
    have waiting := held.extend awaited inner field free
    have sequel := isSequel_of_texts texts [next] rfl next (.head _)
    exact separated_begins waiting rfl held.lays held.uniform rfl sequel
  | parenthesize goal unmarked ready =>
    have inner : now.goal.part ≠ .document := by rw [goal]; rintro ⟨⟩
    have waiting : Grown (Pauses buffer) (t.pushGoal .optionNameExtensionEnd).pending
        (before ++ since ++ .nil) :=
      .piece (held.extend awaited inner field free) held.lays.size_eq (kept rfl Forest.free_nil)
    rw [Forest.append_nil] at waiting
    exact separated_begins waiting rfl held.lays held.uniform rfl rfl
  | pass opened inner bare =>
    exact (held.letGo now).returns (awaited_letGo awaited now) inner field free
  | close tag? inner bare closes =>
    have plain := isText_of_texts texts [⟨_, _, now.failed, tag?⟩]
      (by rw [close_eq, nodes_letGo, nodes_addParent, Array.toList_push]) _ (.head _)
    rw [Node.isText, Bool.or_eq_false_iff, beq_eq_false_iff_ne, beq_eq_false_iff_ne] at plain
    obtain ⟨label, rfl, -, -, closed⟩ := held.close start tag? fun label hkind _ =>
      Forest.sequenced_of_ne free.divided (hkind ▸ plain.1) (hkind ▸ plain.2)
    exact closed.returns (awaited_close awaited now _) inner field (Forest.free_tree plain.2)
  | separate goal =>
    rw [goal] at other
    cases other
  | terminate goal =>
    rw [goal] at other
    cases other
  | closeScope kind goal =>
    have inner : now.goal.part ≠ .document := by rw [goal]; rintro ⟨⟩
    have quiet : (Forest.leaf none true (some .scopeClose)).Quiet :=
      Forest.quiet_leaf none true (by simp) (by simp)
    have ended := held.add quiet (held.lays.addSynthetic .scopeClose true) rfl
    obtain ⟨label, hkind, -, -, closed⟩ :=
      ended.close start (some (.scope kind)) fun label hkind _ =>
        Forest.sequenced_of_ne (free.append quiet.free).divided (by simp [hkind]) (by simp [hkind])
    have awaited : Awaited now.goal.part (t.addSynthetic .scopeClose true).pending := awaited
    exact closed.returns (awaited_close awaited now _) inner field
      (Forest.free_tree (by simp [hkind]))
  | closeBody kind goal left there =>
    have inner : now.goal.part ≠ .document := by rw [goal]; rintro ⟨⟩
    have plain := kind.closeTag?_ne
    obtain ⟨more, hfree, closed⟩ := held.addLeaf free kind.closeTag? plain.1 plain.2 false
    rw [← pending_addLeaf t kind.closeTag? false] at awaited
    exact (closed.letGo now).returns (awaited_letGo awaited now) inner field hfree
  | cutBody kind goal =>
    have inner : now.goal.part ≠ .document := by rw [goal]; rintro ⟨⟩
    split
    case h_1 tag htag =>
      have quiet := Forest.quiet_leaf none true (htag ▸ kind.closeTag?_ne.1)
        (htag ▸ kind.closeTag?_ne.2)
      have closed := held.add quiet (held.lays.addSynthetic tag true) rfl
      have awaited : Awaited now.goal.part (t.addSynthetic tag true).pending := awaited
      exact (closed.letGo now).returns (awaited_letGo awaited now) inner field
        (free.append quiet.free)
    case h_2 => exact (held.letGo now).returns (awaited_letGo awaited now) inner field free
  | junk failed goal =>
    obtain ⟨more, hfree, below, lays, uniform⟩ :=
      held.addLeaf free none (by simp) (by simp) true
    exact .going before more rfl lays uniform below start (stands_of_free hfree rfl)

end ProtoFront
