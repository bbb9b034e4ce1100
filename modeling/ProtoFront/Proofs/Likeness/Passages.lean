import ProtoFront.Proofs.Likeness.Endings
import ProtoFront.Proofs.Likeness.Steps
import ProtoFront.Proofs.Parse.Leads
import ProtoFront.Proofs.Parse.Reports

/-!
# Statements side by side

From its first token on a statement is read to the end, whatever is in it, and becomes one node
(`Completes`). If that node is unmarked, nothing has been reported meanwhile, no construct has been
marked, and the parser has never looked behind the last token of the statement. So a parse that
shares just the tokens of the statement reads them in the same way (`Passage.alike`).
-/

namespace ProtoFront

open ParseState

variable {entry now : Pending} {s t final : ParseState} {before : Nat}

/-! ## What a step leaves to the constructs around -/

/-- None of the constructs has failed. -/
def Unflagged (pending : List Pending) : Prop := ∀ entry ∈ pending, entry.flagged = false

theorem unflagged_nil : Unflagged [] := fun _ h => absurd h List.not_mem_nil

theorem unflagged_cons {pending : List Pending} :
    Unflagged (entry :: pending) ↔ entry.flagged = false ∧ Unflagged pending :=
  List.forall_mem_cons

theorem unflagged_append {above below : List Pending} :
    Unflagged (above ++ below) ↔ Unflagged above ∧ Unflagged below :=
  List.forall_mem_append

/-- The construct around a part that ends is marked if the part has failed. -/
theorem pending_letGo_cons {around : List Pending} (h : s.pending = entry :: around) :
    (s.letGo now).pending = (if now.failed then entry.broken else entry) :: around := by
  rw [letGo]
  split
  · rw [markEnclosing, h]
    rfl
  · exact h

theorem unmarked_of_unflagged {around : List Pending}
    (h : Unflagged ((if now.failed then entry.broken else entry) :: around)) :
    now.failed = false ∧ Unflagged (entry :: around) := by
  cases hfailed : now.failed
  · rw [hfailed, if_neg Bool.false_ne_true] at h
    exact ⟨rfl, h⟩
  · rw [hfailed, if_pos rfl] at h
    cases (unflagged_cons.mp h).1

/-- A part is left to goals above those below, which know whether it has failed, or it ends, and the
construct around it knows. A statement leaves a node behind that knows as well. -/
theorem Ends.leaves (h : Ends before now t final) (inner : now.goal.part ≠ .document) :
    (∃ above, above ≠ [] ∧ final.pending = above ++ t.pending ∧
        (Unflagged above → now.flagged = false)) ∨
      (final.pending = (t.letGo now).pending ∧ (now.failed = false → now.flagged = false) ∧
        (now.goal.part = .statement →
          ∃ node, final.nodes.back? = some node ∧ node.failed = now.failed)) := by
  have uncarried {goal : Goal} (hgoal : now.goal = goal) (hcarried : goal.carried = false) :
      now.failed = false → now.flagged = false := by
    intro unmarked
    rw [Pending.flagged, unmarked, hgoal, hcarried]
    rfl
  have keeps {u : ParseState} (hu : u.pending = t.pending) :
      (u.letGo now).pending = (t.letGo now).pending := by
    rw [letGo, letGo]
    split
    · rw [markEnclosing, markEnclosing, hu]
      split
      · exact hu
      · rfl
    · exact hu
  have closes {u : ParseState} (tag? : Option NodeKind) (hu : u.pending = t.pending) :
      (u.close now tag?).pending = (t.letGo now).pending :=
    keeps (u := u.addParent _ _ _ _) hu
  have node (u : ParseState) (tag? : Option NodeKind) :
      ∃ node, (u.close now tag?).nodes.back? = some node ∧ node.failed = now.failed := by
    rw [close_eq, nodes_letGo, nodes_addParent, Array.back?_push]
    exact ⟨_, rfl, rfl⟩
  cases h with
  | finish part => exact absurd part inner
  | goOn goal opened stays part ready unmarked carried =>
    refine .inl ⟨[{ now with goal }], by simp, rfl, fun clean => ?_⟩
    have hflagged := clean _ List.mem_cons_self
    rwa [Pending.flagged, ← carried] at hflagged
  | delegate goal next failed opened part awaits begins kept =>
    refine .inl ⟨[⟨next, t.cursor.origin, t.nodes.size, false⟩, { now with goal, failed }], by simp,
      rfl, fun clean => ?_⟩
    have hflagged := clean { now with goal, failed } (by simp)
    rwa [Pending.flagged, kept] at hflagged
  | enter kind opened part unmarked carried =>
    refine .inl ⟨[{ now with goal := .body kind },
      { now with goal := .declarationEnd kind.declaration }], by simp, rfl, fun _ => ?_⟩
    rw [Pending.flagged, unmarked, carried]
    rfl
  | replace next opened part begins unmarked carried =>
    refine .inl ⟨[⟨next, t.cursor.origin, t.nodes.size, false⟩], by simp, rfl, fun _ => ?_⟩
    rw [Pending.flagged, unmarked, carried]
    rfl
  | parenthesize goal unmarked =>
    refine .inl ⟨[⟨.qualifiedName none, t.cursor.origin, t.nodes.size, false⟩,
      ⟨.optionNameExtensionEnd, t.cursor.origin, t.nodes.size, false⟩], by simp, rfl, fun _ => ?_⟩
    exact uncarried goal rfl unmarked
  | pass opened _ bare carried within =>
    exact .inr ⟨rfl, uncarried rfl carried, fun statement => absurd statement within⟩
  | close tag? _ bare closed settled =>
    refine .inr ⟨closes tag? rfl, fun unmarked => ?_, fun _ => node t tag?⟩
    refine uncarried rfl (Bool.eq_false_iff.mpr fun hcarried => ?_) unmarked
    rw [settled hcarried] at unmarked
    cases unmarked
  | separate goal =>
    refine .inr ⟨?_, uncarried goal rfl,
      fun statement => absurd statement (by rw [goal]; simp [Goal.part])⟩
    rw [take, pending_addLeaf]
    exact closes _ rfl
  | terminate goal =>
    exact .inr ⟨closes _ rfl, uncarried goal rfl,
      fun statement => absurd statement (by rw [goal]; simp [Goal.part])⟩
  | closeScope kind goal =>
    exact .inr ⟨closes (u := t.addSynthetic _ _) _ rfl, uncarried goal rfl, fun _ => node _ _⟩
  | closeBody kind goal =>
    exact .inr ⟨keeps (t.pending_addLeaf _ _), uncarried goal rfl,
      fun statement => absurd statement (by rw [goal]; simp [Goal.part])⟩
  | cutBody kind goal =>
    refine .inr ⟨keeps ?_, uncarried goal rfl,
      fun statement => absurd statement (by rw [goal]; simp [Goal.part])⟩
    split <;> rfl
  | junk failed goal => exact absurd (by rw [goal]; rfl) inner

/-- The goals below a statement: the first of them waits for it. -/
def AwaitStatement (below : List Pending) : Prop :=
  ∃ bottom others, below = bottom :: others ∧ bottom.goal.awaits? = some .statement

/-- A step at a goal above those that wait for a statement. Either there are still goals above them,
or the statement has become a node. If nothing is marked after the step, nothing has been reported
in it, and nothing was marked before. -/
theorem Sound.step_above {top : Pending} {above below : List Pending} (h : Sound s)
    (hs : s.pending = top :: (above ++ below)) (grounded : AwaitStatement below) :
    (∃ above', above' ≠ [] ∧ s.step.pending = above' ++ below ∧
        (Unflagged above' → s.step.diagnostics = s.diagnostics ∧ Unflagged (top :: above))) ∨
      (above = [] ∧ s.step.pending.length = below.length ∧ ∃ node,
        s.step.nodes.back? = some node ∧ (node.failed = false → s.step.pending = below ∧
          s.step.diagnostics = s.diagnostics ∧ top.flagged = false)) := by
  obtain ⟨bottom, others, hbelow, hawaits⟩ := grounded
  obtain ⟨top', t, settled, -, -, hst, now, u, moves, ends⟩ := h.handled (by rw [hs]; simp)
  rw [hst] at hs
  obtain ⟨rfl, ht⟩ := List.cons.inj hs
  have awaited := settled.awaited
  rw [ht] at awaited
  have inner : now.goal.part ≠ .document := by
    rw [moves.goal_eq]
    intro document
    rw [document] at awaited
    have hnone := awaited.eq_nil
    simp [hbelow] at hnone
  have unreported (unflagged : now.flagged = false) :
      s.step.diagnostics = s.diagnostics ∧ top'.flagged = false := by
    have unmarked : now.failed = false := (Bool.or_eq_false_iff.mp unflagged).1
    have hnow : now = top' := moves.entry_eq.resolve_right (by rintro rfl; cases unmarked)
    rw [ends.diagnostics_eq, moves.diagnostics_eq unmarked, ← hnow]
    exact ⟨by rw [hst], unflagged⟩
  have hu : u.pending = above ++ below := moves.pending_eq.trans ht
  rcases ends.leaves inner with ⟨new, hnew, hfinal, hknown⟩ | ⟨hfinal, hknown, hnode⟩
  · refine .inl ⟨new ++ above, by simp [hnew], ?_, fun clean => ?_⟩
    · rw [hfinal, hu, List.append_assoc]
    · obtain ⟨cleanNew, cleanAbove⟩ := unflagged_append.mp clean
      obtain ⟨hdiagnostics, htop⟩ := unreported (hknown cleanNew)
      exact ⟨hdiagnostics, unflagged_cons.mpr ⟨htop, cleanAbove⟩⟩
  · rcases above with _ | ⟨next, above⟩
    · rw [hbelow] at awaited
      have statement : now.goal.part = .statement := by
        rw [moves.goal_eq]
        exact (Option.some.inj (awaited.1.symm.trans hawaits))
      obtain ⟨node, hback, hfailed⟩ := hnode statement
      refine .inr ⟨rfl, ?_, node, hback, fun unmarked => ?_⟩
      · rw [hfinal, ← List.length_map Pending.frame, ← frames,
          frames_letGo, frames, hu, List.length_map]
        rfl
      rw [hfailed] at unmarked
      refine ⟨?_, unreported (hknown unmarked)⟩
      rw [hfinal, letGo_of_unmarked unmarked, hu]
      rfl
    · -- the construct around a part that has failed is still above
      refine .inl ⟨_, List.cons_ne_nil _ _, hfinal.trans (pending_letGo_cons hu),
        fun clean => ?_⟩
      obtain ⟨unmarked, cleanAbove⟩ := unmarked_of_unflagged clean
      obtain ⟨hdiagnostics, htop⟩ := unreported (hknown unmarked)
      exact ⟨hdiagnostics, unflagged_cons.mpr ⟨htop, cleanAbove⟩⟩

/-! ## Inside of a statement -/

/-- The parser is inside of a statement that has begun with the node `start`, above the goals with
the frames `below`: the statement goes on itself, or it is behind its body. -/
inductive Underway (start : Nat) (below : List (Goal × Nat)) (s : ParseState) : Prop
  | waits (above : List (Goal × Nat)) (goal : Goal)
      (frames : s.frames = above ++ (goal, start) :: below) (part : goal.part = .statement)
      (opened : goal.isOpen = true)
  | enters (above : List (Goal × Nat)) (kind : BodyKind) (begun : Nat) (frames : s.frames =
      above ++ (.body kind, begun) :: (.declarationEnd kind.declaration, start) :: below)

/-- The last node covers all nodes from `start` on. -/
def ParseState.Roots (start : Nat) (root : Node) (s : ParseState) : Prop :=
  s.nodes.back? = some root ∧ root.size = s.nodes.size - 1 - start + 1

/-- The statement has become a node. If the node is unmarked, the last token that has been read
since `s` is one that ends statements. -/
def Becomes (start : Nat) (below : List (Goal × Nat)) (s final : ParseState) : Prop :=
  final.frames = below ∧ ∃ root, final.Roots start root ∧ (root.failed = false → s.Through final)

/-- The body of the statement has been read. -/
def BehindBody (start : Nat) (below : List (Goal × Nat)) (s u : ParseState) : Prop :=
  ∃ (kind : BodyKind) (entry : Pending) (others : List Pending), u.pending = entry :: others ∧
    entry.goal = .declarationEnd kind.declaration ∧ entry.start = start ∧
    others.map Pending.frame = below ∧ (entry.failed = false → s.Through u)

theorem Underway.length_lt {start : Nat} {below : List (Goal × Nat)} (h : Underway start below s) :
    below.length < s.pending.length := by
  rw [← List.length_map Pending.frame, ← frames]
  cases h with
  | waits _ _ frames => rw [frames]; simp; omega
  | enters _ _ _ frames => rw [frames]; simp; omega

theorem BehindBody.length_eq {start : Nat} {below : List (Goal × Nat)} {u : ParseState}
    (h : BehindBody start below s u) : u.pending.length = below.length + 1 := by
  obtain ⟨kind, entry, others, hpending, -, -, rfl, -⟩ := h
  rw [hpending, List.length_cons, List.length_map]

theorem ParseState.roots_of_push {start : Nat} {root : Node} (made : Array Node)
    (nodes : s.nodes = made.push root) (size : root.size = made.size - start + 1) :
    s.Roots start root := by
  rw [Roots, nodes, Array.back?_push, Array.size_push, Nat.add_sub_cancel]
  exact ⟨rfl, size⟩

section

variable {start : Nat} {below : List (Goal × Nat)}

theorem Underway.step (h : Underway start below s) (sound : Sound s) :
    Underway start below s.step ∨ BehindBody start below s s.step ∨
      Becomes start below s s.step := by
  cases h with
  | waits above goal hframes part opened =>
    rcases above with _ | ⟨top, above⟩
    · obtain ⟨entry, others, hpending, hentry, hothers⟩ := List.map_eq_cons_iff.mp hframes
      obtain ⟨rfl, rfl⟩ := Prod.mk.inj hentry
      have hstep := step_of_pending hpending
      have hbelow : ({ s with pending := others } : ParseState).frames = below := hothers
      cases ending_pursue (s := { s with pending := others }) part opened with
      | waits frames part opened =>
        rw [← hstep, hbelow] at frames
        exact .inl (.waits _ _ frames part opened)
      | enters frames =>
        rw [← hstep, hbelow] at frames
        exact .inl (.enters [] _ _ frames)
      | ends nodes frames through =>
        rw [← hstep] at nodes frames through
        exact .inr (.inr ⟨frames.trans hbelow, _, roots_of_push _ nodes rfl, through⟩)
    · obtain ⟨new, hnew⟩ := sound.exists_frames hframes
      refine .inl (.waits (new ++ above) goal ?_ part opened)
      rw [hnew, List.append_assoc]
      rfl
  | enters above kind begun hframes =>
    rcases above with _ | ⟨top, above⟩
    · obtain ⟨body, rest, hpending, hbody, hrest⟩ := List.map_eq_cons_iff.mp hframes
      obtain ⟨entry, others, rfl, hentry, hothers⟩ := List.map_eq_cons_iff.mp hrest
      obtain ⟨hgoal, rfl⟩ := Prod.mk.inj hbody
      obtain ⟨hdeclaration, hstart⟩ := Prod.mk.inj hentry
      have hstep : s.step = ParseState.body kind body { s with pending := entry :: others } := by
        rw [step_of_pending hpending, pursue, hgoal]
      rw [hstep]
      rcases body_cases kind { s with pending := entry :: others } body with
        ⟨above, hframes⟩ | ⟨hkept, through⟩ | hmarked
      · refine .inl (.enters above kind body.start (hframes.trans ?_))
        rw [← hentry, ← hothers]
        rfl
      · exact .inr (.inl ⟨kind, entry, others, hkept, hdeclaration, hstart, hothers,
          fun _ => through⟩)
      · exact .inr (.inl ⟨kind, entry.broken, others, hmarked, hdeclaration, hstart, hothers,
          fun unmarked => by cases unmarked⟩)
    · obtain ⟨new, hnew⟩ := sound.exists_frames hframes
      refine .inl (.enters (new ++ above) kind begun ?_)
      rw [hnew, List.append_assoc]
      rfl

end

/-! ## To the end of a statement -/

/-- The steps from a state to the one at which a statement has become a node, when nothing is wrong
with it: nothing is reported, no construct above those below is marked, and there are tokens of the
statement in front of the parser until it only has to close the statement. -/
inductive Passage (below : List Pending) (final : ParseState) : ParseState → Prop
  | ended (pending : final.pending = below) : Passage below final final
  | step {s : ParseState} (above : List Pending) (running : s.pending ≠ below)
      (ahead : s.cursor.rest ≠ final.cursor.rest ∨
        ∃ top others kind, s.pending = top :: others ∧ top.goal = .declarationEnd kind)
      (unreported : s.step.diagnostics = s.diagnostics)
      (pending : s.step.pending = above ++ below) (unflagged : Unflagged above)
      (later : Passage below final s.step) : Passage below final s

theorem ParseState.Through.ne_rest (h : s.Through final) : s.cursor.rest ≠ final.cursor.rest := by
  obtain ⟨last, -, hsuffix⟩ := h
  intro heq
  have hle := hsuffix.length_le
  rw [heq, List.length_cons] at hle
  omega

/-- The steps lead to a state at which the statement that began with the node `start` is one node.
If the node is unmarked, nothing is wrong with the statement, and the last token that has been read
of it since `since` is one that ends statements. -/
structure Completes (start : Nat) (below above : List Pending) (since s final : ParseState) :
    Prop where
  leads : s.Leads final
  frames : final.frames = below.map Pending.frame
  root : ∃ root, final.Roots start root ∧
    (root.failed = false → since.Through final ∧ Unflagged above ∧ Passage below final s)

section

variable {start : Nat} {above below : List Pending} {top : Pending} {since : ParseState}

/-- The step behind the body makes the node of the statement. -/
theorem BehindBody.completes {u : ParseState} (h : BehindBody start (below.map Pending.frame) s u)
    (hu : u.pending = top :: below) : Completes start below [top] s u u.step := by
  obtain ⟨kind, entry, others, hpending, hgoal, hstart, -, through⟩ := h
  obtain ⟨rfl, rfl⟩ := List.cons.inj (hu.symm.trans hpending)
  have hstep : u.step = ({ u with pending := below } : ParseState).close top
      (some (.declaration kind.declaration)) := by
    rw [step_of_pending hu, pursue_declarationEnd hgoal]
  have roots : u.step.Roots start ⟨if top.start = u.nodes.size then none else
      some top.origin.token, u.nodes.size - start + 1, top.failed,
      some (.declaration kind.declaration)⟩ := by
    refine roots_of_push u.nodes ?_ rfl
    rw [hstep, close_eq, nodes_letGo, nodes_addParent, hstart]
  refine ⟨.step u, ?_, _, roots, fun unmarked => ?_⟩
  · rw [hstep, frames_close]
    rfl
  · have unmarked : top.failed = false := unmarked
    have hclosed : u.step.pending = below := by
      rw [hstep, close_eq, letGo_of_unmarked unmarked]
      rfl
    have hrest : u.step.cursor.rest = u.cursor.rest := by rw [hstep, cursor_close]
    have hunflagged : top.flagged = false := by
      rw [Pending.flagged, hgoal, unmarked]
      rfl
    refine ⟨?_, unflagged_cons.mpr ⟨hunflagged, unflagged_nil⟩, ?_⟩
    · obtain ⟨last, hlast, hsuffix⟩ := through unmarked
      exact ⟨last, hlast, by rwa [hrest]⟩
    · refine .step [] ?_ (.inr ⟨_, _, _, hu, hgoal⟩) ?_ hclosed unflagged_nil (.ended hclosed)
      · rw [hu]
        exact List.cons_ne_self _ _
      · rw [hstep, diagnostics_close]

/-- What holds from the next state on holds from this one on. -/
theorem Completes.of_step {above' : List Pending}
    (h : Completes start below above' since s.step final)
    (hs : s.pending = top :: (above ++ below)) (hstep : s.step.pending = above' ++ below)
    (clean : Unflagged above' → s.step.diagnostics = s.diagnostics ∧ Unflagged (top :: above))
    (through : since.Through final → s.Through final) :
    Completes start below (top :: above) s s final := by
  obtain ⟨root, hroots, hroot⟩ := h.root
  refine ⟨.of_step h.leads, h.frames, root, hroots, fun unmarked => ?_⟩
  obtain ⟨hthrough, unflagged, passage⟩ := hroot unmarked
  obtain ⟨unreported, before⟩ := clean unflagged
  have running : s.pending ≠ below := by
    rw [hs]
    exact fun heq => List.cons_ne_nil _ _ (List.append_left_eq_self.mp heq)
  exact ⟨through hthrough, before, .step above' running (.inl (through hthrough).ne_rest)
    unreported hstep unflagged passage⟩

/-- A statement that is underway is read to its end. -/
theorem Underway.completes (h : Underway start (below.map Pending.frame) s) (sound : Sound s)
    (hs : s.pending = above ++ below) (grounded : AwaitStatement below) :
    ∃ final, Completes start below above s s final := by
  induction hprice : s.price.toNat using Nat.strongRecOn generalizing s above with
  | _ price ih =>
    have running : s.pending ≠ [] := by
      obtain ⟨bottom, others, rfl, -⟩ := grounded
      rw [hs]
      simp
    have hlt := sound.price_step_lt running
    have hnonneg := sound.step.price_nonneg
    rcases above with _ | ⟨top, above⟩
    · -- there is at least the goal of the statement above those below
      have hlength := h.length_lt
      rw [hs, List.length_map] at hlength
      exact absurd hlength (Nat.lt_irrefl _)
    · have behind (length : (below.map Pending.frame).length < s.step.pending.length) :
          ∃ above', s.step.pending = above' ++ below ∧ (Unflagged above' →
            s.step.diagnostics = s.diagnostics ∧ Unflagged (top :: above)) := by
        rcases sound.step_above hs grounded with ⟨above', -, hstep, clean⟩ | ⟨-, hlength, -⟩
        · exact ⟨above', hstep, clean⟩
        · rw [List.length_map] at length
          omega
      rcases h.step sound with hunder | hbehind | hbecomes
      · obtain ⟨above', hstep, clean⟩ := behind hunder.length_lt
        obtain ⟨final, hfinal⟩ := ih _ (by omega) hunder sound.step hstep rfl
        exact ⟨final, hfinal.of_step hs hstep clean
          fun through => through.mono sound.rest_step_suffix⟩
      · have hlength := hbehind.length_eq
        obtain ⟨above', hstep, clean⟩ := behind (by omega)
        rw [hstep, List.length_append, List.length_map] at hlength
        obtain ⟨entry, rfl⟩ := List.length_eq_one_iff.mp (show above'.length = 1 by omega)
        exact ⟨_, (hbehind.completes hstep).of_step hs hstep clean id⟩
      · obtain ⟨hframes, root, hroots, through⟩ := hbecomes
        have hlength : s.step.pending.length = below.length := by
          rw [← List.length_map Pending.frame, ← frames, hframes, List.length_map]
        rcases sound.step_above hs grounded with
          ⟨above', hne, hstep, -⟩ | ⟨rfl, -, node, hback, hnode⟩
        · rw [hstep, List.length_append] at hlength
          exact absurd (List.length_eq_zero_iff.mp (show above'.length = 0 by omega)) hne
        · obtain rfl := Option.some.inj (hback.symm.trans hroots.1)
          refine ⟨_, .step s, hframes, node, hroots, fun unmarked => ?_⟩
          obtain ⟨hpending, unreported, unflagged⟩ := hnode unmarked
          refine ⟨through unmarked, unflagged_cons.mpr ⟨unflagged, unflagged_nil⟩, ?_⟩
          refine .step [] ?_ (.inl (through unmarked).ne_rest) unreported hpending unflagged_nil
            (.ended hpending)
          rw [hs]
          exact List.cons_ne_self _ _

end

/-! ## Statements side by side -/

/-- Parses that share the tokens of a statement with which nothing is wrong read them in the same
way. -/
theorem Passage.alike {x : Likeness} {below : List Pending} (h : Passage below final s)
    (sound : Sound s) (inexact : ¬x.exact) (grounded : x.Grounded)
    (hbelow : x.first.below = below) (hbehind : x.first.behind = final.cursor.rest)
    (alike : Alike x s t) : ∃ final', t.Leads final' ∧ Alike x final final' := by
  induction h generalizing t with
  | ended => exact ⟨t, .refl t, alike⟩
  | @step s above running ahead unreported pending unflagged later ih =>
    have answers := alike.step sound grounded (.inr (hbelow ▸ running)) (.inr (hbehind ▸ ahead))
    refine answers.elim (fun next => ?_) fun strays => ?_
    · obtain ⟨final', leads, hfinal⟩ := ih sound.step next
      exact ⟨final', .of_step leads, hfinal⟩
    · -- the first parse has reported nothing since the statement began, and marked nothing
      rcases strays.spoiled with reported | ⟨top, others, hpending, hfailed, hlength⟩
      · obtain ⟨found, hs, -, hnone⟩ := alike.reports
        rw [hnone inexact, Array.append_empty] at hs
        exact absurd (unreported.trans hs) reported
      · rw [pending] at hpending hlength
        rcases above with _ | ⟨next, above⟩
        · rw [hbelow] at hlength
          exact absurd hlength (Nat.lt_irrefl _)
        · obtain ⟨rfl, -⟩ := List.cons.inj hpending
          have hnext := (unflagged_cons.mp unflagged).1
          rw [Pending.flagged, hfailed] at hnext
          cases hnext

end ProtoFront
