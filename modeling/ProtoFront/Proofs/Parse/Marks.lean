import ProtoFront.Proofs.Parse.Tiling
import ProtoFront.Proofs.Tree.Marks

/-!
# Errors travel outwards

A construct that has a broken node below it knows of it before it is closed: either it carries a
mark itself, or a construct above it on the stack does, and that one hands the mark down when it
ends (`Noticed`). So a node that is made over a broken one is broken as well. And nothing is broken
unless something has been reported.
-/

namespace ProtoFront

open ParseState

variable {entry now : Pending} {s t final : ParseState} {before start : Nat}
variable {tree : ParseTree} {pending : List Pending}

/-- The nodes made so far. -/
def ParseState.made (s : ParseState) : ParseTree := ⟨s.nodes⟩

namespace ParseState

theorem made_addLeaf (tag? : Option NodeKind) (failed : Bool) {next : Lexeme} {rest : List Lexeme}
    (h : s.cursor.rest = next :: rest) :
    (s.addLeaf tag? failed).made = s.made.push ⟨some next.index, 1, failed, tag?⟩ := by
  rw [made, s.nodes_addLeaf _ _ h, made, ParseTree.push]

theorem made_addSynthetic (tag : NodeKind) (failed : Bool) :
    (s.addSynthetic tag failed).made = s.made.push ⟨none, 1, failed, some tag⟩ := rfl

theorem made_addParent (token? : Option Nat) (start : Nat) (tag? : Option NodeKind)
    (failed : Bool) : (s.addParent token? start tag? failed).made =
      s.made.push ⟨token?, s.nodes.size - start + 1, failed, tag?⟩ := rfl

end ParseState

/-- Whether a construct knows of any errors in it. What stands for the whole input is never closed,
so it need not. -/
def Pending.Knows (entry : Pending) : Prop := entry.flagged = true ∨ entry.goal.part = .document

/-- Down the stack there is no broken node, until there is a construct that knows. -/
def Noticed (tree : ParseTree) : List Pending → Prop
  | [] => True
  | entry :: below => entry.Knows ∨ (¬tree.FailsFrom entry.start ∧ Noticed tree below)

/-- The marks in a tree with the goals in `pending`, the first of which may be held. -/
structure Marked (pending : List Pending) (s : ParseState) : Prop where
  noticed : Noticed s.made pending
  outward : s.made.Outward
  reported : s.made.FailsFrom 0 → s.diagnostics ≠ #[]

theorem Noticed.congr {other : ParseTree} (h : Noticed tree pending)
    (same : ∀ start, other.FailsFrom start ↔ tree.FailsFrom start) : Noticed other pending := by
  induction pending with
  | nil => trivial
  | cons entry below ih =>
    rcases h with knows | ⟨clean, hbelow⟩
    · exact .inl knows
    · exact .inr ⟨fun hfails => clean ((same _).mp hfails), ih hbelow⟩

/-! ## Leaves -/

theorem failsFrom_addLeaf (tag? : Option NodeKind) (start : Nat) :
    (s.addLeaf tag? false).made.FailsFrom start ↔ s.made.FailsFrom start := by
  rcases hrest : s.cursor.rest with _ | ⟨next, rest⟩
  · rw [s.addLeaf_of_rest_eq_nil _ _ hrest]
  · rw [made_addLeaf _ _ hrest, ParseTree.failsFrom_push rfl]

theorem outward_addLeaf (h : s.made.Outward) (tag? : Option NodeKind) (failed : Bool) :
    (s.addLeaf tag? failed).made.Outward := by
  rcases hrest : s.cursor.rest with _ | ⟨next, rest⟩
  · rwa [s.addLeaf_of_rest_eq_nil _ _ hrest]
  · rw [made_addLeaf _ _ hrest]
    exact h.leaf rfl

/-! ## Moves -/

namespace Moves

/-- As long as a construct has not failed, nothing in it is broken. -/
theorem failsFrom_iff (h : Moves entry s now t) (unmarked : now.failed = false) (start : Nat) :
    t.made.FailsFrom start ↔ s.made.FailsFrom start := by
  induction h with
  | start => rfl
  | leaf tag? _ _ _ ih => rw [failsFrom_addLeaf, ih unmarked]
  | discard _ _ failed => exact absurd unmarked (by rw [failed]; simp)
  | report => cases unmarked
  | breaks => cases unmarked
  | resync start _ failed => exact absurd unmarked (by rw [failed]; simp)
  | range _ _ _ _ _ ih ih' =>
    rw [made_addParent, ParseTree.failsFrom_push rfl, ih' unmarked, ih unmarked]

theorem outward (h : Moves entry s now t) (hs : s.made.Outward) : t.made.Outward := by
  induction h with
  | start => exact hs
  | leaf tag? _ _ _ ih => exact outward_addLeaf (ih hs) tag? false
  | discard _ _ _ ih => exact outward_addLeaf (ih hs) none true
  | report expected _ ih => exact ih hs
  | breaks _ _ ih => exact ih hs
  | resync start _ _ ih => exact ih hs
  | @range _ _ _ t u _ h' _ unmarked grown ih ih' =>
    -- nothing has been broken since the range began
    refine (ih' (ih hs)).push fun hfails => ?_
    have hspan : u.made.size + 1 - (u.nodes.size - t.nodes.size + 1) = t.made.size := by
      show u.nodes.size + 1 - (u.nodes.size - t.nodes.size + 1) = t.nodes.size
      omega
    rw [hspan, h'.failsFrom_iff unmarked] at hfails
    exact absurd hfails ParseTree.not_failsFrom_size

theorem marked (h : Moves entry s now t) (hs : Marked (entry :: s.pending) s)
    (reported : entry.flagged = true → s.diagnostics ≠ #[]) :
    Marked (now :: t.pending) t := by
  rcases hnow : now.failed with _ | _
  · have same := h.failsFrom_iff hnow
    refine ⟨?_, h.outward hs.outward, fun hfails => ?_⟩
    · have hentry : now = entry := h.entry_eq.resolve_right (by rintro rfl; cases hnow)
      rw [h.pending_eq, hentry]
      exact hs.noticed.congr same
    · exact h.diagnostics_ne (hs.reported ((same 0).mp hfails))
  · have flagged : now.flagged = true := by rw [Pending.flagged, hnow, Bool.true_or]
    exact ⟨.inl (.inl flagged), h.outward hs.outward, fun _ => h.flagged_reported reported flagged⟩

end Moves

/-! ## Ends -/

namespace Marked

/-- A construct that begins has no node yet. -/
theorem pushGoal (h : Marked s.pending s) (goal : Goal) :
    Marked (s.pushGoal goal).pending (s.pushGoal goal) :=
  ⟨.inr ⟨ParseTree.not_failsFrom_size, h.noticed⟩, h.outward, h.reported⟩

/-- A construct goes on, and still knows what it knew. -/
theorem resume (h : Marked (now :: s.pending) s) (goal : Goal) (hstart : entry.start = now.start)
    (knows : now.Knows → Pending.Knows { entry with goal }) :
    Marked (s.resume entry goal).pending (s.resume entry goal) :=
  ⟨h.noticed.imp knows fun hclean => hstart ▸ hclean, h.outward, h.reported⟩

theorem addLeaf (h : Marked pending s) (tag? : Option NodeKind) :
    Marked pending (s.addLeaf tag? false) := by
  have same := failsFrom_addLeaf (s := s) tag?
  refine ⟨h.noticed.congr same, outward_addLeaf h.outward tag? false, fun hfails => ?_⟩
  rw [diagnostics_addLeaf]
  exact h.reported ((same 0).mp hfails)

theorem addSynthetic (h : Marked pending s) (tag : NodeKind) :
    Marked pending (s.addSynthetic tag false) := by
  have same (start : Nat) : (s.addSynthetic tag false).made.FailsFrom start ↔
      s.made.FailsFrom start := by rw [made_addSynthetic, ParseTree.failsFrom_push rfl]
  exact ⟨h.noticed.congr same, h.outward.leaf rfl, fun hfails => h.reported ((same 0).mp hfails)⟩

/-- A construct that has failed may have a broken leaf without a token. -/
theorem addSynthetic_failed (h : Marked (now :: pending) s) (tag : NodeKind) (knows : now.Knows)
    (reported : s.diagnostics ≠ #[]) : Marked (now :: pending) (s.addSynthetic tag true) :=
  ⟨.inl knows, h.outward.leaf rfl, fun _ => reported⟩

/-- What ends without having failed leaves no broken node to the construct around it. -/
theorem clean (h : Marked (now :: pending) s) (inner : now.goal.part ≠ .document)
    (unflagged : now.flagged = false) : ¬s.made.FailsFrom now.start ∧ Noticed s.made pending :=
  h.noticed.resolve_left fun knows => knows.elim (fun h => by rw [unflagged] at h; cases h) inner

/-- A construct that has failed tells the one around it. -/
theorem letGo (h : Marked (now :: s.pending) s) (inner : now.goal.part ≠ .document)
    (settled : now.goal.carried = true → now.failed = true) :
    Marked (s.letGo now).pending (s.letGo now) := by
  refine ⟨?_, ?_, ?_⟩
  · rw [made, nodes_letGo, ParseState.letGo]
    split
    case isTrue =>
      rw [ParseState.markEnclosing]
      split
      case h_1 hpending =>
        rw [hpending]
        trivial
      case h_2 => exact .inl (.inl (by rw [Pending.flagged, Bool.true_or]))
    case isFalse hfailed =>
      have hcarried : now.goal.carried = false := Bool.eq_false_iff.mpr fun h => hfailed (settled h)
      refine (h.clean inner ?_).2
      rw [Pending.flagged, hcarried, Bool.eq_false_iff.mpr hfailed]
      rfl
  · rw [made, nodes_letGo]
    exact h.outward
  · rw [made, nodes_letGo, diagnostics_letGo]
    exact h.reported

/-- A construct that has broken nodes becomes one. -/
theorem close (h : Marked (now :: s.pending) s) (inner : now.goal.part ≠ .document)
    (settled : now.goal.carried = true → now.failed = true) (hstart : now.start ≤ s.nodes.size)
    (reported : now.failed = true → s.diagnostics ≠ #[]) (tag? : Option NodeKind) :
    Marked (s.close now tag?).pending (s.close now tag?) := by
  rw [close_eq]
  refine letGo ?_ inner settled
  rw [pending_addParent]
  rcases hfailed : now.failed with _ | _
  · have unflagged : now.flagged = false := by
      rw [Pending.flagged, hfailed, Bool.false_or]
      exact Bool.eq_false_iff.mpr fun hcarried => by rw [settled hcarried] at hfailed; cases hfailed
    obtain ⟨hclean, hbelow⟩ := h.clean inner unflagged
    have same (token? : Option Nat) (start : Nat) :
        (s.addParent token? now.start tag? false).made.FailsFrom start ↔
          s.made.FailsFrom start := by rw [made_addParent, ParseTree.failsFrom_push rfl]
    refine ⟨.inr ⟨fun hfails => hclean ((same _ _).mp hfails), hbelow.congr (same _)⟩,
      h.outward.push fun hfails => absurd (hfails.mono ?_) hclean,
      fun hfails => h.reported ((same _ 0).mp hfails)⟩
    show now.start ≤ s.nodes.size + 1 - (s.nodes.size - now.start + 1)
    omega
  · have flagged : now.flagged = true := by rw [Pending.flagged, hfailed, Bool.true_or]
    exact ⟨.inl (.inl flagged), h.outward.push fun _ => rfl, fun _ => reported hfailed⟩

end Marked

/-- A goal for the whole input has no goal below it. -/
theorem Awaited.eq_nil (h : Awaited .document pending) : pending = [] := by
  cases pending with
  | nil => rfl
  | cons next below => exact absurd h.1 next.goal.awaits_ne_document

theorem Ends.marked (h : Ends before now t final) (ht : Marked (now :: t.pending) t)
    (awaited : Awaited now.goal.part t.pending) (hstart : now.start ≤ t.nodes.size)
    (reported : now.flagged = true → t.diagnostics ≠ #[]) : Marked final.pending final := by
  have failed (hfailed : now.failed = true) : t.diagnostics ≠ #[] :=
    reported (by rw [Pending.flagged, hfailed, Bool.true_or])
  have uncarried {goal : Goal} (hgoal : now.goal = goal) (hcarried : goal.carried = false) :
      now.goal.carried = true → now.failed = true := by
    rw [hgoal, hcarried]
    rintro ⟨⟩
  cases h with
  | finish part =>
    rw [part] at awaited
    refine ⟨?_, ht.outward, ht.reported⟩
    rw [awaited.eq_nil]
    trivial
  | goOn goal opened stays part ready unmarked carried =>
    refine ht.resume goal rfl fun knows => ?_
    rwa [Pending.Knows, Pending.flagged, ← carried, part]
  | delegate goal next failed opened part awaits begins kept =>
    refine Marked.pushGoal (s := t.resume { now with failed } goal) ?_ next
    refine ht.resume goal rfl fun knows => ?_
    rwa [Pending.Knows, Pending.flagged, kept, part]
  | enter kind opened part unmarked carried =>
    obtain ⟨hclean, hbelow⟩ := ht.clean (by rw [part]; simp)
      (by rw [Pending.flagged, unmarked, carried]; rfl)
    exact ⟨.inr ⟨hclean, .inr ⟨hclean, hbelow⟩⟩, ht.outward, ht.reported⟩
  | replace next opened part begins unmarked carried =>
    obtain ⟨-, hbelow⟩ := ht.clean (part ▸ begins.ne_document)
      (by rw [Pending.flagged, unmarked, carried]; rfl)
    exact Marked.pushGoal ⟨hbelow, ht.outward, ht.reported⟩ next
  | parenthesize goal unmarked =>
    obtain ⟨-, hbelow⟩ := ht.clean (by rw [goal]; simp [Goal.part])
      (by rw [Pending.flagged, unmarked, goal]; rfl)
    exact Marked.pushGoal (Marked.pushGoal ⟨hbelow, ht.outward, ht.reported⟩ _) _
  | pass opened inner bare carried => exact ht.letGo inner (uncarried rfl carried)
  | close tag? inner bare closes settled => exact ht.close inner settled hstart failed tag?
  | separate goal =>
    have inner : now.goal.part ≠ .document := by rw [goal]; simp [Goal.part]
    have hclosed := ht.close inner (uncarried goal rfl) hstart failed (some .textField)
    rw [take, pending_addLeaf]
    exact hclosed.addLeaf none
  | terminate goal =>
    have inner : now.goal.part ≠ .document := by rw [goal]; simp [Goal.part]
    exact (ht.close inner (uncarried goal rfl) hstart failed (some .textField)).addSynthetic _
  | closeScope kind goal marked =>
    have inner : now.goal.part ≠ .document := by rw [goal]; simp [Goal.part]
    have flagged : now.flagged = true := by rw [Pending.flagged, marked, Bool.true_or]
    have hleaf := ht.addSynthetic_failed .scopeClose (.inl flagged) (failed marked)
    refine Marked.close (s := t.addSynthetic .scopeClose true) hleaf inner (uncarried goal rfl) ?_
      failed _
    exact Nat.le_trans hstart (by simp [ParseState.addSynthetic])
  | closeBody kind goal =>
    have inner : now.goal.part ≠ .document := by rw [goal]; simp [Goal.part]
    have hleaf := ht.addLeaf kind.closeTag?
    rw [← t.pending_addLeaf kind.closeTag? false] at hleaf
    exact hleaf.letGo inner (uncarried goal rfl)
  | cutBody kind goal left marked =>
    have inner : now.goal.part ≠ .document := by rw [goal]; simp [Goal.part]
    have flagged : now.flagged = true := by rw [Pending.flagged, marked, Bool.true_or]
    split
    · exact (ht.addSynthetic_failed _ (.inl flagged) (failed marked)).letGo inner
        (uncarried goal rfl)
    · exact ht.letGo inner (uncarried goal rfl)
  | junk hfailed goal left there hreported =>
    refine ⟨.inl (.inr rfl), outward_addLeaf ht.outward none true, fun _ => ?_⟩
    show t.discard.diagnostics ≠ #[]
    rwa [ParseState.discard, diagnostics_addLeaf]

/-! ## Runs -/

theorem Sound.marked_step (h : Sound s) (hs : Marked s.pending s) :
    Marked s.step.pending s.step := by
  by_cases running : s.pending = []
  · rwa [ParseState.step, running]
  · obtain ⟨top, t, settled, start, reported, rfl, now, u, moves, ends⟩ := h.handled running
    have hgrows := moves.grows
    have hleft := moves.left_le
    have ht : Marked (top :: t.pending) t := ⟨hs.noticed, hs.outward, hs.reported⟩
    refine ends.marked (moves.marked ht reported) ?_ (by rw [moves.start_eq]; omega)
      (moves.flagged_reported reported)
    rw [moves.goal_eq]
    exact (settled.moves moves).awaited

theorem Sound.marked_run (h : Sound s) (hs : Marked s.pending s) (fuel : Nat) :
    Marked (s.run fuel).pending (s.run fuel) :=
  h.run_keeps (fun u => Marked u.pending u) hs (fun _ sound marked => sound.marked_step marked) fuel

theorem marked_initial (cursor : Cursor) (fragment : Fragment) (syncLimit : Nat) :
    Marked (initial cursor fragment syncLimit).pending (initial cursor fragment syncLimit) := by
  refine ⟨.inr ⟨ParseTree.not_failsFrom_size, trivial⟩, ?_, ?_⟩
  · rintro outer inner ⟨houter, -⟩
    exact absurd houter (Nat.not_lt_zero _)
  · exact fun hfails => absurd hfails ParseTree.not_failsFrom_size

/-- The marks in the tree of a parse. -/
theorem TokenBuffer.marked_parseTokens (buffer : TokenBuffer) (fragment : Fragment)
    (syncLimit : Nat) : (buffer.parseTokens fragment syncLimit).tree.Outward ∧
      ((buffer.parseTokens fragment syncLimit).tree.FailsFrom 0 →
        (buffer.parseTokens fragment syncLimit).diagnostics ≠ []) := by
  have marked := (buffer.sound_initial fragment syncLimit).marked_run
    (marked_initial buffer.cursor fragment syncLimit) (stepBound buffer.cursor.rest.length)
  refine ⟨marked.outward, fun hfails hnone => marked.reported hfails ?_⟩
  exact Array.toList_eq_nil_iff.mp hnone

/-- Errors travel outwards in the tree of every parse: a node that has a broken node below it, as a
child or as a child of a child and so on, is marked as broken, too. So nothing is broken in the
subtree of a node without a mark. -/
theorem outward_parse (buffer : TokenBuffer) (fragment : Fragment) (syncLimit : Nat)
    (nonempty : buffer.tokens ≠ #[]) :
    ∃ parsed, buffer.parse fragment syncLimit = .ok parsed ∧
      (∀ outer inner,
        Relation.TransGen (fun parent child => child ∈ parsed.tree.children parent) outer inner →
          parsed.tree.isFailed inner = true → parsed.tree.isFailed outer = true) ∧
      ∀ id, id < parsed.tree.size → parsed.tree.isFailed id = false →
        ∀ node ∈ parsed.tree.subtree id, node.failed = false := by
  obtain ⟨outward, -⟩ := buffer.marked_parseTokens fragment syncLimit
  obtain ⟨forest, hsize, hshows⟩ := buffer.exists_forest fragment syncLimit
  refine ⟨buffer.parseTokens fragment syncLimit, ?_, ?_, ?_⟩
  · rw [TokenBuffer.parse, if_neg (by simpa using nonempty)]
  · intro outer inner hpath hfailed
    have hinner := ParseTree.lt_size_of_isFailed hfailed
    exact outward outer inner ((hshows.encloses_iff hsize hinner).mpr hpath) hfailed
  · exact fun id hid hclean node hnode => outward.subtree hid hclean hnode

/-- The end of the scope, which stands for the brace that is missing, is marked, and so is the
message around it. -/
theorem outward_cutMessage : TokenBuffer.cutMessage.tokens ≠ #[] ∧
    ∃ parsed, TokenBuffer.cutMessage.parse .file 0 = .ok parsed ∧
      3 ∈ parsed.tree.children 4 ∧ parsed.tree.isFailed 3 = true ∧
      parsed.tree.isFailed 4 = true ∧ parsed.tree.isFailed 2 = false := by
  obtain ⟨parsed, hparse, houtward, -⟩ := outward_parse TokenBuffer.cutMessage .file 0 (by decide)
  obtain rfl := Except.ok.inj (TokenBuffer.parse_cutMessage.symm.trans hparse)
  have child : 3 ∈ TokenBuffer.cutMessageParse.tree.children 4 := by decide +kernel
  exact ⟨by decide, _, hparse, child, rfl, houtward 4 3 (.single child) rfl, rfl⟩

end ProtoFront
