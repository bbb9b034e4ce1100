import ProtoFront.Proofs.Parse.Marks

/-!
# Every report leaves a mark

When something has been reported, there is a broken node already, or there is a construct on the
stack that has failed and will be one (`Tracked`). A goal that stands for the whole input becomes no
node, so it makes a broken leaf at once for what it reports.
-/

namespace ProtoFront

open ParseState

variable {entry now : Pending} {s t final : ParseState} {before start : Nat}
variable {tree : ParseTree} {pending : List Pending}

/-- A construct that has failed, and becomes a node or a part of one. -/
def Pending.Fails (entry : Pending) : Prop :=
  entry.flagged = true ∧ entry.goal.part ≠ .document

/-- Something is broken, or will be when the goals have been pursued. -/
def Tracked (tree : ParseTree) (pending : List Pending) : Prop :=
  tree.FailsFrom 0 ∨ ∃ entry ∈ pending, entry.Fails

theorem Pending.fails_of_failed (failed : entry.failed = true)
    (inner : entry.goal.part ≠ .document) : entry.Fails :=
  ⟨by rw [flagged, failed, Bool.true_or], inner⟩

/-- What stands for the whole input waits for statements. -/
theorem Goal.awaits_of_document {goal : Goal} (h : goal.part = .document) :
    goal.awaits? = some .statement := by
  rcases goal.cases_of_document h with rfl | ⟨kind, rfl⟩ <;> rfl

/-! ## Moves -/

/-- A token that is skipped is a broken leaf. -/
theorem failsFrom_discard_zero (there : s.kind ≠ .eof) : s.discard.made.FailsFrom 0 := by
  rcases hrest : s.cursor.rest with _ | ⟨next, rest⟩
  · exact absurd (by rw [kind, Cursor.kind, hrest]) there
  · rw [ParseState.discard, made_addLeaf _ _ hrest]
    exact ParseTree.failsFrom_push_self rfl (Nat.zero_le _)

theorem failsFrom_discard (h : s.made.FailsFrom start) : s.discard.made.FailsFrom start := by
  rcases hrest : s.cursor.rest with _ | ⟨next, rest⟩
  · rwa [ParseState.discard, s.addLeaf_of_rest_eq_nil _ _ hrest]
  · rw [ParseState.discard, made_addLeaf _ _ hrest]
    exact h.push _

namespace Moves

/-- What is broken stays broken. -/
theorem failsFrom (h : Moves entry s now t) (hs : s.made.FailsFrom start) :
    t.made.FailsFrom start := by
  induction h with
  | start => exact hs
  | leaf tag? _ _ _ ih => exact (failsFrom_addLeaf tag? start).mpr (ih hs)
  | discard _ _ _ ih => exact failsFrom_discard (ih hs)
  | report expected _ ih => exact ih hs
  | breaks _ _ ih => exact ih hs
  | resync start _ _ ih => exact ih hs
  | range _ _ _ _ _ ih ih' => exact (ih' (ih hs)).push _

/-- As long as a construct has not failed, it has reported nothing. -/
theorem diagnostics_eq (h : Moves entry s now t) (unmarked : now.failed = false) :
    t.diagnostics = s.diagnostics := by
  induction h with
  | start => rfl
  | leaf tag? _ _ _ ih => rw [diagnostics_addLeaf, ih unmarked]
  | discard _ _ failed => exact absurd unmarked (by rw [failed]; simp)
  | report => cases unmarked
  | breaks => cases unmarked
  | resync start _ failed => exact absurd unmarked (by rw [failed]; simp)
  | range _ _ _ _ _ ih ih' => rw [diagnostics_addParent, ih' unmarked, ih unmarked]

theorem tracked (h : Moves entry s now t) (inner : entry.goal.part ≠ .document)
    (hs : s.diagnostics ≠ #[] → Tracked s.made (entry :: s.pending))
    (reported : t.diagnostics ≠ #[]) : Tracked t.made (now :: t.pending) := by
  rcases hnow : now.failed with _ | _
  · rw [h.diagnostics_eq hnow] at reported
    have hentry : now = entry := h.entry_eq.resolve_right (by rintro rfl; cases hnow)
    rw [h.pending_eq, hentry]
    exact (hs reported).imp_left h.failsFrom
  · exact .inr ⟨now, List.mem_cons_self, Pending.fails_of_failed hnow (by rwa [h.goal_eq])⟩

end Moves

/-! ## Ends -/

namespace Tracked

theorem push (h : Tracked tree pending) (node : Node) : Tracked (tree.push node) pending :=
  h.imp_left fun hfails => hfails.push node

theorem addLeaf (h : Tracked s.made pending) (tag? : Option NodeKind) :
    Tracked (s.addLeaf tag? false).made pending :=
  h.imp_left (failsFrom_addLeaf tag? 0).mpr

/-- What has not failed need not be looked at. -/
theorem of_unflagged (h : Tracked tree (now :: pending)) (unflagged : now.flagged = false) :
    Tracked tree pending := by
  refine h.imp_right fun ⟨entry, hentry, hfails⟩ => ?_
  rcases List.mem_cons.mp hentry with rfl | hbelow
  · exact absurd hfails.1 (by rw [unflagged]; simp)
  · exact ⟨entry, hbelow, hfails⟩

theorem cons (h : Tracked tree pending) (entry : Pending) : Tracked tree (entry :: pending) :=
  h.imp_right fun ⟨other, hother, hfails⟩ => ⟨other, List.mem_cons_of_mem _ hother, hfails⟩

theorem resume (h : Tracked tree (now :: pending)) (fails : now.Fails → entry.Fails) :
    Tracked tree (entry :: pending) := by
  refine h.imp_right fun ⟨other, hother, hfails⟩ => ?_
  rcases List.mem_cons.mp hother with rfl | hbelow
  · exact ⟨entry, List.mem_cons_self, fails hfails⟩
  · exact ⟨other, List.mem_cons_of_mem _ hbelow, hfails⟩

/-- A part that has failed lets the construct around it fail, which is not the whole input unless
the part is a statement. -/
theorem letGo (h : Tracked tree (now :: s.pending)) (awaited : Awaited now.goal.part s.pending)
    (inner : now.goal.part ≠ .document) (within : now.goal.part ≠ .statement)
    (carried : now.goal.carried = false) : Tracked tree (s.letGo now).pending := by
  rw [ParseState.letGo]
  split
  case isFalse hfailed =>
    refine h.of_unflagged ?_
    rw [Pending.flagged, carried, Bool.eq_false_iff.mpr hfailed]
    rfl
  case isTrue hfailed =>
    rw [ParseState.markEnclosing]
    split
    case h_1 hpending => exact absurd hpending (awaited.ne_nil inner)
    case h_2 next below hpending =>
      rw [hpending] at awaited
      refine .inr ⟨_, List.mem_cons_self, Pending.fails_of_failed rfl fun hdocument => ?_⟩
      have hawaits := Goal.awaits_of_document hdocument
      rw [awaited.1] at hawaits
      exact within (Option.some.inj hawaits)

/-- A construct that has failed becomes a broken node. -/
theorem close (h : Tracked s.made (now :: s.pending))
    (settled : now.goal.carried = true → now.failed = true) (tag? : Option NodeKind) :
    Tracked (s.close now tag?).made (s.close now tag?).pending := by
  rw [close_eq, made, nodes_letGo, ← made, made_addParent]
  rcases hfailed : now.failed with _ | _
  · have unflagged : now.flagged = false := by
      rw [Pending.flagged, hfailed, Bool.false_or]
      exact Bool.eq_false_iff.mpr fun hcarried => by rw [settled hcarried] at hfailed; cases hfailed
    rw [letGo_of_unmarked hfailed]
    exact (h.of_unflagged unflagged).push _
  · exact .inl (ParseTree.failsFrom_push_self rfl (Nat.zero_le _))

end Tracked

theorem Ends.tracked (h : Ends before now t final) (inner : now.goal.part ≠ .document)
    (ht : Tracked t.made (now :: t.pending)) (awaited : Awaited now.goal.part t.pending) :
    Tracked final.made final.pending := by
  have uncarried {goal : Goal} (hgoal : now.goal = goal) (hcarried : goal.carried = false) :
      now.goal.carried = true → now.failed = true := by
    rw [hgoal, hcarried]
    rintro ⟨⟩
  cases h with
  | finish part => exact absurd part inner
  | goOn goal opened stays part ready unmarked carried =>
    refine ht.resume fun hfails => ?_
    rwa [Pending.Fails, Pending.flagged, ← carried, part]
  | delegate goal next failed opened part awaits begins kept =>
    refine Tracked.cons (ht.resume fun hfails => ?_) _
    rwa [Pending.Fails, Pending.flagged, kept, part]
  | enter kind opened part unmarked carried =>
    have unflagged : now.flagged = false := by rw [Pending.flagged, unmarked, carried]; rfl
    exact ((ht.of_unflagged unflagged).cons _).cons _
  | replace next opened part begins unmarked carried =>
    have unflagged : now.flagged = false := by rw [Pending.flagged, unmarked, carried]; rfl
    exact (ht.of_unflagged unflagged).cons _
  | parenthesize goal unmarked =>
    have unflagged : now.flagged = false := by rw [Pending.flagged, unmarked, goal]; rfl
    exact ((ht.of_unflagged unflagged).cons _).cons _
  | pass opened _ bare carried within =>
    rw [made, nodes_letGo]
    exact ht.letGo awaited inner within carried
  | close tag? _ bare closes settled => exact ht.close settled tag?
  | separate goal =>
    rw [take, pending_addLeaf]
    exact (ht.close (uncarried goal rfl) (some .textField)).addLeaf none
  | terminate goal => exact (ht.close (uncarried goal rfl) (some .textField)).push _
  | closeScope kind goal =>
    exact Tracked.close (s := t.addSynthetic .scopeClose true) (ht.push _) (uncarried goal rfl) _
  | closeBody kind goal =>
    rw [made, nodes_letGo]
    rw [← t.pending_addLeaf kind.closeTag? false] at ht awaited
    exact (ht.addLeaf kind.closeTag?).letGo awaited inner (by rw [goal]; simp [Goal.part])
      (by rw [goal]; rfl)
  | cutBody kind goal =>
    rw [made, nodes_letGo]
    have within : now.goal.part ≠ .statement := by rw [goal]; simp [Goal.part]
    have carried : now.goal.carried = false := by rw [goal]; rfl
    split
    · exact Tracked.letGo (s := t.addSynthetic _ true) (ht.push _) awaited inner within carried
    · exact ht.letGo awaited inner within carried
  | junk _ goal => exact absurd (by rw [goal]; rfl) inner

/-! ## Goals for the whole input -/

/-- What is skipped in a body is broken from its first token on. -/
theorem failsFrom_bodyJunk {body : BodyKind} {again : Goal} (opened : entry.goal.isOpen = true)
    (there : s.kind ≠ .eof) : (s.bodyJunk body again entry).made.FailsFrom 0 := by
  have skips {u t : ParseState} (hu : u.made.FailsFrom 0)
      (moves : Moves entry.broken u entry.broken t) :
      ((t.recoverStatement s.cursor.origin).resume entry.broken again).made.FailsFrom 0 :=
    (moves.recoverStatement s.cursor.origin opened rfl).failsFrom hu
  have kept : (if s.reportedHere then s else s.report body.expected).kind = s.kind := by
    split <;> rfl
  rw [bodyJunk]
  generalize (if s.reportedHere then s else s.report body.expected) = reported at kept ⊢
  have first := failsFrom_discard_zero (s := reported) (by rwa [kept])
  split
  case isTrue hopener =>
    obtain ⟨n, hn⟩ := exists_skipGroup hopener
    rw [hn]
    exact skips first (Moves.start.discardMany n opened rfl)
  case isFalse => exact skips first .start

theorem failsFrom_bodyStatement {body : BodyKind} {again : Goal}
    (opened : entry.goal.isOpen = true) (there : s.kind ≠ .eof)
    (hs : s.diagnostics ≠ #[] → s.made.FailsFrom 0)
    (reported : (s.bodyStatement body again entry).diagnostics ≠ #[]) :
    (s.bodyStatement body again entry).made.FailsFrom 0 := by
  rw [bodyStatement] at reported ⊢
  split at reported
  case isTrue hsemicolon =>
    rw [if_pos hsemicolon]
    have hread : s.take.diagnostics ≠ #[] := reported
    rw [take, diagnostics_addLeaf] at hread
    exact (failsFrom_addLeaf none 0).mpr (hs hread)
  case isFalse hsemicolon =>
    rw [if_neg hsemicolon]
    split at reported
    case h_1 => exact hs reported
    case h_2 => exact failsFrom_bodyJunk opened there

theorem failsFrom_file (hs : s.diagnostics ≠ #[] → s.made.FailsFrom 0)
    (reported : (s.file entry).diagnostics ≠ #[]) : (s.file entry).made.FailsFrom 0 := by
  rw [file] at reported ⊢
  split
  case h_1 hnext =>
    rw [hnext] at reported
    exact hs reported
  case h_2 hnext =>
    rw [hnext] at reported
    split
    case h_1 hkind =>
      rw [hkind] at reported
      exact hs reported
    case h_2 hkind =>
      rw [hkind] at reported
      have hread : s.take.diagnostics ≠ #[] := reported
      rw [take, diagnostics_addLeaf] at hread
      exact (failsFrom_addLeaf none 0).mpr (hs hread)
    case h_3 hthere _ =>
      have kept : (if s.reportedHere then s else s.report [.topLevelStatement]).kind = s.kind := by
        split <;> rfl
      exact failsFrom_discard_zero (by rwa [kept])

/-- A goal for the whole input makes a broken leaf whenever it reports something. -/
theorem failsFrom_document (document : entry.goal.part = .document)
    (hs : s.diagnostics ≠ #[] → s.made.FailsFrom 0)
    (reported : (pursue entry s).diagnostics ≠ #[]) : (pursue entry s).made.FailsFrom 0 := by
  rw [pursue] at reported ⊢
  cases goal : entry.goal with
  | file =>
    rw [goal] at reported
    exact failsFrom_file hs reported
  | fragmentBody kind =>
    rw [goal] at reported
    dsimp only at reported ⊢
    rw [fragmentBody] at reported ⊢
    split
    case isTrue hkind =>
      rw [if_pos hkind] at reported
      exact hs reported
    case isFalse hthere =>
      rw [if_neg hthere] at reported
      exact failsFrom_bodyStatement (by rw [goal]; rfl) hthere hs reported
  | listAfterItem list failed =>
    rw [goal] at document
    cases list <;> cases document
  | _ =>
    rw [goal] at document
    cases document

/-! ## Runs -/

theorem Sound.tracked_step (h : Sound s) (hs : s.diagnostics ≠ #[] → Tracked s.made s.pending)
    (reported : s.step.diagnostics ≠ #[]) : Tracked s.step.made s.step.pending := by
  cases h with
  | finished pending =>
    have hstep : s.step = s := by rw [ParseState.step, pending]
    rw [hstep] at reported ⊢
    exact hs reported
  | @going t top settled pursued =>
    have htop : t.diagnostics ≠ #[] → Tracked t.made (top :: t.pending) := hs
    by_cases document : top.goal.part = .document
    · refine .inl (failsFrom_document document (fun hreported => ?_) reported)
      refine (htop hreported).resolve_right ?_
      rintro ⟨entry, hentry, hfails⟩
      -- nothing lies below the goal for the whole input, and it does not count
      have awaited := settled.awaited
      rw [document] at awaited
      rw [awaited.eq_nil, List.mem_singleton] at hentry
      exact hfails.2 (by rw [hentry, document])
    · obtain ⟨now, u, moves, ends⟩ := handled_pursue pursued
      have hreported : u.diagnostics ≠ #[] := by rwa [← ends.diagnostics_eq]
      refine ends.tracked (by rwa [moves.goal_eq]) (moves.tracked document htop hreported) ?_
      rw [moves.goal_eq]
      exact (settled.moves moves).awaited

theorem Sound.tracked_run (h : Sound s) (hs : s.diagnostics ≠ #[] → Tracked s.made s.pending)
    (fuel : Nat) (reported : (s.run fuel).diagnostics ≠ #[]) :
    Tracked (s.run fuel).made (s.run fuel).pending :=
  h.run_keeps (fun u => u.diagnostics ≠ #[] → Tracked u.made u.pending) hs
    (fun _ sound tracked => sound.tracked_step tracked) fuel reported

/-- Reports and marks agree: nothing is reported about a buffer if and only if no node of its tree
is marked as broken. So no error is reported without a mark in the tree, and no node is marked
without a report. -/
theorem diagnostics_eq_nil_iff_unmarked (buffer : TokenBuffer) (fragment : Fragment)
    (syncLimit : Nat) (nonempty : buffer.tokens ≠ #[]) :
    ∃ parsed, buffer.parse fragment syncLimit = .ok parsed ∧
      (parsed.diagnostics = [] ↔ ∀ node ∈ parsed.tree.nodes, node.failed = false) := by
  have sound := buffer.sound_initial fragment syncLimit
  have ended := sound.pending_run _ (price_initial_le buffer.cursor fragment syncLimit)
  obtain ⟨-, marked⟩ := buffer.marked_parseTokens fragment syncLimit
  refine ⟨buffer.parseTokens fragment syncLimit, ?_, ?_, ?_⟩
  · rw [TokenBuffer.parse, if_neg (by simpa using nonempty)]
  · intro hnone node hnode
    refine Bool.eq_false_iff.mpr fun hfailed => marked ?_ hnone
    exact ParseTree.failsFrom_zero_iff.mpr ⟨node, hnode, hfailed⟩
  · intro hclean
    by_contra hreported
    have hreported' (hnone : _ = #[]) : False := hreported (Array.toList_eq_nil_iff.mpr hnone)
    have tracked := sound.tracked_run (fun hstart => absurd rfl hstart)
      (stepBound buffer.cursor.rest.length) hreported'
    rw [ended] at tracked
    rcases tracked with hfails | ⟨entry, hentry, -⟩
    · obtain ⟨node, hnode, hfailed⟩ := ParseTree.failsFrom_zero_iff.mp hfails
      exact absurd (hclean node hnode) (by rw [hfailed]; simp)
    · exact absurd hentry List.not_mem_nil

/-- A brace is missing, so a node is marked: the message is. -/
theorem diagnostics_unmarked_cutMessage : TokenBuffer.cutMessage.tokens ≠ #[] ∧
    ∃ parsed, TokenBuffer.cutMessage.parse .file 0 = .ok parsed ∧
      (parsed.diagnostics = [] ↔ ∀ node ∈ parsed.tree.nodes, node.failed = false) ∧
      parsed.diagnostics = [⟨[.token (.closer .brace)], .eof, 3⟩] ∧
      ⟨some 0, 5, true, some (.declaration (.scope .message))⟩ ∈ parsed.tree.nodes := by
  obtain ⟨parsed, hparse, agree⟩ :=
    diagnostics_eq_nil_iff_unmarked TokenBuffer.cutMessage .file 0 (by decide)
  obtain rfl := Except.ok.inj (TokenBuffer.parse_cutMessage.symm.trans hparse)
  exact ⟨by decide, _, hparse, agree, rfl, by decide +kernel⟩

end ProtoFront
