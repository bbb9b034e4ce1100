import ProtoFront.Proofs.Likeness.Blocks

/-!
# The statements of a body without braces

A body that ends with the input is read statement by statement, as a file is. If nothing is reported
about it, its statements are read in the same way wherever they stand among the statements of a body
of that kind, so also between the braces of a declaration (`TokenBuffer.carries_of_clean_body`).
-/

namespace ProtoFront

open ParseState

variable {s t final : ParseState} {buffer : TokenBuffer} {kind : ScopeKind}

/-- The parser is between two statements of a body without braces. -/
def ParseState.Inside (kind : ScopeKind) (s : ParseState) : Prop :=
  ∃ bottom, s.pending = [bottom] ∧ bottom.goal = .fragmentBody kind

theorem ParseState.Inside.among (h : s.Inside kind) : s.Among (statement? (.scope kind)) := by
  obtain ⟨bottom, hs, hbottom⟩ := h
  exact ⟨bottom, [], hs, by rw [hbottom]; rfl⟩

theorem ParseState.Inside.exists_step (h : s.Inside kind) : ∃ bottom, s.pending = [bottom] ∧
    bottom.goal = .fragmentBody kind ∧
      s.step = ParseState.fragmentBody kind bottom { s with pending := [] } := by
  obtain ⟨bottom, hs, hbottom⟩ := h
  refine ⟨bottom, hs, hbottom, ?_⟩
  rw [step_of_pending hs, pursue, hbottom]

/-- At the end of the input the parse ends. -/
theorem ParseState.Inside.step_of_end (h : s.Inside kind) (hrest : s.cursor.rest = []) :
    s.step = { s with pending := [] } := by
  obtain ⟨bottom, -, -, hstep⟩ := h.exists_step
  have hkind : ({ s with pending := [] } : ParseState).kind = .eof := by
    rw [ParseState.kind, Cursor.kind]
    simp [hrest]
  rw [hstep, fragmentBody, if_pos hkind]

theorem ParseState.fragmentBody_of_junk (s : ParseState) (entry : Pending)
    (hgoal : statement? (.scope kind) s.kind s.following = none) (hkind : s.kind ≠ .semicolon)
    (there : s.kind ≠ .eof) :
    s.fragmentBody kind entry = s.bodyJunk (.scope kind) (.fragmentBody kind) entry := by
  rw [fragmentBody, if_neg there, bodyStatement, if_neg hkind, hgoal]

/-- What begins no statement is reported, here or before, and the body goes on. -/
theorem ParseState.Inside.step_of_junk (h : s.Inside kind)
    (hgoal : statement? (.scope kind) s.kind s.following = none) (hkind : s.kind ≠ .semicolon)
    (there : s.kind ≠ .eof) : s.step.Inside kind ∧ s.step.diagnostics ≠ #[] := by
  obtain ⟨bottom, -, hbottom, hstep⟩ := h.exists_step
  have hjunk := fragmentBody_of_junk { s with pending := [] } bottom hgoal hkind there
  rw [← hstep] at hjunk
  have hpending (u : ParseState) (hu : u.pending = []) :
      (if u.kind.isOpener then u.skipGroup else u.discard).pending = [] := by
    split
    · exact (pending_discardMany _ u).trans hu
    · exact (u.pending_addLeaf none true).trans hu
  refine ⟨⟨{ bottom.broken with goal := .fragmentBody kind }, ?_, rfl⟩, ?_⟩
  · rw [hjunk, bodyJunk]
    show _ :: (recoverStatement _ _).pending = _
    rw [pending_recoverStatement, hpending]
    split <;> rfl
  · rw [hjunk]
    exact diagnostics_bodyJunk

/-- The parser gets behind the next statement. If nothing is wrong with it, it is read in the same
way wherever its tokens stand. -/
theorem ParseState.Inside.advances (h : s.Inside kind) (sound : Sound s) (reads : s.Reads buffer)
    (there : s.cursor.rest ≠ []) :
    ∃ next front block, Makes s front block next ∧ next.Inside kind ∧ next.price < s.price ∧
      (next.diagnostics = #[] → (∀ node ∈ block, node.failed = false) →
        Carries (statement? (.scope kind)) front block) := by
  obtain ⟨lexeme, rest, hrest⟩ := List.exists_cons_of_ne_nil there
  have hlexeme := TokenBuffer.kind_ne_eof (reads.rest.subset (by rw [hrest]; exact .head rest))
  have hkind := kind_of_rest hrest
  obtain ⟨bottom, hs, hbottom⟩ := h
  have running : s.pending ≠ [] := by
    rw [hs]
    exact List.cons_ne_nil _ _
  have hlt := sound.price_step_lt running
  have inside : s.Inside kind := ⟨bottom, hs, hbottom⟩
  rcases hgoal : statement? (.scope kind) s.kind s.following with _ | goal
  · by_cases hsemicolon : s.kind = .semicolon
    · have hstep := inside.among.step_of_semicolon hsemicolon
      refine ⟨s.step, [lexeme], [⟨some lexeme.index, 1, false, none⟩], ⟨.step s, ?_, ?_⟩, ?_, hlt,
        fun _ _ => carries_semicolon (hkind ▸ hsemicolon)⟩
      · rw [hstep, take, rest_addLeaf, hrest]
        rfl
      · rw [hstep, take, s.nodes_addLeaf _ _ hrest, Array.toList_push]
      · rwa [Inside, hstep, take, pending_addLeaf]
    · obtain ⟨goesOn, reported⟩ := inside.step_of_junk hgoal hsemicolon (hkind ▸ hlexeme)
      obtain ⟨front, block, made⟩ := sound.exists_makes (.step s)
      exact ⟨s.step, front, block, made, goesOn, hlt, fun clean => absurd clean reported⟩
  · obtain ⟨next, front, block, made, hframes, hfront, root, hlast, -, carries⟩ :=
      inside.among.exists_statement sound reads hgoal
    have hleft : next.left < s.left := by
      rw [left, left, made.rest, List.length_append]
      have hpos := List.length_pos_iff.mpr hfront
      omega
    have hcosts := totalCost_eq_of_frames hframes
    refine ⟨next, front, block, made, ?_, ?_, fun _ clean => ?_⟩
    · rw [frames, frames, hs] at hframes
      obtain ⟨entry, below, hpending, hentry, hbelow⟩ := List.map_eq_cons_iff.mp hframes
      obtain rfl := List.map_eq_nil_iff.mp hbelow
      exact ⟨entry, hpending, (Prod.mk.inj hentry).1.trans hbottom⟩
    · rw [price, price, hcosts]
      omega
    · exact (carries (clean root (List.mem_of_getLast? hlast))).2

/-- The rest of the body is read to its end. If nothing is wrong with it, it is read in the same way
wherever its tokens stand. -/
theorem Sound.exists_carries (h : Sound s) (reads : s.Reads buffer) (inside : s.Inside kind) :
    ∃ final nodes, s.Leads final ∧ final.pending = [] ∧
      final.nodes.toList = s.nodes.toList ++ nodes ∧
      (final.diagnostics = #[] → (∀ node ∈ nodes, node.failed = false) →
        Carries (statement? (.scope kind)) s.cursor.rest nodes) := by
  induction hprice : s.price.toNat using Nat.strongRecOn generalizing s with
  | _ price ih =>
    by_cases there : s.cursor.rest = []
    · have hstep := inside.step_of_end there
      refine ⟨s.step, [], .step s, ?_, ?_, fun _ _ => ?_⟩
      · rw [hstep]
      · rw [hstep, List.append_nil]
      · rw [there]
        exact carries_nil
    · obtain ⟨next, front, block, made, goesOn, hlt, carries⟩ := inside.advances h reads there
      have sound := made.leads.sound h
      have hnonneg := sound.price_nonneg
      obtain ⟨final, nodes, leads, ended, hnodes, later⟩ :=
        ih _ (by omega) sound (made.leads.reads h reads) goesOn rfl
      refine ⟨final, block ++ nodes, made.leads.trans leads, ended, ?_, fun clean unmarked => ?_⟩
      · rw [hnodes, made.nodes, List.append_assoc]
      · obtain ⟨first, second⟩ := List.forall_mem_append.mp unmarked
        have hnext := List.prefix_nil.mp (Array.toList_eq_nil_iff.mpr clean ▸
          leads.prefix_diagnostics sound)
        rw [made.rest]
        exact (carries (Array.toList_eq_nil_iff.mp hnext) first).append (later clean second)

/-- A body about which nothing is reported is read in the same way wherever its tokens stand. -/
theorem TokenBuffer.carries_of_clean_body {fragment : Fragment} {syncLimit : Nat}
    (body : fragment.goal = .fragmentBody kind)
    (clean : (buffer.parseTokens fragment syncLimit).diagnostics = []) :
    Carries (statement? (.scope kind)) buffer.significant
      (buffer.parseTokens fragment syncLimit).tree.nodes.toList := by
  have inside : (initial buffer.cursor fragment syncLimit).Inside kind := ⟨_, rfl, body⟩
  obtain ⟨final, nodes, leads, ended, hnodes, carries⟩ := (buffer.sound_initial fragment syncLimit)
    |>.exists_carries ⟨List.suffix_refl _, rfl⟩ inside
  have unmarked := buffer.unmarked_of_clean clean
  have hnodes : final.nodes.toList = nodes := hnodes
  rw [parseTokens_eq_of_leads leads ended] at clean unmarked ⊢
  dsimp only at clean unmarked ⊢
  rw [hnodes] at unmarked ⊢
  exact carries (Array.toList_eq_nil_iff.mp clean) unmarked

end ProtoFront
