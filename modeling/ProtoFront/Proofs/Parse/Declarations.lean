import ProtoFront.Proofs.Parse.Fields

/-!
# Steps at declarations with a body

A body goes on after every statement and after everything that is none, and in each of its steps
it either reads a token or puts a goal on the stack that will.
-/

namespace ProtoFront

open ParseState

variable {entry : Pending} {s t : ParseState} {price : Int}

/-! ## Scopes and extensions -/

theorem handled_scope {kind : ScopeKind} (h : Pursued entry s) (goal : entry.goal = .scope kind) :
    Handled entry s (s.scope kind entry) := by
  have reads : entry.goal.Reads .statement (-15) := goal ▸ ⟨rfl, rfl, rfl, rfl⟩
  have unmarked : entry.failed = false := h.fresh (goal ▸ rfl)
  have hread := s.left_take_lt (h.there (goal ▸ rfl))
  have hname := s.take.left_takeAs_le .name
  have moves : Moves entry s entry s.take := Moves.start.take reads.opened
  have named := moves.takeAs .name reads.opened rfl
  have fails {t : ParseState} (moves : Moves entry s entry.broken t) (hleft : t.left < s.left) :
      Handled entry s (t.failScope kind entry) := by
    have hle := t.left_recoverStatement_le entry.origin
    exact ⟨entry.broken, _, moves.recoverStatement entry.origin reads.opened rfl,
      .closeScope kind goal rfl (by omega)⟩
  rw [scope]
  refine handled_require ?_ fun hword => handled_expect ?_ fun hbrace => ?_
  · exact fails (moves.report _) (by rw [left_report]; omega)
  · exact fails (named.report _) (by rw [left_report]; omega)
  · have hname := s.take.left_takeAs_lt .name (TokenKind.ne_eof_of_isIdentifierLike hword)
    have hopen := (s.take.takeAs .name).left_take_lt (by rw [hbrace]; simp)
    exact handled_enterBody (named.take reads.opened) reads unmarked (by omega)

theorem handled_extend (h : Pursued entry s) (goal : entry.goal = .extend) :
    Handled entry s (s.extend entry) := by
  have reads : entry.goal.Reads .statement (-15) := goal ▸ ⟨rfl, rfl, rfl, rfl⟩
  have hread := s.left_take_lt (h.there (goal ▸ rfl))
  have moves : Moves entry s entry s.take := Moves.start.take reads.opened
  rw [extend]
  refine handled_require ?_ fun htype => ?_
  · exact handled_failStatement (moves.report _) reads rfl (by rw [left_report]; omega)
  · refine handled_wait moves reads rfl rfl ⟨htype, rfl⟩ ?_
    have hcost : (Goal.qualifiedName (some (.reference .extendeeType))).cost = -15 := rfl
    omega

theorem handled_extendAfterName (goal : entry.goal = .extendAfterName) :
    Handled entry s (s.extendAfterName entry) := by
  have reads : entry.goal.Reads .statement 1 := goal ▸ ⟨rfl, rfl, rfl, rfl⟩
  rw [extendAfterName]
  split
  case isTrue hfailed =>
    have moves : Moves entry s entry.broken s := Pending.broken_eq hfailed ▸ .start
    exact handled_failStatement moves reads rfl (by omega)
  case isFalse hfailed =>
    refine handled_expect ?_ fun hkind => ?_
    · exact handled_failStatement (Moves.start.report _) reads rfl (by rw [left_report]; omega)
    · have hread := s.left_take_lt (by rw [hkind]; simp)
      exact handled_enterBody (Moves.start.take reads.opened) reads (by simpa using hfailed)
        (by omega)

theorem handled_declarationEnd {kind : DeclarationKind} (goal : entry.goal = .declarationEnd kind) :
    Handled entry s (s.close entry (some (.declaration kind))) := by
  have part : entry.goal.part = .statement := goal ▸ rfl
  have carried : entry.goal.carried = false := Goal.carried_eq_false part
  refine ⟨entry, s, .start, .close _ ?_ ?_ (goal ▸ rfl) ?_ ?_⟩
  · rw [part]
    simp
  · rw [part]
    simp
  · rw [carried]
    simp
  · have hcost : (Goal.declarationEnd kind).cost = 1 := rfl
    rw [goal]
    omega

/-! ## Bodies -/

/-- A body puts a goal on the stack only where it is ready, and the goal is sure to read. -/
theorem ParseState.statement?_eq_some {body : BodyKind} {next following : TokenKind} {goal : Goal}
    (h : statement? body next following = some goal) :
    goal.Begins next ∧ goal.part = .statement ∧ goal.cost < 0 := by
  unfold statement? at h
  dsimp only at h
  split at h
  all_goals first
    | (cases h; done)
    | (cases h; exact ⟨⟨rfl, rfl⟩, rfl, by decide⟩)
    | (cases h; split <;> exact ⟨⟨rfl, rfl⟩, rfl, by decide⟩)
    | (obtain ⟨hnext, hgoal⟩ := Option.ite_none_right_eq_some.mp h
       cases hgoal
       exact ⟨⟨hnext, rfl⟩, rfl, by decide⟩)

/-- A body between braces, or one that ends with the input. -/
structure Goal.Repeats (goal : Goal) : Prop where
  opened : goal.isOpen = true
  awaits : goal.awaits? = some .statement

theorem handled_bodyJunk {body : BodyKind} {again : Goal} (goal : entry.goal = again)
    (repeats : again.Repeats) (there : s.kind ≠ .eof) :
    Handled entry s (s.bodyJunk body again entry) := by
  subst goal
  have fails {t : ParseState} (moves : Moves entry s entry.broken t) (hkind : t.kind = s.kind)
      (hleft : t.left = s.left) :
      Handled entry s
        (((if t.kind.isOpener then t.skipGroup else t.discard).recoverStatement
          s.cursor.origin).resume entry.broken entry.goal) := by
    have skipped : ∃ u, (if t.kind.isOpener then t.skipGroup else t.discard) = u ∧
        Moves entry s entry.broken u ∧ u.left < s.left := by
      split
      case isTrue hopener =>
        have hgroup := left_skipGroup_lt hopener
        exact ⟨_, rfl, moves.skipGroup repeats.opened rfl, by omega⟩
      case isFalse =>
        have hdiscard := t.left_addLeaf_lt none true (by rwa [hkind])
        exact ⟨_, rfl, moves.discard repeats.opened rfl, by rw [ParseState.discard]; omega⟩
    obtain ⟨u, hu, hmoves, hlt⟩ := skipped
    have hle := u.left_recoverStatement_le s.cursor.origin
    rw [hu]
    refine ⟨entry.broken, _, hmoves.recoverStatement s.cursor.origin repeats.opened rfl,
      .goOn entry.goal repeats.opened repeats.opened rfl
        (Goal.ready_of_awaits repeats.awaits _) ?_ rfl ?_⟩
    · rw [repeats.awaits]
      simp
    · rw [show entry.broken.goal = entry.goal from rfl]
      omega
  rw [bodyJunk]
  by_cases hreported : s.reportedHere = true
  · have hdiagnostics := diagnostics_ne_of_reportedHere hreported
    rw [if_pos hreported]
    exact fails (Moves.start.breaks hdiagnostics) rfl rfl
  · rw [if_neg hreported]
    exact fails (Moves.start.report _) rfl rfl

theorem handled_bodyStatement {body : BodyKind} {again : Goal} (goal : entry.goal = again)
    (repeats : again.Repeats) (there : s.kind ≠ .eof) :
    Handled entry s (s.bodyStatement body again entry) := by
  have opened : entry.goal.isOpen = true := by rw [goal, repeats.opened]
  have ready := Goal.ready_of_awaits repeats.awaits
  rw [bodyStatement]
  split
  case isTrue =>
    have hread := s.left_take_lt there
    refine ⟨entry, s.take, Moves.start.take opened,
      .goOn again opened repeats.opened (by rw [goal]) (ready _) ?_ (by rw [goal])
        (by rw [goal]; omega)⟩
    rw [repeats.awaits]
    simp
  case isFalse =>
    split
    case h_1 next hnext =>
      obtain ⟨begins, hpart, hcost⟩ := statement?_eq_some hnext
      refine ⟨entry, s, .start, .delegate again next entry.failed opened ?_ ?_ begins ?_ ?_⟩
      · rw [goal]
      · rw [repeats.awaits, hpart]
      · rw [Pending.flagged, goal]
      · rw [goal]
        omega
    case h_2 => exact handled_bodyJunk goal repeats there

theorem handled_body {kind : BodyKind} (goal : entry.goal = .body kind) :
    Handled entry s (s.body kind entry) := by
  rw [body]
  split
  case h_1 =>
    exact ⟨entry.broken, _, Moves.start.report _, .cutBody kind goal (Nat.le_refl _) rfl⟩
  case h_2 hkind =>
    exact ⟨entry, s, .start, .closeBody kind goal (Nat.le_refl _) (by rw [hkind]; simp)⟩
  case h_3 hthere _ => exact handled_bodyStatement goal ⟨rfl, rfl⟩ hthere

theorem handled_fragmentBody {kind : ScopeKind} (h : Pursued entry s)
    (goal : entry.goal = .fragmentBody kind) : Handled entry s (s.fragmentBody kind entry) := by
  rw [fragmentBody]
  split
  case isTrue hkind =>
    have hrest := h.atEnd hkind
    exact ⟨entry, s, .start, .finish (by rw [goal]; rfl) hrest (by rw [left, hrest]; rfl)⟩
  case isFalse hthere => exact handled_bodyStatement goal ⟨rfl, rfl⟩ hthere

/-! ## Rpcs -/

theorem handled_rpcType {after : Goal} {kind : ReferenceKind} (moves : Moves entry s entry t)
    (reads : entry.goal.Reads .statement price) (part : after.part = .statement)
    (awaits : after.awaits? = some (.name (some (.reference kind))))
    (paid : 16 * (t.left : Int) < 16 * s.left + price) :
    Handled entry s (t.rpcType after kind entry) := by
  have hstream := left_takeIf_le t
    ((t.atWord .wordStream && startsType t.following) = true)
  have marked := moves.takeIf ((t.atWord .wordStream && startsType t.following) = true)
    reads.opened
  rw [rpcType]
  refine handled_require ?_ fun htype => ?_
  · exact handled_failStatement (marked.report _) reads rfl (by rw [left_report]; omega)
  · refine handled_wait marked reads part awaits ⟨htype, rfl⟩ ?_
    have hcost : (Goal.qualifiedName (some (.reference kind))).cost = -15 := rfl
    omega

theorem handled_rpc (h : Pursued entry s) (goal : entry.goal = .rpc) :
    Handled entry s (s.rpc entry) := by
  have reads : entry.goal.Reads .statement (-15) := goal ▸ ⟨rfl, rfl, rfl, rfl⟩
  have hread := s.left_take_lt (h.there (goal ▸ rfl))
  have hname := s.take.left_takeAs_le .name
  have hparen := (s.take.takeAs .name).left_take_le
  have moves : Moves entry s entry s.take := Moves.start.take reads.opened
  have named := moves.takeAs .name reads.opened rfl
  rw [rpc]
  refine handled_require ?_ fun _ => handled_expect ?_ fun _ => ?_
  · exact handled_failStatement (moves.report _) reads rfl (by rw [left_report]; omega)
  · exact handled_failStatement (named.report _) reads rfl (by rw [left_report]; omega)
  · exact handled_rpcType (named.take reads.opened) reads rfl rfl (by omega)

theorem handled_rpcAfterInput (goal : entry.goal = .rpcAfterInput) :
    Handled entry s (s.rpcAfterInput entry) := by
  have reads : entry.goal.Reads .statement 1 := goal ▸ ⟨rfl, rfl, rfl, rfl⟩
  have hparen := s.left_take_le
  have hreturns := s.take.left_take_le
  have hopen := s.take.take.left_take_le
  rw [rpcAfterInput]
  split
  case isTrue hfailed =>
    have moves : Moves entry s entry.broken s := Pending.broken_eq hfailed ▸ .start
    exact handled_failStatement moves reads rfl (by omega)
  case isFalse =>
    have closed : Moves entry s entry s.take := Moves.start.take reads.opened
    have returned := closed.take reads.opened
    refine handled_expect ?_ fun _ => handled_require ?_ fun _ => handled_expect ?_ fun _ => ?_
    · exact handled_failStatement (Moves.start.report _) reads rfl (by rw [left_report]; omega)
    · exact handled_failStatement (closed.report _) reads rfl (by rw [left_report]; omega)
    · exact handled_failStatement (returned.report _) reads rfl (by rw [left_report]; omega)
    · exact handled_rpcType (returned.take reads.opened) reads rfl rfl (by omega)

theorem handled_rpcAfterOutput (goal : entry.goal = .rpcAfterOutput) :
    Handled entry s (s.rpcAfterOutput entry) := by
  have reads : entry.goal.Reads .statement 1 := goal ▸ ⟨rfl, rfl, rfl, rfl⟩
  rw [rpcAfterOutput]
  split
  case isTrue hfailed =>
    have moves : Moves entry s entry.broken s := Pending.broken_eq hfailed ▸ .start
    exact handled_failStatement moves reads rfl (by omega)
  case isFalse hfailed =>
    have closed : Moves entry s entry s.take := Moves.start.take reads.opened
    have hle := s.take.left_take_le
    refine handled_expect ?_ fun hkind => ?_
    · exact handled_failStatement (Moves.start.report _) reads rfl (by rw [left_report]; omega)
    · have hread := s.left_take_lt (by rw [hkind]; simp)
      split
      case h_1 =>
        exact handled_closeStatement (closed.take reads.opened) reads rfl (by omega)
      case h_2 =>
        exact handled_enterBody (closed.take reads.opened) reads (by simpa using hfailed)
          (by omega)
      case h_3 =>
        exact handled_failStatement (closed.report _) reads rfl (by rw [left_report]; omega)

end ProtoFront
