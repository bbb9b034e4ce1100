import ProtoFront.Parse.Declarations
import ProtoFront.Proofs.Grammar.Bodies
import ProtoFront.Proofs.Grammar.Declarations
import ProtoFront.Proofs.Likeness.Recovery

/-!
# Declarations with a body side by side
-/

namespace ProtoFront

open ParseState

variable {x : Likeness} {entry other : Pending} {s t : ParseState}

/-! ## Scopes and extensions -/

theorem failsAlike_failScope (kind : ScopeKind) :
    FailsAlike x entry other (failScope kind entry) (failScope kind other) where
  first := fails_failScope kind entry
  second := fails_failScope kind other
  alike exact _ _ h :=
    ((((h.recoverStatement exact (h.origins.layout exact)).addSynthetic _ _).broken exact).close
      _).toAlike

theorem answers_enterBody (h : Abreast x entry s other t) (kind : BodyKind) :
    Answers x (s.enterBody kind entry) (t.enterBody kind other) :=
  ((h.resume _ fun _ => rfl).resume (.body kind) fun _ => rfl).answers

theorem answers_scope (h : Abreast x entry s other t) {kind : ScopeKind}
    (hkind : s.kind = .keyword kind.word) :
    Answers x (s.scope kind entry) (t.scope kind other) := by
  have opened := h.take (by rw [hkind]; rfl)
  rw [scope, scope, opened.kind_eq]
  refine answers_require opened rfl (failsAlike_failScope kind) fun hword => ?_
  have named := opened.takeAs (TokenKind.endsStatement_of_isIdentifierLike hword) .name
  exact answers_expect named (failsAlike_failScope kind) rfl fun _ brace =>
    answers_enterBody brace _

theorem answers_extend (h : Abreast x entry s other t) (hkind : s.kind = .keyword .kwExtend) :
    Answers x (s.extend entry) (t.extend other) := by
  have opened := h.take (by rw [hkind]; rfl)
  rw [extend, extend, opened.kind_eq]
  exact answers_require opened rfl (failsAlike_failStatement _) fun _ =>
    (opened.wait _ _ rfl rfl).answers

theorem answers_extendAfterName (h : Abreast x entry s other t) :
    Answers x (s.extendAfterName entry) (t.extendAfterName other) := by
  rw [extendAfterName, extendAfterName, h.entries.failed]
  split
  case isTrue hfailed => exact answers_failStatement h hfailed _
  case isFalse =>
    exact answers_expect h (failsAlike_failStatement _) rfl fun _ brace =>
      answers_enterBody brace _

/-! ## Bodies -/

/-- The skip of something that begins no statement of a body. -/
def ParseState.skipJunk (origin : Origin) (again : Goal) (entry : Pending) (s : ParseState) :
    ParseState :=
  ((if s.kind.isOpener then s.skipGroup else s.discard).recoverStatement origin).resume
    entry.broken again

theorem ParseState.bodyJunk_eq {body : BodyKind} {again : Goal} : s.bodyJunk body again entry =
    (if s.reportedHere then s else s.report body.expected).skipJunk s.cursor.origin again entry :=
  rfl

theorem Abreast.layout_origin (h : Abreast x entry s other t) (exact : x.exact)
    (there : s.kind ≠ .eof) :
    t.cursor.origin.line = s.cursor.origin.line + x.lines ∧
      t.cursor.origin.column = s.cursor.origin.column := by
  rw [Cursor.origin, Cursor.origin]
  rcases h.cases h.ahead with ⟨-, hs, -⟩ | ⟨_, _, _, _, hs, ht, like, -⟩
  · exact absurd (by rw [kind, Cursor.kind, hs]) there
  · rw [hs, ht]
    exact like.layout exact

/-- The body goes on with the same goal, whatever is read in front of it. The parses may hold any
other goals meanwhile. -/
def Likeness.Repeats (x : Likeness) (held held' entry other : Pending) (again : Goal) : Prop :=
  ∀ {u v : ParseState}, Coupled x held u held' v →
    x.Entries (u.cursor.rest ≠ []) { entry with goal := again } { other with goal := again }

variable {held held' : Pending} {again : Goal}

theorem failsAlike_skipJunk {origin origin' : Origin}
    (origins : x.exact → origin'.line = origin.line + x.lines ∧ origin'.column = origin.column)
    (repeats : x.Repeats held held' entry other again) :
    FailsAlike x held held' (skipJunk origin again entry) (skipJunk origin' again other) where
  first s := by
    show (ParseState.recoverStatement _ _).diagnostics = _
    rw [diagnostics_recoverStatement]
    split
    · exact diagnostics_skipGroup
    · exact s.diagnostics_addLeaf none true
  second t := by
    show (ParseState.recoverStatement _ _).diagnostics = _
    rw [diagnostics_recoverStatement]
    split
    · exact diagnostics_skipGroup
    · exact t.diagnostics_addLeaf none true
  alike exact s t h := by
    have skipped : Coupled x held (if s.kind.isOpener then s.skipGroup else s.discard) held'
        (if t.kind.isOpener then t.skipGroup else t.discard) := by
      rw [(h.abreast exact).kind_eq]
      split
      · exact h.skipGroup exact
      · exact h.addLeaf exact none true
    have recovered := skipped.recoverStatement exact fun _ => origins exact
    exact (recovered.cons ((repeats recovered).broken exact)).toAlike

theorem answers_bodyJunk (h : Abreast x held s held' t) (body : BodyKind)
    (repeats : x.Repeats held held' entry other again) (there : s.kind ≠ .eof) :
    Answers x (s.bodyJunk body again entry) (t.bodyJunk body again other) := by
  rw [bodyJunk_eq, bodyJunk_eq]
  refine answers_junk h (failsAlike_skipJunk (fun exact => h.layout_origin exact there) repeats)
    (fun _ => .inr ⟨_, _, rfl, rfl, ?_⟩) _
  have hle := h.stack.below_length_le
  have hpending : (if s.kind.isOpener then s.skipGroup else s.discard).pending = s.pending := by
    split
    · exact pending_discardMany _ s
    · exact s.pending_addLeaf none true
  show _ < (ParseState.recoverStatement _ _).pending.length + 1
  rw [pending_recoverStatement, hpending]
  omega

/-- The next statement of a body. A closing brace does not begin one, so it may come last. -/
theorem answers_bodyStatement (h : Abreast x held s held' t) (body : BodyKind)
    (repeats : x.Repeats held held' entry other again) (there : s.kind ≠ .eof)
    (goesOn : x.whole ∨ s.kind ≠ .closer .brace) :
    Answers x (s.bodyStatement body again entry) (t.bodyStatement body again other) := by
  rw [bodyStatement, bodyStatement, h.kind_eq]
  split
  case isTrue =>
    have read := h.addLeaf none false
    exact (read.cons (repeats read)).answers
  case isFalse hsemicolon =>
    have hfollowing : t.following = s.following := h.following_eq (goesOn.imp_right fun hbrace => by
      generalize s.kind = kind at hsemicolon hbrace ⊢
      unfold TokenKind.endsStatement
      split <;> first | exact absurd rfl hsemicolon | exact absurd rfl hbrace | rfl)
    rw [hfollowing]
    split
    case h_1 goal hgoal =>
      have fresh := Goal.carried_eq_false_of_awaits (statement?_eq_some hgoal).1.waits
      exact ((h.cons (repeats h.toCoupled)).pushGoal goal fresh).answers
    case h_2 => exact answers_bodyJunk h body repeats there

/-- A body whose closing brace is missing may get one that stands for no token. -/
theorem failsAlike_cutBody (tag : NodeKind) :
    FailsAlike x entry other (fun s => (s.addSynthetic tag true).markEnclosing)
      (fun t => (t.addSynthetic tag true).markEnclosing) where
  first _ := diagnostics_markEnclosing
  second _ := diagnostics_markEnclosing
  alike exact _ _ h := ((h.addSynthetic tag true).markEnclosing exact).toAlike

theorem answers_body (h : Abreast x entry s other t) (kind : BodyKind) :
    Answers x (s.body kind entry) (t.body kind other) := by
  rw [body, body, h.kind_eq]
  split
  case h_1 =>
    rcases htag : kind.closeTag? with _ | tag
    · exact answers_fail h failsAlike_markEnclosing _
    · exact answers_fail h (failsAlike_cutBody tag) _
  case h_2 =>
    have closed := h.addLeaf kind.closeTag? false
    dsimp only
    rw [h.entries.failed]
    split
    case isTrue hfailed => exact (closed.markEnclosing (h.entries.exact_of_failed hfailed)).answers
    case isFalse => exact closed.answers
  case h_3 heof hbrace =>
    exact answers_bodyStatement h kind
      (fun u => u.entries.resume (fun _ => rfl) fun _ => u.origins) heof (.inr hbrace)

/-- A body that ends with the input is read as a whole. -/
theorem answers_fragmentBody {there : Prop} (h : Abreast x held s held' t)
    (entries : x.Entries there entry other) (whole : x.whole) (kind : ScopeKind) :
    Answers x (s.fragmentBody kind entry) (t.fragmentBody kind other) := by
  rw [fragmentBody, fragmentBody, h.kind_eq]
  split
  case isTrue => exact h.answers
  case isFalse there =>
    exact answers_bodyStatement h _ (fun _ => entries.document rfl rfl) there (.inl whole)

/-! ## Rpcs -/

theorem answers_rpcType (h : Abreast x entry s other t) {after : Goal}
    (carried : after.carried = false) (kind : ReferenceKind) :
    Answers x (s.rpcType after kind entry) (t.rpcType after kind other) := by
  have hword (hstream : s.atWord .wordStream = true) : s.kind.endsStatement = false := by
    rw [kind_of_atWord h.spelled hstream]
    rfl
  have marked := h.takeIf (c := (s.atWord .wordStream && startsType s.following) = true)
    Iff.rfl fun hmarked => hword (Bool.and_eq_true_iff.mp hmarked).1
  rw [rpcType, rpcType, h.atWord_eq, h.and_following_eq startsType hword]
  exact answers_require marked (by rw [marked.kind_eq]) (failsAlike_failStatement _) fun _ =>
    (marked.wait _ _ carried rfl).answers

theorem answers_rpc (h : Abreast x entry s other t) (hkind : s.kind = .keyword .kwRpc) :
    Answers x (s.rpc entry) (t.rpc other) := by
  have opened := h.take (by rw [hkind]; rfl)
  have fails : FailsAlike x entry other (failStatement entry .rpc) (failStatement other .rpc) :=
    failsAlike_failStatement .rpc
  rw [rpc, rpc, opened.kind_eq]
  refine answers_require opened rfl fails fun hword => ?_
  have named := opened.takeAs (TokenKind.endsStatement_of_isIdentifierLike hword) .name
  exact answers_expect named fails rfl fun _ paren => answers_rpcType paren rfl _

theorem answers_rpcAfterInput (h : Abreast x entry s other t) :
    Answers x (s.rpcAfterInput entry) (t.rpcAfterInput other) := by
  have fails : FailsAlike x entry other (failStatement entry .rpc) (failStatement other .rpc) :=
    failsAlike_failStatement .rpc
  rw [rpcAfterInput, rpcAfterInput, h.entries.failed]
  split
  case isTrue hfailed => exact answers_failStatement h hfailed _
  case isFalse =>
    refine answers_expect h fails rfl fun _ closed => ?_
    refine answers_require closed (closed.atWord_eq _) fails fun hreturns => ?_
    have returns := closed.take (by rw [kind_of_atWord closed.spelled hreturns]; rfl)
    exact answers_expect returns fails rfl fun _ paren => answers_rpcType paren rfl _

theorem answers_rpcAfterOutput (h : Abreast x entry s other t) :
    Answers x (s.rpcAfterOutput entry) (t.rpcAfterOutput other) := by
  have fails : FailsAlike x entry other (failStatement entry .rpc) (failStatement other .rpc) :=
    failsAlike_failStatement .rpc
  rw [rpcAfterOutput, rpcAfterOutput, h.entries.failed]
  split
  case isTrue hfailed => exact answers_failStatement h hfailed _
  case isFalse =>
    refine answers_expect h fails rfl fun _ closed => ?_
    rw [closed.kind_eq]
    split
    case h_1 => exact ((closed.addLeaf none false).close _).answers
    case h_2 hbrace => exact answers_enterBody (closed.take (by rw [hbrace]; rfl)) _
    case h_3 => exact answers_fail closed fails _

end ProtoFront
