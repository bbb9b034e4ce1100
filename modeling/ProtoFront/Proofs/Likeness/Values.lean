import ProtoFront.Parse.Values
import ProtoFront.Proofs.Grammar.Values
import ProtoFront.Proofs.Likeness.Options

/-!
# Values side by side
-/

namespace ProtoFront

open ParseState

variable {x : Likeness} {entry other : Pending} {s t : ParseState} {pair : Bracket}

/-! ## Scalars -/

theorem answers_missingValue (h : Abreast x entry s other t) :
    Answers x s.missingValue t.missingValue :=
  answers_fail h failsAlike_markEnclosing _

theorem answers_value (h : Abreast x entry s other t) : Answers x s.value t.value := by
  have signed (hsign : s.kind.endsStatement = false) :
      Answers x (if s.following.isNumber || s.following == .identifier then s.take.take
          else s.missingValue)
        (if t.following.isNumber || t.following == .identifier then t.take.take
          else t.missingValue) := by
    rw [h.following_eq (.inr hsign)]
    split
    case isTrue => exact ((h.take hsign).addLeaf none false).answers
    case isFalse => exact answers_missingValue h
  rw [value, value, h.kind_eq]
  split
  case h_1 =>
    refine (h.takeRun rfl fun kind hkind => ?_).answers
    rw [beq_iff_eq.mp hkind]
    rfl
  case h_7 hminus => exact signed (by rw [hminus]; rfl)
  case h_8 hplus => exact signed (by rw [hplus]; rfl)
  case h_9 | h_10 | h_11 => exact (h.pushGoal _ rfl).answers
  case h_12 => exact answers_missingValue h
  all_goals exact (h.addLeaf none false).answers

/-! ## Text messages -/

theorem answers_textMessage (h : Abreast x entry s other t) (hkind : s.kind = .opener pair) :
    Answers x (s.textMessage pair entry) (t.textMessage pair other) :=
  ((h.take (by rw [hkind]; rfl)).resume _ fun _ => rfl).answers

namespace ParseState

/-- The separator behind something that has been skipped in a text message. -/
def skipSeparator (s : ParseState) : ParseState :=
  if isTextSeparator s.kind then s.discard else s

/-- How a text message goes on behind something that has been skipped since the token `before`. -/
def behindJunk (pair : Bracket) (entry : Pending) (before : Nat) (s : ParseState) : ParseState :=
  if s.position = before then s.closeTextMessage entry.broken
  else s.resume entry.broken (.textMessageBody pair)

theorem textMessageJunk_eq : s.textMessageJunk pair entry =
    (if s.reportedHere then s.skipTo (endsTextJunk pair)
      else ((s.report [.textFieldName]).recoverTo (endsTextJunk pair)).1).skipSeparator.behindJunk
        pair entry s.position :=
  rfl

theorem diagnostics_skipSeparator : s.skipSeparator.diagnostics = s.diagnostics := by
  rw [skipSeparator]
  split
  · exact s.diagnostics_addLeaf none true
  · rfl

theorem pending_skipSeparator : s.skipSeparator.pending = s.pending := by
  rw [skipSeparator]
  split
  · exact s.pending_addLeaf none true
  · rfl

theorem diagnostics_behindJunk (before : Nat) :
    (s.behindJunk pair entry before).diagnostics = s.diagnostics := by
  rw [behindJunk]
  split
  · exact diagnostics_close _
  · rfl

/-- The message, or the construct around it, is marked. -/
theorem behindJunk_marks (pair : Bracket) (entry : Pending) (before : Nat)
    (hpending : s.pending ≠ []) :
    ∃ top below, (s.behindJunk pair entry before).pending = top :: below ∧ top.failed = true ∧
      s.pending.length ≤ (s.behindJunk pair entry before).pending.length := by
  rw [behindJunk]
  split
  case isFalse => exact ⟨_, _, rfl, rfl, Nat.le_succ _⟩
  case isTrue =>
    obtain ⟨top, below, htop⟩ := List.exists_cons_of_ne_nil hpending
    have hmarked : (s.closeTextMessage entry.broken).pending =
        { top with failed := true } :: below := by
      rw [closeTextMessage, close_eq, letGo, if_pos (show entry.broken.failed = true from rfl),
        markEnclosing, pending_addParent, htop]
    rw [hmarked, htop]
    exact ⟨_, _, rfl, rfl, Nat.le_refl _⟩

end ParseState

theorem Coupled.behindJunk (h : Coupled x entry s other t) (exact : x.exact) (before : Nat) :
    Alike x (s.behindJunk pair entry before) (t.behindJunk pair other (x.token before)) := by
  have same : t.position = x.token before ↔ s.position = before := by
    rw [(h.abreast exact).position_eq, (x.injective_of_exact exact).eq_iff]
  rw [ParseState.behindJunk, ParseState.behindJunk]
  split
  case isTrue hstuck =>
    rw [if_pos (same.mpr hstuck)]
    exact ((h.broken exact).close _).toAlike
  case isFalse hmoved =>
    rw [if_neg fun hstuck => hmoved (same.mp hstuck)]
    exact ((h.broken exact).resume _ fun _ => rfl).toAlike

theorem Coupled.skipSeparator (h : Coupled x entry s other t) (exact : x.exact) :
    Coupled x entry s.skipSeparator other t.skipSeparator := by
  rw [ParseState.skipSeparator, ParseState.skipSeparator, (h.abreast exact).kind_eq]
  split
  case isTrue => exact h.addLeaf exact none true
  case isFalse => exact h

/-- Something in a text message that is no field. -/
theorem answers_textMessageJunk (h : Abreast x entry s other t)
    (above : ¬x.whole → x.first.below.length < s.pending.length) :
    Answers x (s.textMessageJunk pair entry) (t.textMessageJunk pair other) := by
  have reports (u : ParseState) (hu : u.reportedHere = false) (e : Pending) :
      (u.textMessageJunk pair e).diagnostics = (u.report [.textFieldName]).diagnostics := by
    rw [textMessageJunk_eq, diagnostics_behindJunk, diagnostics_skipSeparator, hu,
      if_neg Bool.false_ne_true, diagnostics_recoverTo]
  by_cases exact : x.exact
  · rw [textMessageJunk_eq, textMessageJunk_eq, h.reportedHere_eq (x.whole_of_exact exact),
      h.position_eq]
    split
    case isTrue => exact .inl (((h.skipTo exact _).skipSeparator exact).behindJunk exact _)
    case isFalse =>
      exact .inl ((((h.report exact _).recoverTo exact _).skipSeparator exact).behindJunk exact _)
  · by_cases whole : x.whole
    · have unreported := h.reportedHere_eq_false whole exact
      have unreported' := (h.reportedHere_eq whole).trans unreported
      exact .inr (h.strays exact (reports s unreported entry) (reports t unreported' other))
    · have habove := above whole
      refine .inr ⟨exact, ?_, fun hwhole => absurd hwhole whole⟩
      rcases hreported : s.reportedHere with _ | _
      · exact (h.strays exact (reports s hreported entry) rfl).spoiled
      · have hpending : (s.skipTo (endsTextJunk pair)).skipSeparator.pending = s.pending :=
          pending_skipSeparator.trans (pending_discardMany _ _)
        have there : (s.skipTo (endsTextJunk pair)).skipSeparator.pending ≠ [] := by
          rw [hpending]
          exact List.ne_nil_of_length_pos (by omega)
        obtain ⟨top, below, htop, hfailed, hlength⟩ :=
          behindJunk_marks pair entry s.position there
        rw [hpending] at hlength
        refine .inr ⟨top, below, ?_, hfailed, ?_⟩
        · rw [textMessageJunk_eq, if_pos hreported, htop]
        · rw [textMessageJunk_eq, if_pos hreported]
          omega

theorem answers_textMessageBody (h : Abreast x entry s other t)
    (above : ¬x.whole → x.first.below.length < s.pending.length) :
    Answers x (s.textMessageBody pair entry) (t.textMessageBody pair other) := by
  rw [textMessageBody, textMessageBody, h.kind_eq]
  split
  case isTrue hcloser => exact ((h.addLeaf none false).close _).answers
  case isFalse =>
    split
    case isTrue => exact answers_fail h (failsAlike_close _) _
    case isFalse =>
      split
      case isTrue => exact (h.wait _ _ rfl rfl).answers
      case isFalse => exact answers_textMessageJunk h above

/-! ## Text fields -/

/-- A value that is read although something is missing in front of it. -/
theorem failsAlike_value : FailsAlike x entry other
    (fun s => (s.resume entry.broken .textFieldEnd).pushGoal .value)
    (fun t => (t.resume other.broken .textFieldEnd).pushGoal .value) where
  first _ := rfl
  second _ := rfl
  alike exact _ _ h := (((h.broken exact).abreast exact).wait _ _ rfl rfl).toAlike

theorem answers_textFieldValue (h : Abreast x entry s other t) :
    Answers x (s.textFieldValue entry) (t.textFieldValue other) := by
  have goesOn (hcolon : (s.kind == .colon) = true) : s.kind.endsStatement = false := by
    rw [beq_iff_eq.mp hcolon]
    rfl
  have named := h.takeIf Iff.rfl goesOn
  rw [textFieldValue, textFieldValue, h.kind_eq]
  dsimp only
  rw [named.kind_eq]
  split
  case h_1 goal hgoal =>
    have fresh := Goal.carried_eq_false_of_awaits (compositeGoal?_eq_some hgoal).1.waits
    exact (named.wait _ _ rfl fresh).answers
  case h_2 =>
    split
    case isTrue hcolon =>
      rw [if_pos hcolon, if_pos hcolon] at named
      exact (named.wait _ _ rfl rfl).answers
    case isFalse hcolon =>
      rw [if_neg hcolon, if_neg hcolon] at named
      split
      case isTrue => exact answers_fail named failsAlike_value _
      case isFalse => exact answers_fail named (failsAlike_close _) _

theorem answers_textField (h : Abreast x entry s other t)
    (ready : Goal.textField.ready s.kind = true) :
    Answers x (s.textField entry) (t.textField other) := by
  rw [textField, textField, h.kind_eq]
  split
  case isTrue hsquare =>
    have opened := h.take (by rw [hsquare]; rfl)
    refine answers_expect (opened.takeRun rfl fun kind hkind => ?_) (failsAlike_close _) rfl
      fun _ closed => answers_textFieldValue closed
    rw [isExtensionNamePart, Bool.or_eq_true_iff, Bool.or_eq_true_iff] at hkind
    rcases hkind with (hword | hdot) | hslash
    · exact TokenKind.endsStatement_of_isIdentifierLike hword
    · rw [beq_iff_eq.mp hdot]; rfl
    · rw [beq_iff_eq.mp hslash]; rfl
  case isFalse hsquare =>
    have hword : s.kind.isIdentifierLike = true := by
      rw [Goal.ready, startsTextField, Bool.or_eq_true_iff, beq_iff_eq] at ready
      exact ready.resolve_right hsquare
    exact answers_textFieldValue (h.take (TokenKind.endsStatement_of_isIdentifierLike hword))

theorem answers_textFieldEnd (h : Abreast x entry s other t) :
    Answers x (s.textFieldEnd entry) (t.textFieldEnd other) := by
  have closed := h.close (some .textField)
  rw [textFieldEnd, textFieldEnd, closeTextField, closeTextField, closed.kind_eq]
  split
  case isTrue => exact (closed.addLeaf none false).answers
  case isFalse =>
    split
    case isTrue => exact (closed.addSynthetic _ _).answers
    case isFalse => exact closed.answers

end ProtoFront
