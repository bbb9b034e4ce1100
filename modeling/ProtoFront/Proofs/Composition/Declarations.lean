import ProtoFront.Parse.Declarations
import ProtoFront.Proofs.Composition.Recovery
import ProtoFront.Proofs.Parse.Declarations

/-!
# What declarations with a body are made of

A body goes on with the piece of its declaration: what has been read in front of the brace, and then
one statement after the other. The brace that closes the body completes the declaration, and a body
without one fails.
-/

namespace ProtoFront

open ParseState Production

variable {buffer : TokenBuffer} {entry : Pending} {s t : ParseState}
variable {L : Language Item}

/-! ## Scopes -/

theorem spoils_failScope (part : entry.goal.part = .statement) (kind : ScopeKind) :
    Spoils buffer entry (failScope kind entry) := by
  intro s h
  have skipped := h.addAny ((Adds.skipStatement h.reads entry.origin).resync s.position)
  have ended := skipped.addAny (.addSynthetic skipped.reads .scopeClose rfl true)
  exact ended.composed_closeFailed _ (Goal.ne_document_of_statement part) rfl

theorem composed_enterBody {kind : BodyKind} (h : Holds buffer kind.opening.matches' entry s)
    (part : entry.goal.part = .statement) : Composed buffer (s.enterBody kind entry) := by
  refine h.enter kind (Goal.carried_eq_false part) ?_
  refine le_trans (mul_one _).ge ?_
  exact mul_le_mul' le_rfl one_le_kstar

theorem composed_scope {kind : ScopeKind} (h : Holds buffer 1 entry s)
    (part : entry.goal.part = .statement) (ready : s.kind = .keyword kind.word) :
    Composed buffer (s.scope kind entry) := by
  have opened := h.just ready rfl
  rw [scope]
  refine composed_require opened (spoils_failScope part kind) fun hword => ?_
  refine composed_expect (opened.takeAs hword .name rfl) (spoils_failScope part kind) rfl
    fun braced => composed_enterBody (braced.mono ?_) part
  rw [one_mul]
  exact le_rfl

/-! ## Extensions of messages -/

theorem composed_extend (h : Holds buffer 1 entry s) (part : entry.goal.part = .statement)
    (ready : s.kind = .keyword .kwExtend) : Composed buffer (s.extend entry) := by
  have opened := h.just ready rfl
  rw [one_mul] at opened
  rw [extend]
  refine composed_require opened (spoils_failStatement part .extend) fun _ => ?_
  exact opened.wait part .extendAfterName (.qualifiedName (some (.reference .extendeeType))) rfl rfl
    le_rfl rfl

theorem composed_extendAfterName (h : Holds buffer Goal.extendAfterName.made entry s)
    (part : entry.goal.part = .statement) : Composed buffer (s.extendAfterName entry) := by
  rw [extendAfterName]
  split
  case isTrue => exact spoils_failStatement part .extend _ (h.spoil ⊤)
  case isFalse =>
    exact composed_expect h (spoils_failStatement part .extend) rfl fun braced =>
      composed_enterBody braced part

/-! ## Bodies -/

theorem composed_declarationEnd {kind : DeclarationKind}
    (h : Holds buffer (Goal.declarationEnd kind).made entry s)
    (goal : entry.goal = .declarationEnd kind) :
    Composed buffer (s.close entry (some (.declaration kind))) :=
  h.closeStatement (by rw [goal]; rfl) le_rfl

/-- What goes on from statement to statement. -/
structure Goal.Gathers (goal : Goal) : Prop where
  awaits : goal.awaits? = some .statement
  carried : goal.carried = false
  semicolon : goal.made * (just .semicolon).matches' ≤ goal.made
  statement : goal.made * Part.statement.yields ≤ goal.made

theorem Goal.gathers_body (kind : BodyKind) : (Goal.body kind).Gathers where
  awaits := rfl
  carried := rfl
  semicolon := by
    rw [made, RegularExpression.matches'_mul, mul_assoc]
    refine mul_le_mul' le_rfl (le_trans (mul_le_mul' le_rfl ?_) kstar_mul_le_kstar)
    exact le_sup_left
  statement := by
    rw [made, RegularExpression.matches'_mul, mul_assoc]
    refine mul_le_mul' le_rfl (le_trans (mul_le_mul' le_rfl ?_) kstar_mul_le_kstar)
    rintro _ ⟨kind, rfl⟩
    refine .inr (mem_oneOf.mpr ?_)
    cases kind with
    | scope kind => cases kind <;> decide
    | _ => decide

theorem Goal.gathers_of_document {goal : Goal} (part : goal.part = .document) : goal.Gathers := by
  rcases goal.cases_of_document part with rfl | ⟨kind, rfl⟩
  · exact ⟨rfl, rfl, le_top, le_top⟩
  · exact ⟨rfl, rfl, le_top, le_top⟩

/-- A statement begins. -/
theorem Goal.Gathers.composed_wait {next : Goal} (gathers : entry.goal.Gathers)
    (h : Holds buffer entry.goal.made entry s) (part : next.part = .statement)
    (cost : next.cost < 0) : Composed buffer ((s.resume entry entry.goal).pushGoal next) := by
  refine h.delegate entry.goal next (fun unflagged => unflagged) ?_ ?_ (nil_mem_made cost ?_)
  · rw [part]
    exact gathers.awaits
  · rw [part]
    exact gathers.statement
  · simp [part]

theorem composed_bodyJunk {body : BodyKind} (h : Holds buffer L entry s) :
    Composed buffer (s.bodyJunk body entry.goal entry) := by
  have junk {t : ParseState} (broken : Holds buffer ⊤ entry.broken t) : Composed buffer
      (((if t.kind.isOpener then t.skipGroup else t.discard).recoverStatement
        s.cursor.origin).resume entry.broken entry.goal) := by
    have skipped : Holds buffer ⊤ entry.broken
        (if t.kind.isOpener then t.skipGroup else t.discard) := by
      split
      case isTrue => exact broken.addAny (.discardMany broken.reads _)
      case isFalse => exact broken.addAny (.discard broken.reads)
    have recovered := skipped.addAny ((Adds.skipStatement skipped.reads s.cursor.origin).resync
      (if t.kind.isOpener then t.skipGroup else t.discard).position)
    exact (recovered.spoil entry.goal.made).goOn entry.goal (fun unflagged => unflagged) le_rfl
  rw [bodyJunk]
  by_cases hreported : s.reportedHere = true
  · rw [if_pos hreported]
    exact junk (h.spoil ⊤)
  · rw [if_neg hreported]
    exact junk ((h.report _).spoil ⊤)

theorem composed_bodyStatement {body : BodyKind} (h : Holds buffer entry.goal.made entry s)
    (gathers : entry.goal.Gathers) : Composed buffer (s.bodyStatement body entry.goal entry) := by
  rw [bodyStatement]
  split
  case isTrue hsemicolon =>
    exact (h.just hsemicolon rfl).goOn entry.goal (fun unflagged => unflagged) gathers.semicolon
  case isFalse =>
    split
    case h_1 next hnext =>
      obtain ⟨-, part, cost⟩ := statement?_eq_some hnext
      exact gathers.composed_wait h part cost
    case h_2 => exact composed_bodyJunk h

/-- The brace that closes a body completes the declaration. -/
theorem BodyKind.mul_closer_le (kind : BodyKind) :
    (Goal.body kind).made * {[(kind.closeTag?.map Item.node).getD (.token (.closer .brace) none)]} ≤
      (Part.block kind).yields := by
  cases kind with
  | scope kind => exact le_rfl
  | extend => exact le_rfl
  | rpc =>
    -- the brackets of the body are one of the two ends of an rpc
    rw [Goal.made, RegularExpression.matches'_mul, BodyKind.opening, RegularExpression.matches'_mul,
      mul_assoc, mul_assoc]
    exact mul_le_mul' le_rfl (le_trans (mul_assoc _ _ _).ge le_sup_right)

theorem composed_body {kind : BodyKind} (h : Holds buffer (Goal.body kind).made entry s)
    (goal : entry.goal = .body kind) : Composed buffer (s.body kind entry) := by
  have part : entry.goal.part = .block kind := by rw [goal]; rfl
  have inner : entry.goal.part ≠ .document := by simp [part]
  have bare : kind.closeTag?.all NodeKind.isBare = true := by cases kind <;> rfl
  rw [body]
  split
  case h_1 =>
    have reported := h.report [.token (.closer .brace)]
    refine Holds.mark (?_ : Holds buffer ⊤ entry _) inner
    split
    case h_1 tag htag =>
      rw [htag] at bare
      exact (reported.add (.addSynthetic reported.reads tag bare true)).mono le_top
    case h_2 => exact reported.mono le_top
  case h_2 hkind =>
    have closed := h.add (.addLeaf h.reads (s.kind_ne_eof hkind rfl) kind.closeTag? bare false)
    rw [h.reads.item_of_plain hkind rfl] at closed
    dsimp only
    split
    case isTrue => exact closed.mark inner
    case isFalse unfailed =>
      refine closed.pass (Pending.flagged_eq_false (Bool.eq_false_iff.mpr unfailed) ?_) inner ?_
      · rw [goal]
        rfl
      · rw [part]
        exact kind.mul_closer_le
  case h_3 =>
    rw [← goal] at h ⊢
    exact composed_bodyStatement h (by rw [goal]; exact Goal.gathers_body kind)

theorem composed_fragmentBody {kind : ScopeKind}
    (h : Holds buffer (Goal.fragmentBody kind).made entry s)
    (goal : entry.goal = .fragmentBody kind) : Composed buffer (s.fragmentBody kind entry) := by
  have part : entry.goal.part = .document := by rw [goal]; rfl
  rw [fragmentBody]
  split
  case isTrue => exact h.finish part
  case isFalse =>
    rw [← goal] at h ⊢
    exact composed_bodyStatement h (Goal.gathers_of_document part)

/-! ## Rpcs -/

theorem composed_rpcType {after : Goal} {kind : ReferenceKind} (h : Holds buffer L entry s)
    (part : entry.goal.part = .statement) (goes : after.part = .statement)
    (awaits : after.awaits? = some (.name (some (.reference kind))))
    (made : L * (perhaps (contextual .wordStream)).matches' * (node (.reference kind)).matches' ≤
      after.made) : Composed buffer (s.rpcType after kind entry) := by
  have marked := h.takeIf ((s.atWord .wordStream && startsType s.following) = true) fun hstream =>
    Adds.contextual h.reads (Bool.and_eq_true_iff.mp hstream).1
  rw [rpcType]
  refine composed_require marked (spoils_failStatement part .rpc) fun _ => ?_
  exact marked.wait part after (.qualifiedName (some (.reference kind))) goes awaits made rfl

theorem composed_rpc (h : Holds buffer 1 entry s) (part : entry.goal.part = .statement)
    (ready : s.kind = .keyword .kwRpc) : Composed buffer (s.rpc entry) := by
  have fails : Spoils buffer entry (failStatement entry .rpc) := spoils_failStatement part .rpc
  have opened := h.just ready rfl
  rw [rpc]
  refine composed_require opened fails fun hword => ?_
  refine composed_expect (opened.takeAs hword .name rfl) fails rfl fun input => ?_
  refine composed_rpcType input part rfl rfl ?_
  simp only [Goal.made, openType, word, RegularExpression.matches'_mul, one_mul, mul_assoc, le_refl]

theorem composed_rpcAfterInput (h : Holds buffer Goal.rpcAfterInput.made entry s)
    (part : entry.goal.part = .statement) : Composed buffer (s.rpcAfterInput entry) := by
  have fails : Spoils buffer entry (failStatement entry .rpc) := spoils_failStatement part .rpc
  rw [rpcAfterInput]
  split
  case isTrue => exact fails _ (h.spoil ⊤)
  case isFalse =>
    refine composed_expect h fails rfl fun input => ?_
    refine composed_require input fails fun hreturns => ?_
    refine composed_expect (input.contextual hreturns) fails rfl fun output => ?_
    refine composed_rpcType output part rfl rfl ?_
    simp only [Goal.made, openType, parenthesized, RegularExpression.matches'_mul, mul_assoc,
      le_refl]

theorem composed_rpcAfterOutput (h : Holds buffer Goal.rpcAfterOutput.made entry s)
    (part : entry.goal.part = .statement) : Composed buffer (s.rpcAfterOutput entry) := by
  have fails : Spoils buffer entry (failStatement entry .rpc) := spoils_failStatement part .rpc
  rw [rpcAfterOutput]
  split
  case isTrue => exact fails _ (h.spoil ⊤)
  case isFalse =>
    refine composed_expect h fails rfl fun closed => ?_
    have typed := closed.mono (mul_assoc _ (openType .rpcOutputType).matches' _).le
    split
    case h_1 hsemicolon =>
      exact (typed.just hsemicolon rfl).closeStatement part (mul_le_mul' le_rfl le_sup_left)
    case h_2 hbrace => exact composed_enterBody (typed.just hbrace rfl) part
    case h_3 => exact fails.report typed _

end ProtoFront
