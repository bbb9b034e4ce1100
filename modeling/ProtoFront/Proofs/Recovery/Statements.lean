import ProtoFront.Proofs.Recovery.Confined

/-!
# Recovery of statements

Every goal of a statement leaves the parser in the message, whether it goes on or fails: it reads no
brace unless a body begins or ends with it. So no statement, however it fails, reads the brace that
closes the body around it.
-/

namespace ProtoFront

open ParseState

variable {tail : List Lexeme} {outer below : List Goal} {entry : Pending} {s t : ParseState}

namespace Held

section
variable (h : Held tail outer below (bodies below) s)
include h

/-- A token of a certain kind that is no brace is read. -/
theorem takeKind {kind : TokenKind} (hkind : s.kind = kind) (plain : kind.isBrace = false) :
    Held tail outer below (bodies below) s.take :=
  h.take (by rwa [hkind])

theorem fail (expected : List Expectation) (entry : Pending) (kind : DeclarationKind) :
    Confined tail outer ((s.report expected).failStatement entry kind) :=
  ((h.report expected).failStatement entry kind).confined

/-! ## Ends of statements -/

theorem endStatement (entry : Pending) (kind : DeclarationKind) :
    Confined tail outer (s.endStatement entry kind) :=
  confined_expect (h.fail _ entry kind) fun hkind =>
    ((h.takeKind hkind rfl).close entry _).confined

theorem statementEnd (kind : DeclarationKind) (entry : Pending) :
    Confined tail outer (s.statementEnd kind entry) := by
  rw [ParseState.statementEnd]
  split
  · exact (h.failStatement entry kind).confined
  · exact h.endStatement entry kind

theorem optionsOrEnd (kind : DeclarationKind) (entry : Pending) :
    Confined tail outer (s.optionsOrEnd kind entry) := by
  rw [ParseState.optionsOrEnd]
  split
  case h_1 => exact ((h.resume entry rfl rfl).pushGoal rfl rfl).confined
  case h_2 hkind => exact ((h.takeKind hkind rfl).close entry _).confined
  case h_3 => exact h.fail _ entry kind

/-- A statement waits for a name. -/
theorem waitName (entry : Pending) {goal : Goal} (plain : goal.isPlain = true)
    (statement : goal.isBody = false) (tag? : Option NodeKind) :
    Confined tail outer ((s.resume entry goal).pushGoal (.qualifiedName tag?)) :=
  ((h.resume entry plain statement).pushGoal rfl rfl).confined

/-! ## Statements of files -/

theorem expectStrings {fail ok : ParseState → ParseState}
    (hfail : ∀ expected, Confined tail outer (fail (s.report expected)))
    (hok : ∀ t, Held tail outer below (bodies below) t → Confined tail outer (ok t)) :
    Confined tail outer (s.expectStrings fail ok) :=
  confined_require (hfail _) fun _ => hok _ <| h.takeRun fun _ hkind => by
    rw [beq_iff_eq.mp hkind]
    rfl

theorem syntaxLevel (plain : s.kind.isBrace = false) (entry : Pending) :
    Confined tail outer (s.syntaxLevel entry) := by
  have opened := h.take plain
  refine confined_expect (opened.fail _ entry _) fun hkind => ?_
  exact (opened.takeKind hkind rfl).expectStrings
    (fun _ => (opened.takeKind hkind rfl).fail _ entry _) fun _ ht => ht.endStatement entry _

theorem importing (plain : s.kind.isBrace = false) (entry : Pending) :
    Confined tail outer (s.importing entry) := by
  have opened := h.take plain
  rw [ParseState.importing]
  have modified := opened.takeIf (((s.take.atWord .wordPublic || s.take.atWord .wordWeak)
    && s.take.following == .stringLiteral) = true) fun hmodified => by
      rw [Bool.and_eq_true, Bool.or_eq_true] at hmodified
      exact hmodified.1.elim opened.isBrace_of_atWord opened.isBrace_of_atWord
  exact modified.expectStrings (fun _ => modified.fail _ entry _)
    fun _ ht => ht.endStatement entry _

theorem package (plain : s.kind.isBrace = false) (entry : Pending) :
    Confined tail outer (s.package entry) := by
  have opened := h.take plain
  exact confined_require (opened.fail _ entry _) fun _ => opened.waitName entry rfl rfl _

/-! ## Options -/

theorem optionStatement (plain : s.kind.isBrace = false) (entry : Pending) :
    Confined tail outer (s.optionStatement entry) :=
  (((h.take plain).resume entry rfl rfl).pushGoal rfl rfl).confined

theorem optionAfterName (entry : Pending) : Confined tail outer (s.optionAfterName entry) := by
  rw [ParseState.optionAfterName]
  split
  · exact (h.failStatement entry _).confined
  · refine confined_expect (h.fail _ entry _) fun hkind => ?_
    exact ((h.takeKind hkind rfl).resume entry rfl rfl).pushValue

theorem optionName (entry : Pending) : Confined tail outer (s.optionName entry) :=
  ((h.resume entry rfl rfl).pushGoal rfl rfl).confined

theorem optionNameDot : Confined tail outer s.optionNameDot := by
  rw [ParseState.optionNameDot]
  split
  case isTrue hkind => exact ((h.takeKind hkind rfl).pushGoal rfl rfl).confined
  case isFalse => exact h.confined

theorem optionNamePart : Confined tail outer s.optionNamePart := by
  rw [ParseState.optionNamePart]
  split
  case isTrue hword => exact (h.take (TokenKind.isBrace_of_isIdentifierLike hword)).optionNameDot
  case isFalse =>
    split
    case isTrue hparen =>
      have opened := h.takeKind hparen rfl
      dsimp only
      split
      · exact ((opened.pushGoal rfl rfl).pushGoal rfl rfl).confined
      · exact (opened.report _).markEnclosing.confined
    case isFalse => exact (h.report _).markEnclosing.confined

theorem optionNameExtensionEnd (entry : Pending) :
    Confined tail outer (s.optionNameExtensionEnd entry) := by
  rw [ParseState.optionNameExtensionEnd]
  split
  · exact h.markEnclosing.confined
  · exact confined_expect (h.report _).markEnclosing.confined fun hkind =>
      (h.takeKind hkind rfl).optionNameDot

theorem optionList (plain : s.kind.isBrace = false) (entry : Pending) :
    Confined tail outer (s.optionList entry) :=
  (((h.take plain).resume entry rfl rfl).pushGoal rfl rfl).confined

theorem listGoOn (failed : Bool) (entry : Pending) :
    Confined tail outer (s.listGoOn .options failed entry) := by
  rw [ParseState.listGoOn]
  split
  case h_1 hkind => exact (((h.takeKind hkind rfl).resume _ rfl rfl).pushGoal rfl rfl).confined
  case h_2 hkind => exact ((h.takeKind hkind rfl).close _ _).confined
  case h_3 => exact (h.close _ _).confined

theorem listAfterItem (failed : Bool) (entry : Pending) :
    Confined tail outer (s.listAfterItem .options failed entry) := by
  rw [ParseState.listAfterItem]
  split
  · exact (h.skipTo _).listGoOn true entry
  · split
    · exact h.listGoOn failed entry
    · have found := (h.report [.token .comma, .token (.closer .square)]).recoverTo isListSeparator
      split
      case h_1 hstuck =>
        rw [hstuck] at found
        exact (found.close _ _).confined
      case h_2 hfound =>
        rw [hfound] at found
        exact found.listGoOn true entry

theorem listOption (entry : Pending) : Confined tail outer (s.listOption entry) :=
  ((h.resume entry rfl rfl).pushGoal rfl rfl).confined

theorem listOptionAfterName (entry : Pending) :
    Confined tail outer (s.listOptionAfterName entry) := by
  rw [ParseState.listOptionAfterName]
  split
  · exact (h.close entry _).confined
  · refine confined_expect ((h.report _).close _ _).confined fun hkind => ?_
    exact ((h.takeKind hkind rfl).resume entry rfl rfl).pushValue

/-! ## Names -/

theorem qualifiedNameFirst (tag? : Option NodeKind) (entry : Pending) :
    Confined tail outer (s.qualifiedNameFirst tag? entry) := by
  rw [ParseState.qualifiedNameFirst]
  split
  case isTrue hword =>
    have named := h.take (TokenKind.isBrace_of_isIdentifierLike hword)
    dsimp only
    split
    · exact ((named.resume entry rfl rfl).pushGoal rfl rfl).confined
    · exact (named.close entry tag?).confined
  case isFalse => exact ((h.report _).close _ tag?).confined

theorem qualifiedName (tag? : Option NodeKind) (entry : Pending) :
    Confined tail outer (s.qualifiedName tag? entry) := by
  rw [ParseState.qualifiedName]
  split
  case isTrue hkind => exact (h.takeKind hkind rfl).qualifiedNameFirst tag? entry
  case isFalse =>
    split
    case isTrue hlone =>
      rw [Bool.and_eq_true] at hlone
      exact (h.addLeaf (TokenKind.isBrace_of_isIdentifierLike hlone.1) tag? false).confined
    case isFalse => exact h.qualifiedNameFirst tag? entry

theorem qualifiedNameRest (plain : s.kind.isBrace = false) :
    Confined tail outer s.qualifiedNameRest := by
  have dotted := h.take plain
  rw [ParseState.qualifiedNameRest]
  dsimp only
  split
  case isTrue hword =>
    have named := dotted.take (TokenKind.isBrace_of_isIdentifierLike hword)
    split
    · exact (named.pushGoal rfl rfl).confined
    · exact named.confined
  case isFalse => exact (dotted.report _).markEnclosing.confined

/-! ## Fields -/

theorem fieldNameAndNumber (kind : DeclarationKind) (entry : Pending) :
    Confined tail outer (s.fieldNameAndNumber kind entry) := by
  refine confined_require (h.fail _ entry kind) fun hword => ?_
  have named := h.takeAs (TokenKind.isBrace_of_isIdentifierLike hword) .name
  refine confined_expect (named.fail _ entry kind) fun hequals => ?_
  have equals := named.takeKind hequals rfl
  refine confined_expect (equals.fail _ entry kind) fun hnumber => ?_
  exact (equals.takeKind hnumber rfl).optionsOrEnd kind entry

theorem failMapField (entry : Pending) : Confined tail outer (s.failMapField entry) := by
  rw [ParseState.failMapField]
  have skipped := h.skipTo fun kind => kind == .closer .angle || kind == .semicolon
  split
  case isTrue hkind =>
    exact ((skipped.addLeaf (by rw [hkind]; rfl) none true).failStatement entry _).confined
  case isFalse => exact (skipped.failStatement entry _).confined

theorem mapField (word : s.kind.isBrace = false) (angle : s.take.kind.isBrace = false)
    (entry : Pending) : Confined tail outer (s.mapField entry) := by
  have opened := (h.take word).take angle
  refine confined_require ((opened.report _).failMapField entry) fun hkey => ?_
  have key := opened.takeAs (TokenKind.isBrace_of_isMapKeyType hkey) (.reference .mapKeyType)
  refine confined_expect ((key.report _).failMapField entry) fun hcomma => ?_
  have comma := key.takeKind hcomma rfl
  exact confined_require ((comma.report _).failMapField entry) fun _ =>
    comma.waitName entry rfl rfl _

theorem mapFieldAfterValue (entry : Pending) :
    Confined tail outer (s.mapFieldAfterValue entry) := by
  rw [ParseState.mapFieldAfterValue]
  split
  · exact h.failMapField entry
  · exact confined_expect ((h.report _).failMapField entry) fun hkind =>
      (h.takeKind hkind rfl).fieldNameAndNumber _ entry

theorem field (plain : s.kind.isBrace = false) (entry : Pending) :
    Confined tail outer (s.field entry) := by
  have modified := h.takeIf ((s.kind.isFieldModifier && startsType s.following) = true)
    fun _ => plain
  rw [ParseState.field]
  generalize (if (s.kind.isFieldModifier && startsType s.following) = true then s.take else s) =
    modifiedState at modified ⊢
  split
  case isTrue hmap =>
    refine modified.mapField (by rw [hmap.1]; rfl) ?_ entry
    rw [ParseState.take, kind_addLeaf, hmap.2]
    rfl
  case isFalse =>
    exact confined_require (modified.fail _ entry _) fun _ => modified.waitName entry rfl rfl _

theorem fieldAfterType (entry : Pending) : Confined tail outer (s.fieldAfterType entry) := by
  rw [ParseState.fieldAfterType]
  split
  · exact (h.failStatement entry _).confined
  · exact h.fieldNameAndNumber _ entry

/-! ## Numbers -/

theorem signedInteger {fail ok : ParseState → ParseState}
    (hfail : ∀ t, Held tail outer below (bodies below) t → Confined tail outer (fail t))
    (hok : ∀ t, Held tail outer below (bodies below) t → Confined tail outer (ok t)) :
    Confined tail outer (s.signedInteger fail ok) := by
  have signed := h.takeIf (s.kind = .minus) fun hkind => by rw [hkind]; rfl
  exact confined_expect (hfail _ (signed.report _)) fun hkind => hok _ (signed.takeKind hkind rfl)

theorem enumValue (entry : Pending) : Confined tail outer (s.enumValue entry) := by
  refine confined_require (h.fail _ entry _) fun hword => ?_
  have named := h.takeAs (TokenKind.isBrace_of_isIdentifierLike hword) .name
  refine confined_expect (named.fail _ entry _) fun hequals => ?_
  exact (named.takeKind hequals rfl).signedInteger
    (fun _ ht => (ht.failStatement entry _).confined) fun _ ht => ht.optionsOrEnd _ entry

theorem range {fail ok : ParseState → ParseState}
    (hfail : ∀ t, Held tail outer below (bodies below) t → Confined tail outer (fail t))
    (hok : ∀ t, Held tail outer below (bodies below) t → Confined tail outer (ok t)) :
    Confined tail outer (s.range fail ok) := by
  have done (t : ParseState) (ht : Held tail outer below (bodies below) t) : Confined tail outer
      (ok (t.addParent (some s.position) s.nodes.size (some .range) false)) :=
    hok _ (ht.congr rfl rfl)
  refine h.signedInteger hfail fun t ht => ?_
  dsimp only
  split
  case isTrue hto =>
    have upper := ht.take (ht.isBrace_of_atWord hto)
    split
    case isTrue hmax => exact done _ (upper.take (upper.isBrace_of_atWord hmax))
    case isFalse =>
      split
      · exact upper.signedInteger hfail done
      · exact hfail _ (upper.report _)
  case isFalse => exact done t ht

theorem rangesGoOn (kind : RangesKind) (entry : Pending) :
    Confined tail outer (s.rangesGoOn kind entry) := by
  unfold ParseState.rangesGoOn
  split
  case isTrue hkind => exact ((h.takeKind hkind rfl).resume entry rfl rfl).confined
  case isFalse =>
    split
    · exact h.optionsOrEnd _ entry
    · exact h.endStatement entry _

theorem rangesItem (kind : RangesKind) (entry : Pending) :
    Confined tail outer (s.rangesItem kind entry) := by
  have fails (t : ParseState) (ht : Held tail outer below (bodies below) t) :
      Confined tail outer (t.failStatement entry kind.declaration) :=
    (ht.failStatement entry _).confined
  have goesOn (t : ParseState) (ht : Held tail outer below (bodies below) t) :
      Confined tail outer (t.rangesGoOn kind entry) := ht.rangesGoOn kind entry
  unfold ParseState.rangesItem
  split
  case h_1 => exact h.range fails goesOn
  case h_2 => exact h.range fails goesOn
  case h_3 hkind => exact (h.takeKind hkind rfl).rangesGoOn _ entry
  case h_4 hkind => exact (h.takeKind hkind rfl).rangesGoOn _ entry
  case h_5 hkind => exact (h.takeKind hkind rfl).rangesGoOn _ entry
  case h_6 hkind => exact (h.takeKind hkind rfl).rangesGoOn _ entry
  case h_7 => exact h.fail _ entry _
  case h_8 => exact h.fail _ entry _

/-! ## Declarations with a body -/

theorem failScope (kind : ScopeKind) (entry : Pending) :
    Confined tail outer (s.failScope kind entry) := by
  have closed : Held tail outer below (bodies below)
      ((s.recoverStatement entry.origin).addSynthetic .scopeClose true) :=
    (h.recoverStatement entry.origin).congr rfl rfl
  exact (closed.close _ _).confined

theorem scope (plain : s.kind.isBrace = false) (kind : ScopeKind) (entry : Pending) :
    Confined tail outer (s.scope kind entry) := by
  have opened := h.take plain
  refine confined_require ((opened.report _).failScope kind entry) fun hword => ?_
  have named := opened.takeAs (TokenKind.isBrace_of_isIdentifierLike hword) .name
  exact confined_expect ((named.report _).failScope kind entry) fun hbrace =>
    named.enterBody hbrace _ entry

theorem extend (plain : s.kind.isBrace = false) (entry : Pending) :
    Confined tail outer (s.extend entry) := by
  have opened := h.take plain
  exact confined_require (opened.fail _ entry _) fun _ => opened.waitName entry rfl rfl _

theorem extendAfterName (entry : Pending) : Confined tail outer (s.extendAfterName entry) := by
  rw [ParseState.extendAfterName]
  split
  · exact (h.failStatement entry _).confined
  · exact confined_expect (h.fail _ entry _) fun hbrace => h.enterBody hbrace _ entry

theorem rpcType {after : Goal} (plain : after.isPlain = true) (statement : after.isBody = false)
    (kind : ReferenceKind) (entry : Pending) :
    Confined tail outer (s.rpcType after kind entry) := by
  have marked := h.takeIf ((s.atWord .wordStream && startsType s.following) = true)
    fun hstream => h.isBrace_of_atWord ((Bool.and_eq_true _ _).mp hstream).1
  exact confined_require (marked.fail _ entry _) fun _ => marked.waitName entry plain statement _

theorem rpc (plain : s.kind.isBrace = false) (entry : Pending) :
    Confined tail outer (s.rpc entry) := by
  have opened := h.take plain
  refine confined_require (opened.fail _ entry _) fun hword => ?_
  have named := opened.takeAs (TokenKind.isBrace_of_isIdentifierLike hword) .name
  exact confined_expect (named.fail _ entry _) fun hparen =>
    (named.takeKind hparen rfl).rpcType rfl rfl _ entry

theorem rpcAfterInput (entry : Pending) : Confined tail outer (s.rpcAfterInput entry) := by
  rw [ParseState.rpcAfterInput]
  split
  · exact (h.failStatement entry _).confined
  · refine confined_expect (h.fail _ entry _) fun hclose => ?_
    have closed := h.takeKind hclose rfl
    refine confined_require (closed.fail _ entry _) fun hreturns => ?_
    have returned := closed.take (closed.isBrace_of_atWord hreturns)
    exact confined_expect (returned.fail _ entry _) fun hparen =>
      (returned.takeKind hparen rfl).rpcType rfl rfl _ entry

theorem rpcAfterOutput (entry : Pending) : Confined tail outer (s.rpcAfterOutput entry) := by
  rw [ParseState.rpcAfterOutput]
  split
  · exact (h.failStatement entry _).confined
  · refine confined_expect (h.fail _ entry _) fun hclose => ?_
    have closed := h.takeKind hclose rfl
    split
    case h_1 hkind => exact ((closed.takeKind hkind rfl).close entry _).confined
    case h_2 hkind => exact closed.enterBody hkind _ entry
    case h_3 => exact closed.fail _ entry _

end

/-! ## Bodies -/

section
variable {again : Goal} (h : Held tail outer below (bodies below + 1) s)
variable (plain : again.isPlain = true) (body : again.isBody = true)
include h plain body

/-- A body goes on, perhaps after something in it. -/
theorem resumeBody (entry : Pending) :
    Held tail outer (again :: below) (bodies (again :: below)) (s.resume entry again) :=
  Held.wait (by rwa [bodies_cons_of_isBody body]) plain entry

theorem bodyJunk (closer : s.kind ≠ .closer .brace) (kind : BodyKind) (entry : Pending) :
    Confined tail outer (s.bodyJunk kind again entry) := by
  have skips {t : ParseState} (ht : Held tail outer below (bodies below + 1) t)
      (hkind : t.kind = s.kind) : Confined tail outer
      (((if t.kind.isOpener then t.skipGroup else t.discard).recoverStatement
        s.cursor.origin).resume entry.broken again) := by
    have skipped : Held tail outer below (bodies below + 1)
        (if t.kind.isOpener then t.skipGroup else t.discard) := by
      split
      case isTrue hopener => exact ht.skipGroup hopener
      case isFalse hopener =>
        refine ht.addLeaf (Bool.eq_false_iff.mpr fun hbrace => ?_) none true
        rcases TokenKind.isBrace_iff.mp hbrace with hbrace | hbrace
        · rw [hbrace] at hopener
          exact hopener rfl
        · exact closer (hkind ▸ hbrace)
    exact ((skipped.recoverStatement _).resumeBody plain body _).confined
  rw [ParseState.bodyJunk]
  by_cases hreported : s.reportedHere = true
  · rw [if_pos hreported]
    exact skips h rfl
  · rw [if_neg hreported]
    exact skips (h.report _) rfl

theorem bodyStatement (closer : s.kind ≠ .closer .brace) (kind : BodyKind) (entry : Pending) :
    Confined tail outer (s.bodyStatement kind again entry) := by
  rw [ParseState.bodyStatement]
  split
  case isTrue hkind =>
    exact (Held.resumeBody (h.take (by rw [hkind]; rfl)) plain body entry).confined
  case isFalse =>
    split
    case h_1 next hnext =>
      obtain ⟨-, part, -⟩ := statement?_eq_some hnext
      have hplain : next.isPlain = true := by rw [Goal.isPlain, part]; rfl
      have hstatement : next.isBody = false := by
        cases next with
        | body => cases part
        | _ => rfl
      exact ((h.resumeBody plain body entry).pushGoal hplain hstatement).confined
    case h_2 => exact h.bodyJunk plain body closer kind entry

end

end Held

end ProtoFront
