import ProtoFront.Proofs.Composition.Moves

/-!
# Tests, failures and the ends of statements

A construct that fails skips and is closed with a mark, and nothing is asked of it (`Spoils`). A
statement that ends well lacks only its semicolon, and perhaps its options, before it ends.
-/

namespace ProtoFront

open ParseState Production

variable {buffer : TokenBuffer} {entry : Pending} {s t : ParseState} {part : Part}
variable {L M : Language Item} {kind : DeclarationKind}
variable {fail ok : ParseState → ParseState} {expected : List Expectation}

/-! ## Failing -/

/-- What a construct does that fails. -/
def Spoils (buffer : TokenBuffer) (entry : Pending) (fail : ParseState → ParseState) : Prop :=
  ∀ s : ParseState, Holds buffer ⊤ entry.broken s → Composed buffer (fail s)

theorem Spoils.report (fails : Spoils buffer entry fail) (h : Holds buffer L entry s)
    (expected : List Expectation) : Composed buffer (fail (s.report expected)) :=
  fails _ ((h.report expected).spoil ⊤)

namespace Holds

/-- Nothing is asked of a part that is closed with a mark. -/
theorem composed_closeFailed (h : Holds buffer L entry s) (tag? : Option NodeKind)
    (inner : entry.goal.part ≠ .document) (failed : entry.failed = true) :
    Composed buffer (s.close entry tag?) :=
  (h.closeFailed tag? inner failed _).composed le_rfl

/-- More is added to a construct that has failed. -/
theorem addAny (h : Holds buffer ⊤ entry s) (adds : Adds buffer M s t) :
    Holds buffer ⊤ entry t :=
  (h.add adds).mono le_top

end Holds

theorem Goal.ne_document_of_statement {goal : Goal} (h : goal.part = .statement) :
    goal.part ≠ .document := by
  simp [h]

theorem spoils_failStatement (part : entry.goal.part = .statement) (kind : DeclarationKind) :
    Spoils buffer entry (failStatement entry kind) := by
  intro s h
  have inner : entry.broken.goal.part ≠ .document := Goal.ne_document_of_statement part
  have skipped := Adds.skipStatement h.reads entry.origin
  rw [failStatement]
  split
  case isTrue => exact (h.addAny skipped).composed_closeFailed _ inner rfl
  case isFalse => exact (h.addAny (skipped.resync _)).composed_closeFailed _ inner rfl

/-! ## Tests -/

theorem composed_require {test : Bool} (h : Holds buffer L entry s)
    (fails : Spoils buffer entry fail) (hok : test = true → Composed buffer (ok s)) :
    Composed buffer (s.require test expected fail ok) := by
  rw [require]
  split
  case isTrue passed => exact hok passed
  case isFalse => exact fails.report h _

theorem composed_expect {kind : TokenKind} (h : Holds buffer L entry s)
    (fails : Spoils buffer entry fail) (plain : kind.isPlain = true)
    (hok : ∀ {t}, Holds buffer (L * (just kind).matches') entry t → Composed buffer (ok t)) :
    Composed buffer (s.expect kind fail ok) :=
  composed_require h fails fun hkind => hok (h.just (beq_iff_eq.mp hkind) plain)

/-- One string or several. -/
theorem Adds.strings (reads : s.Reads buffer) (hkind : s.kind = .stringLiteral) :
    Adds buffer strings.matches' s (s.takeRun (· == .stringLiteral)) := by
  have first : Adds buffer (Production.just .stringLiteral).matches' s s.take :=
    .just reads hkind rfl
  obtain ⟨next, rest, hrest⟩ := exists_rest (s.kind_ne_eof hkind rfl)
  rw [takeRun_take hrest (by rw [← kind_of_rest hrest, hkind]; rfl)]
  exact first.trans (.takeRun first.reads rfl)

theorem composed_expectStrings (h : Holds buffer L entry s) (fails : Spoils buffer entry fail)
    (hok : ∀ {t}, Holds buffer (L * strings.matches') entry t → Composed buffer (ok t)) :
    Composed buffer (s.expectStrings fail ok) :=
  composed_require h fails fun hkind => hok (h.add (.strings h.reads (beq_iff_eq.mp hkind)))

/-! ## Nodes -/

/-- What is no declaration is closed over any items. -/
theorem Holds.closeOver (h : Holds buffer L entry s) (tag? : Option NodeKind)
    (bare : tag?.all NodeKind.isBare = true) (inner : entry.goal.part ≠ .document)
    (settled : entry.failed = false → entry.goal.carried = false) (made : L ≤ someItems) :
    Returns buffer entry.goal.part {[Item.closed tag?]} (s.close entry tag?) := by
  exact h.close tag? inner (fun unfailed => Pending.flagged_eq_false unfailed (settled unfailed))
    fun _ items hitems => ⟨made hitems,
      fun kind hkind => absurd hkind (NodeKind.ne_declaration bare kind),
      fun kind hkind named =>
        absurd named (Bool.eq_false_iff.mp (NodeKind.isName_eq_false bare hkind))⟩

/-! ## The ends of statements -/

/-- A declaration that has all its children is closed. -/
theorem Holds.closeDeclaration (h : Holds buffer L entry s) (inner : entry.goal.part ≠ .document)
    (carried : entry.goal.carried = false) (made : L ≤ kind.production.matches') :
    Returns buffer entry.goal.part {[.node (.declaration kind)]}
      (s.close entry (some (.declaration kind))) := by
  refine h.close _ inner (fun unfailed => Pending.flagged_eq_false unfailed carried)
    fun _ items hitems => ⟨?_, ?_, ?_⟩
  · rintro rfl
    exact kind.nil_notMem_production (made hitems)
  · rintro _ ⟨⟩
    exact made hitems
  · rintro _ ⟨⟩ ⟨⟩

theorem Holds.closeStatement (h : Holds buffer L entry s) (part : entry.goal.part = .statement)
    (made : L ≤ kind.production.matches') :
    Composed buffer (s.close entry (some (.declaration kind))) := by
  refine (h.closeDeclaration (Goal.ne_document_of_statement part)
    (Goal.carried_eq_false part) made).composed ?_
  rw [part]
  rintro _ rfl
  exact ⟨kind, rfl⟩

/-- The semicolon is the last child. -/
theorem DeclarationKind.closable_mul (kind : DeclarationKind) :
    kind.closable * (just .semicolon).matches' ≤ kind.production.matches' := by
  rintro _ ⟨items, hitems, _, rfl, rfl⟩
  exact hitems

theorem DeclarationKind.le_closable
    (h : L * (just .semicolon).matches' ≤ kind.production.matches') : L ≤ kind.closable :=
  fun _ hitems => h (Language.append_mem_mul hitems rfl)

theorem composed_endStatement (h : Holds buffer L entry s) (part : entry.goal.part = .statement)
    (made : L ≤ kind.closable) : Composed buffer (s.endStatement entry kind) := by
  refine composed_expect h (spoils_failStatement part kind) rfl fun ended => ?_
  exact ended.closeStatement part ((mul_le_mul' made le_rfl).trans kind.closable_mul)

/-- A statement that waited for its last part. -/
theorem composed_statementEnd (h : Holds buffer kind.closable entry s)
    (part : entry.goal.part = .statement) : Composed buffer (s.statementEnd kind entry) := by
  rw [statementEnd]
  split
  case isTrue => exact spoils_failStatement part kind _ (h.spoil ⊤)
  case isFalse => exact composed_endStatement h part le_rfl

/-- A statement waits for a part of it. -/
theorem Holds.wait (h : Holds buffer L entry s) (part : entry.goal.part = .statement)
    (goal next : Goal) (goes : goal.part = .statement) (awaits : goal.awaits? = some next.part)
    (made : L * next.part.yields ≤ goal.made) (fresh : [] ∈ next.made) :
    Composed buffer ((s.resume entry goal).pushGoal next) := by
  refine h.delegate goal next (fun unflagged => ?_) awaits made fresh
  rw [Pending.flagged, Goal.carried_eq_false part]
  rwa [Pending.flagged, Goal.carried_eq_false goes] at unflagged

theorem composed_optionsOrEnd (h : Holds buffer L entry s) (part : entry.goal.part = .statement)
    (plain : (NodeKind.declaration kind).isPlain = true)
    (made : L * ending.matches' ≤ kind.production.matches') :
    Composed buffer (s.optionsOrEnd kind entry) := by
  rw [optionsOrEnd]
  split
  case h_1 =>
    refine h.wait part (.statementEnd kind) .optionList rfl (if_pos plain) ?_ rfl
    rintro _ ⟨items, hitems, _, rfl, rfl⟩
    have options : [Item.group, .token .semicolon none] ∈ ending.matches' :=
      ⟨[.group], .inr rfl, [.token .semicolon none], rfl, rfl⟩
    have all := made (Language.append_mem_mul hitems options)
    rwa [← List.singleton_append, ← List.append_assoc] at all
  case h_2 hkind =>
    refine (h.just hkind rfl).closeStatement part (le_trans ?_ made)
    refine mul_le_mul' le_rfl ?_
    rintro _ rfl
    exact ⟨[], .inl rfl, _, rfl, rfl⟩
  case h_3 => exact (spoils_failStatement part kind).report h _

end ProtoFront
