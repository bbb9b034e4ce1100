import ProtoFront.Proofs.Composition.Recovery

/-!
# What names are made of

A name becomes a node, or a leaf, of the kind that is asked for. The parts of the name of an option
are left to the goal that waits for them; what a parenthesis begins waits for a name in turn.
-/

namespace ProtoFront

open ParseState Production

variable {buffer : TokenBuffer} {entry : Pending} {s t : ParseState}
variable {L : Language Item} {tag? : Option NodeKind}

/-! ## Qualified names -/

/-- A name is not empty. -/
theorem NodeKind.spells_le_someItems (tag? : Option NodeKind) :
    NodeKind.spells tag? ≤ someItems := by
  rcases tag? with _ | kind
  · exact le_rfl
  · intro items hitems hnil
    exact kind.nil_notMem_spelling (hnil ▸ hitems)

/-- Words with dots between them are a name. -/
theorem dotted_le_spells (named : tag?.all NodeKind.isName = true) :
    dotted.matches' ≤ NodeKind.spells tag? := by
  rcases tag? with _ | kind
  · exact NodeKind.spells_le_someItems (some .name)
  · cases kind with
    | name => exact le_rfl
    | reference kind => exact le_mul_of_one_le_left' le_sup_left
    | _ => cases named

/-- What is referred to may have a dot in front. -/
theorem dot_dotted_le_spells (named : tag?.all NodeKind.isName = true) (h : tag? ≠ some .name) :
    (just .dot).matches' * dotted.matches' ≤ NodeKind.spells tag? := by
  rcases tag? with _ | kind
  · exact mul_le_someItems (.inl (singleton_le_someItems _))
  · cases kind with
    | name => exact absurd rfl h
    | reference kind => exact mul_le_mul' le_sup_right le_rfl
    | _ => cases named

/-- A name over its parts. -/
theorem composed_closeName (h : Holds buffer L entry s) (part : entry.goal.part = .name tag?)
    (carried : entry.goal.carried = false) (named : tag?.all NodeKind.isName = true)
    (made : L ≤ NodeKind.spells tag?) : Composed buffer (s.close entry tag?) := by
  refine (h.close tag? (by simp [part])
    (fun unfailed => Pending.flagged_eq_false unfailed carried)
    fun _ items hitems => ⟨?_, ?_, ?_⟩).composed ?_
  · exact NodeKind.spells_le_someItems tag? (made hitems)
  · rintro kind rfl
    cases named
  · rintro kind rfl -
    exact made hitems
  · rw [part]
    cases tag? with
    | none => exact singleton_le_someItems _
    | some kind => exact le_rfl

/-- One word alone. -/
theorem word_le_dotted {item : Item} (h : item ∈ words) : {[item]} ≤ dotted.matches' := by
  rintro _ rfl
  exact ⟨[item], mem_oneOf.mpr h, [], Language.nil_mem_kstar _, rfl⟩

/-- A word and what is behind its dot. -/
theorem word_mul_le_dotted {item : Item} (h : item ∈ words) :
    {[item]} * (just .dot * oneOf words).star.matches' ≤ dotted.matches' := by
  refine mul_le_mul' ?_ le_rfl
  rintro _ rfl
  exact mem_oneOf.mpr h

/-- A dot and a word go on with a name. -/
theorem dot_word_le {item : Item} (h : item ∈ words) :
    (just .dot).matches' * {[item]} ≤ (just .dot * oneOf words).matches' := by
  refine mul_le_mul' le_rfl ?_
  rintro _ rfl
  exact mem_oneOf.mpr h

theorem composed_qualifiedNameFirst (h : Holds buffer L entry s)
    (goal : entry.goal = .qualifiedName tag?) (unflagged : entry.flagged = false)
    (named : tag?.all NodeKind.isName = true) (plain : tag?.all NodeKind.isPlain = true)
    (made : L * dotted.matches' ≤ NodeKind.spells tag?) :
    Composed buffer (s.qualifiedNameFirst tag? entry) := by
  have part : entry.goal.part = .name tag? := by rw [goal]; rfl
  have inner : entry.goal.part ≠ .document := by simp [part]
  rw [qualifiedNameFirst]
  split
  case isTrue hword =>
    have first := h.take (TokenKind.ne_eof_of_isIdentifierLike hword)
    have word := h.reads.item_mem_words hword
    dsimp only
    split
    case isTrue =>
      refine first.delegate (.qualifiedNameEnd tag?) .qualifiedNameRest (fun _ => unflagged)
        (if_pos plain) ?_ rfl
      rw [mul_assoc]
      exact (mul_le_mul' le_rfl (word_mul_le_dotted word)).trans made
    case isFalse =>
      refine composed_closeName first part (by rw [goal]; rfl) named ?_
      exact (mul_le_mul' le_rfl (word_le_dotted word)).trans made
  case isFalse => exact ((h.report _).spoil ⊤).composed_closeFailed tag? inner rfl

theorem composed_qualifiedName (h : Holds buffer (Goal.qualifiedName tag?).made entry s)
    (goal : entry.goal = .qualifiedName tag?) (unflagged : entry.flagged = false)
    (ready : (Goal.qualifiedName tag?).ready s.kind = true) :
    Composed buffer (s.qualifiedName tag? entry) := by
  obtain ⟨plain, begins⟩ := Bool.and_eq_true_iff.mp ready
  have inner : entry.goal.part ≠ .document := by simp [goal, Goal.part]
  by_cases named : tag?.all NodeKind.isName = true
  · rw [Goal.made, if_pos named] at h
    have made : 1 * dotted.matches' ≤ NodeKind.spells tag? := by
      rw [one_mul]
      exact dotted_le_spells named
    rw [qualifiedName]
    split
    case isTrue hdot =>
      -- the names that a dot cannot be in front of begin with a word
      have referred : tag? ≠ some .name := by
        rintro rfl
        rw [if_pos rfl, hdot] at begins
        cases begins
      refine composed_qualifiedNameFirst (h.just hdot rfl) goal unflagged named plain ?_
      rw [one_mul]
      exact dot_dotted_le_spells named referred
    case isFalse =>
      split
      case isTrue lone =>
        have hword := (Bool.and_eq_true_iff.mp lone).1
        cases tag? with
        | none =>
          have leaf := h.take (TokenKind.ne_eof_of_isIdentifierLike hword)
          refine leaf.pass unflagged inner ?_
          rw [one_mul, goal]
          exact singleton_le_someItems _
        | some kind =>
          refine (h.takeAs hword kind named).pass unflagged inner ?_
          rw [one_mul, goal]
          exact le_rfl
      case isFalse => exact composed_qualifiedNameFirst h goal unflagged named plain made
  · rw [Goal.made, if_neg named] at h
    exact (h.not_holds_nothing unflagged).elim

/-- Only names have a spelling. -/
theorem NodeKind.spells_eq_zero (unnamed : ¬tag?.all NodeKind.isName = true) :
    NodeKind.spells tag? = 0 := by
  rcases tag? with _ | kind
  · exact absurd rfl unnamed
  · cases kind <;> first | rfl | exact absurd rfl unnamed

theorem composed_qualifiedNameEnd (h : Holds buffer (Goal.qualifiedNameEnd tag?).made entry s)
    (goal : entry.goal = .qualifiedNameEnd tag?) : Composed buffer (s.close entry tag?) := by
  have part : entry.goal.part = .name tag? := by rw [goal]; rfl
  by_cases named : tag?.all NodeKind.isName = true
  · exact composed_closeName h part (by rw [goal]; rfl) named le_rfl
  · rw [Goal.made, NodeKind.spells_eq_zero named] at h
    refine h.composed_closeFailed tag? (by simp [part]) ?_
    by_contra unfailed
    refine h.not_holds_nothing (Pending.flagged_eq_false (Bool.eq_false_iff.mpr unfailed) ?_)
    rw [goal]
    rfl

/-- The parts behind the first are left to the name. -/
theorem composed_qualifiedNameRest (h : Holds buffer 1 entry s)
    (goal : entry.goal = .qualifiedNameRest) (unflagged : entry.flagged = false)
    (ready : s.kind = .dot) : Composed buffer s.qualifiedNameRest := by
  have inner : entry.goal.part ≠ .document := by simp [goal, Goal.part]
  have dotted := h.just ready rfl
  rw [one_mul] at dotted
  rw [qualifiedNameRest]
  dsimp only
  split
  case isTrue hword =>
    have named := (dotted.take (TokenKind.ne_eof_of_isIdentifierLike hword)).mono
      (dot_word_le (dotted.reads.item_mem_words hword))
    split
    case isTrue =>
      refine named.replace unflagged .qualifiedNameRest (by rw [goal]) inner ?_ rfl
      rw [goal]
      exact mul_kstar_le_kstar
    case isFalse =>
      refine named.pass unflagged inner ?_
      rw [goal]
      exact le_kstar
  case isFalse => exact (dotted.report _).mark inner

/-! ## Names of options -/

theorem composed_optionName (h : Holds buffer 1 entry s) (unflagged : entry.flagged = false) :
    Composed buffer (s.optionName entry) :=
  h.delegate .optionNameEnd .optionNamePart (fun _ => unflagged) rfl
    (mul_le_someItems (.inr le_rfl)) rfl

theorem composed_optionNameDot (h : Holds buffer L entry s)
    (part : entry.goal.part = .optionNamePart) (unflagged : entry.flagged = false)
    (made : L ≤ someItems) : Composed buffer s.optionNameDot := by
  have inner : entry.goal.part ≠ .document := by simp [part]
  rw [optionNameDot]
  split
  case isTrue hdot =>
    refine (h.just hdot rfl).replace unflagged .optionNamePart part.symm inner ?_ rfl
    rw [part]
    exact mul_le_someItems (.inr le_rfl)
  case isFalse =>
    refine h.pass unflagged inner ?_
    rwa [part]

theorem composed_optionNamePart (h : Holds buffer 1 entry s) (goal : entry.goal = .optionNamePart)
    (unflagged : entry.flagged = false) : Composed buffer s.optionNamePart := by
  have part : entry.goal.part = .optionNamePart := by rw [goal]; rfl
  have inner : entry.goal.part ≠ .document := by simp [part]
  rw [optionNamePart]
  split
  case isTrue hword =>
    exact composed_optionNameDot (h.take (TokenKind.ne_eof_of_isIdentifierLike hword)) part
      unflagged (mul_le_someItems (.inr (singleton_le_someItems _)))
  case isFalse =>
    split
    case isTrue hparen =>
      have opened := h.just hparen rfl
      dsimp only
      split
      case isTrue =>
        -- the goal behind the parenthesis begins here, with nothing of its own
        have extension := opened.handOver unflagged .optionNameExtensionEnd part.symm inner (by
          rw [part]
          exact mul_le_someItems (.inr le_rfl))
        exact extension.delegate .optionNameExtensionEnd (.qualifiedName none) (fun _ => rfl) rfl
          (mul_le_someItems (.inr le_rfl)) rfl
      case isFalse => exact (opened.report _).mark inner
    case isFalse => exact (h.report _).mark inner

theorem composed_optionNameExtensionEnd (h : Holds buffer someItems entry s)
    (goal : entry.goal = .optionNameExtensionEnd) :
    Composed buffer (s.optionNameExtensionEnd entry) := by
  have part : entry.goal.part = .optionNamePart := by rw [goal]; rfl
  have inner : entry.goal.part ≠ .document := by simp [part]
  rw [optionNameExtensionEnd]
  split
  case isTrue => exact h.mark inner
  case isFalse unfailed =>
    have unflagged : entry.flagged = false :=
      Pending.flagged_eq_false (Bool.eq_false_iff.mpr unfailed) (by rw [goal]; rfl)
    refine composed_expect h (fun _ spoiled => spoiled.mark inner) rfl fun closed => ?_
    exact composed_optionNameDot closed part unflagged (mul_le_someItems (.inl le_rfl))

theorem composed_optionNameEnd (h : Holds buffer someItems entry s)
    (goal : entry.goal = .optionNameEnd) :
    Composed buffer (s.close entry (some .optionName)) := by
  refine (h.closeOver (some .optionName) rfl (by simp [goal, Goal.part])
    (fun _ => by rw [goal]; rfl) le_rfl).composed ?_
  rw [goal]
  exact le_rfl

end ProtoFront
