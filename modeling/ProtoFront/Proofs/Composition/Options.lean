import ProtoFront.Proofs.Composition.Recovery

/-!
# What options and lists are made of

An option is a name, an equals sign and a value, with the word and the semicolon of a statement or
without them. A list is closed over whatever its items are.
-/

namespace ProtoFront

open ParseState Production

variable {buffer : TokenBuffer} {entry : Pending} {s t : ParseState}
variable {L : Language Item} {list : ListKind} {failed : Bool}

/-! ## Option statements -/

theorem composed_optionStatement (h : Holds buffer 1 entry s) (goal : entry.goal = .option)
    (ready : s.kind = .keyword .kwOption) : Composed buffer (s.optionStatement entry) := by
  refine (h.just ready rfl).wait (by rw [goal]; rfl) .optionAfterName .optionName rfl rfl ?_ rfl
  rw [one_mul]
  exact le_rfl

theorem composed_optionAfterName (h : Holds buffer Goal.optionAfterName.made entry s)
    (goal : entry.goal = .optionAfterName) : Composed buffer (s.optionAfterName entry) := by
  have part : entry.goal.part = .statement := by rw [goal]; rfl
  rw [optionAfterName]
  split
  case isTrue => exact spoils_failStatement part .option _ (h.spoil ⊤)
  case isFalse =>
    refine composed_expect h (spoils_failStatement part .option) rfl fun assigned => ?_
    refine assigned.wait part .optionEnd .value rfl rfl (DeclarationKind.le_closable ?_) rfl
    exact le_sup_left

/-! ## Options in a list -/

theorem composed_listOption (h : Holds buffer 1 entry s) (unflagged : entry.flagged = false) :
    Composed buffer (s.listOption entry) := by
  refine h.delegate .listOptionAfterName .optionName (fun _ => unflagged) rfl ?_ rfl
  rw [one_mul]
  exact le_rfl

theorem composed_listOptionEnd (h : Holds buffer Goal.listOptionEnd.made entry s)
    (goal : entry.goal = .listOptionEnd) : Composed buffer (s.listOptionEnd entry) := by
  refine (h.closeDeclaration (by simp [goal, Goal.part]) (by rw [goal]; rfl) le_rfl).composed ?_
  rw [goal]
  exact le_rfl

theorem composed_listOptionAfterName (h : Holds buffer Goal.listOptionAfterName.made entry s)
    (goal : entry.goal = .listOptionAfterName) : Composed buffer (s.listOptionAfterName entry) := by
  have inner : entry.goal.part ≠ .document := by simp [goal, Goal.part]
  rw [listOptionAfterName]
  split
  case isTrue hfailed => exact h.composed_closeFailed _ inner hfailed
  case isFalse =>
    refine composed_expect h (fun _ spoiled => spoiled.composed_closeFailed _ inner rfl) rfl
      fun assigned => ?_
    refine assigned.delegate .listOptionEnd .value (fun unflagged => ?_) rfl le_sup_right rfl
    rw [Pending.flagged, goal]
    exact unflagged

/-! ## Lists -/

theorem composed_optionList (h : Holds buffer 1 entry s) (unflagged : entry.flagged = false)
    (ready : s.kind = .opener .square) : Composed buffer (s.optionList entry) :=
  (h.just ready rfl).delegate (.listAfterItem .options false) .listOption (fun _ => unflagged) rfl
    (mul_le_someItems (.inr (singleton_le_someItems _))) rfl

/-- What a list yields. -/
theorem ListKind.closed_le_yields (list : ListKind) (failed : Bool) :
    {[Item.closed list.tag?]} ≤ (Goal.listAfterItem list failed).part.yields := by
  cases list with
  | options => exact le_rfl
  | values => exact le_sup_right

theorem ListKind.isBare_tag (list : ListKind) : list.tag?.all NodeKind.isBare = true := by
  cases list <;> rfl

theorem ListKind.ne_document (list : ListKind) (failed : Bool) :
    (Goal.listAfterItem list failed).part ≠ .document := by
  cases list <;> simp [Goal.part]

theorem composed_textList (h : Holds buffer 1 entry s) (goal : entry.goal = .textList)
    (unflagged : entry.flagged = false) (ready : s.kind = .opener .square) :
    Composed buffer (s.textList entry) := by
  have opened := h.just ready rfl
  have made : 1 * (just (.opener .square)).matches' ≤ someItems :=
    mul_le_someItems (.inr (singleton_le_someItems _))
  rw [textList]
  split
  case isTrue hclose =>
    refine ((opened.just hclose rfl).closeOver _ (ListKind.isBare_tag .values)
      (by simp [goal, Goal.part]) (fun _ => by rw [goal]; rfl)
      (mul_le_someItems (.inl made))).composed ?_
    rw [goal]
    exact ListKind.closed_le_yields .values false
  case isFalse =>
    exact opened.delegate (.listAfterItem .values false) .value (fun _ => unflagged) rfl
      (mul_le_someItems (.inl made)) rfl

theorem ListKind.awaits_eq (list : ListKind) (failed : Bool) :
    (Goal.listAfterItem list failed).awaits? = some list.item.part := by
  cases list <;> rfl

theorem ListKind.nil_mem_made (list : ListKind) : [] ∈ list.item.made := by
  cases list <;> rfl

/-- The mark that a list carries is the one of an earlier item. -/
theorem composed_listGoOn {earlier : Bool} (h : Holds buffer someItems entry s)
    (goal : entry.goal = .listAfterItem list earlier)
    (clean : failed = false → entry.flagged = false) :
    Composed buffer (s.listGoOn list failed entry) := by
  have inner : entry.goal.part ≠ .document := by rw [goal]; exact list.ne_document earlier
  rw [listGoOn]
  split
  case h_1 hcomma =>
    exact (h.just hcomma rfl).delegateAs { entry with failed := false } rfl
      (.listAfterItem list failed) list.item (fun unflagged => clean unflagged)
      (list.awaits_eq failed) (mul_le_someItems (.inl (mul_le_someItems (.inl le_rfl))))
      list.nil_mem_made
  case h_2 hclose =>
    have closed : Holds buffer (someItems * (just (.closer .square)).matches')
        { entry with failed } s.take :=
      (h.just hclose rfl).remark rfl rfl fun unflagged =>
        clean (Bool.or_eq_false_iff.mp unflagged).1
    refine (closed.closeOver list.tag? list.isBare_tag inner (fun unfailed => ?_)
      (mul_le_someItems (.inl le_rfl))).composed ?_
    · exact (Bool.or_eq_false_iff.mp (clean unfailed)).2
    · rw [goal]
      exact list.closed_le_yields earlier
  case h_3 => exact (h.spoil ⊤).composed_closeFailed _ inner rfl

theorem composed_listAfterItem (h : Holds buffer someItems entry s)
    (goal : entry.goal = .listAfterItem list failed) :
    Composed buffer (s.listAfterItem list failed entry) := by
  have inner : entry.goal.part ≠ .document := by rw [goal]; exact list.ne_document failed
  have skipped {t : ParseState} (adds : Adds buffer ⊤ s t) : Holds buffer someItems entry t :=
    (h.add adds).mono (mul_le_someItems (.inl le_rfl))
  rw [listAfterItem]
  split
  case isTrue =>
    exact composed_listGoOn (skipped (.skipTo h.reads _)) goal
      fun hfalse => Bool.noConfusion hfalse
  case isFalse unfailed =>
    split
    case isTrue =>
      refine composed_listGoOn h goal fun hfailed => ?_
      exact Pending.flagged_eq_false (Bool.eq_false_iff.mpr unfailed) (by rw [goal]; exact hfailed)
    case isFalse =>
      have reported := h.report [.token .comma, .token (.closer .square)]
      have recovered := (reported.add (.recoverTo reported.reads isListSeparator)).mono
        (mul_le_someItems (.inl le_rfl))
      split
      case h_1 hgaveUp =>
        rw [hgaveUp] at recovered
        exact (recovered.spoil ⊤).composed_closeFailed _ inner rfl
      case h_2 hfound =>
        rw [hfound] at recovered
        exact composed_listGoOn recovered goal fun hfalse => Bool.noConfusion hfalse

end ProtoFront
