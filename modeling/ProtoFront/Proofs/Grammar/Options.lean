import ProtoFront.Proofs.Grammar.Names
import ProtoFront.Parse.Options

/-!
# Options and lists are read as the grammar has them
-/

namespace ProtoFront

open ParseState

variable {entry : Pending} {s : ParseState} {list : ListKind} {failed : Bool}

/-! ## Option statements -/

theorem owes_optionStatement (hkind : s.kind = .keyword .kwOption) :
    (s.optionStatement entry).Owes [] ↔ s.Owes [.named .option] := by
  rw [optionStatement, owes_wait, owes_named, Nonterminal.rule, owes_both,
    owes_just_of_kind hkind rfl, owes_both]
  rfl

theorem owes_optionAfterName (unmarked : entry.failed = false) :
    (s.optionAfterName entry).Owes [] ↔ s.Owes [Goal.optionAfterName.form] := by
  rw [optionAfterName, unmarked, if_neg Bool.false_ne_true, Goal.form, owes_both]
  refine owes_expect rfl (fails_failStatement entry .option) fun _ => ?_
  rw [owes_wait, owes_both]
  rfl

theorem owes_statementEnd (kind : DeclarationKind) (unmarked : entry.failed = false) :
    (s.statementEnd kind entry).Owes [] ↔ s.Owes [.just .semicolon] := by
  rw [statementEnd, unmarked, if_neg Bool.false_ne_true, owes_endStatement]

/-! ## Lists -/

/-- A list after its first item. -/
theorem owes_listWait :
    ((s.resume entry (.listAfterItem list failed)).pushGoal list.item).Owes [] ↔
      s.Owes [list.form, .many (.just .comma ++ list.form), .just (.closer .square)] := by
  have hitem : list.item.form = list.form := by cases list <;> rfl
  rw [owes_wait, hitem, Goal.form, owes_both_behind]

theorem owes_listGoOn (separator : isListSeparator s.kind = true) :
    (s.listGoOn list failed entry).Owes [] ↔ s.Owes [(Goal.listAfterItem list failed).form] := by
  rw [Goal.form, owes_both, listGoOn]
  split
  case h_1 hcomma =>
    have stops : ¬s.Owes [.just (.closer .square)] := by
      rw [owes_just rfl, hcomma]
      exact fun h => absurd h.1 (by simp)
    rw [owes_listWait, owes_many_again stops, owes_both, owes_just_of_kind hcomma rfl]
  case h_2 hcloser =>
    have hcomma : s.kind ≠ .comma := by
      rw [hcloser]
      simp
    rw [owes_many_stop rfl hcomma, owes_just_of_kind hcloser rfl, owes_close]
  case h_3 hcomma hcloser =>
    rw [isListSeparator, Bool.or_eq_true_iff, beq_iff_eq, beq_iff_eq] at separator
    exact absurd separator (not_or.mpr ⟨hcomma, hcloser⟩)

theorem diagnostics_listGoOn : (s.listGoOn list failed entry).diagnostics = s.diagnostics := by
  rw [listGoOn]
  split
  · exact s.diagnostics_addLeaf none false
  · rw [diagnostics_close, take, diagnostics_addLeaf]
  · rw [diagnostics_close]

theorem owes_listAfterItem (unmarked : entry.failed = false) :
    (s.listAfterItem list failed entry).Owes [] ↔
      s.Owes [(Goal.listAfterItem list failed).form] := by
  rw [listAfterItem, unmarked, if_neg Bool.false_ne_true]
  split
  case isTrue separator => exact owes_listGoOn separator
  case isFalse separator =>
    -- neither an item nor the end of the list follows, which is reported
    have missing : ¬s.Owes [(Goal.listAfterItem list failed).form] := by
      rw [Goal.form, owes_both, owes_many, owes_both, owes_just rfl, owes_just rfl]
      rintro (⟨hcloser, -⟩ | ⟨hcomma, -⟩)
      · exact separator (by rw [hcloser]; rfl)
      · exact separator (by rw [hcomma]; rfl)
    refine iff_of_false ?_ missing
    have reported : ((s.report [.token .comma, .token (.closer .square)]).recoverTo
        isListSeparator).1.diagnostics ≠ #[] := by
      rw [diagnostics_recoverTo]
      exact s.diagnostics_report_ne _
    split
    case h_1 stuck hstuck =>
      rw [owes_close]
      rw [hstuck] at reported
      exact not_owes reported
    case h_2 found outcome _ hfound =>
      refine not_owes ?_
      rw [hfound] at reported
      rwa [diagnostics_listGoOn]

theorem owes_optionList (hkind : s.kind = .opener .square) :
    (s.optionList entry).Owes [] ↔ s.Owes [.named .optionList] := by
  rw [optionList, owes_named, Nonterminal.rule, owes_both, owes_just_of_kind hkind rfl, owes_both,
    Form.listed, owes_both]
  exact owes_listWait

theorem owes_textList (hkind : s.kind = .opener .square) :
    (s.textList entry).Owes [] ↔ s.Owes [.named .textList] := by
  rw [textList, owes_named, Nonterminal.rule, owes_either, owes_both, owes_both,
    owes_just_of_kind hkind rfl, owes_just_of_kind hkind rfl, owes_both, Form.listed, owes_both]
  split
  case isTrue hcloser =>
    rw [owes_close, owes_just_of_kind hcloser rfl]
    refine (or_iff_left fun h => ?_).symm
    have hvalue := isCloser_of_word h.2
    rw [← kind_eq, hcloser] at hvalue
    cases hvalue
  case isFalse hcloser =>
    rw [owes_just rfl, or_iff_right fun h => hcloser h.1]
    exact owes_listWait

/-! ## Options in a list -/

theorem owes_listOption : (s.listOption entry).Owes [] ↔ s.Owes [.named .listOption] := by
  rw [listOption, owes_wait, owes_named, Nonterminal.rule, owes_both]
  rfl

theorem owes_listOptionAfterName (unmarked : entry.failed = false) :
    (s.listOptionAfterName entry).Owes [] ↔ s.Owes [Goal.listOptionAfterName.form] := by
  rw [listOptionAfterName, unmarked, if_neg Bool.false_ne_true, Goal.form, owes_both]
  refine owes_expect rfl (fun _ => diagnostics_close _) fun _ => ?_
  rw [owes_wait]
  exact owes_nothing_behind

end ProtoFront
