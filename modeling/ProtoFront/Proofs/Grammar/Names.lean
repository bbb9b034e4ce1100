import ProtoFront.Proofs.Grammar.First
import ProtoFront.Proofs.Parse.Names

/-!
# Names are read as the grammar has them
-/

namespace ProtoFront

open ParseState

variable {entry : Pending} {s : ParseState} {tag? : Option NodeKind} {forms : List Form}

theorem awaited_take {part : Part} (awaited : Awaited part s.pending) :
    Awaited part s.take.pending := by
  rwa [take, pending_addLeaf]

/-! ## Qualified names -/

/-- No dot follows a name, so dots are read as long as there are any. -/
theorem not_owes_of_dot {part : Part} (awaited : Awaited part s.pending)
    (hpart : part.follows .dot = false) (hkind : s.kind = .dot) : ¬s.Owes [] := by
  intro owes
  have follows := follows_of_owes awaited owes
  rw [hkind, hpart] at follows
  simp at follows

theorem owes_nameTail_of_dot (stops : ¬s.Owes []) (hkind : s.kind = .dot) :
    s.Owes [.nameTail] ↔ s.take.Owes [.identifier ++ .nameTail] := by
  rw [Form.nameTail, owes_many_again stops, owes_both, owes_just_of_kind hkind rfl, owes_both]

theorem owes_qualifiedNameRest_form (hkind : s.kind = .dot) :
    s.Owes (Goal.qualifiedNameRest.form :: forms) ↔
      s.take.Owes ((.identifier ++ .nameTail) :: forms) := by
  rw [Goal.form, owes_both, owes_just_of_kind hkind rfl]

theorem owes_qualifiedNameFirst (awaited : Awaited (.name tag?) s.pending) :
    (s.qualifiedNameFirst tag? entry).Owes [] ↔ s.Owes [.identifier ++ .nameTail] := by
  rw [qualifiedNameFirst, owes_both, owes_identifier]
  split
  case isTrue hword =>
    rw [and_iff_right hword]
    dsimp only
    split
    case isTrue hdot =>
      have stops := not_owes_of_dot (awaited_take awaited) rfl hdot
      rw [owes_wait, Goal.form, owes_nothing_behind, owes_qualifiedNameRest_form hdot,
        owes_nameTail_of_dot stops hdot]
    case isFalse hdot => rw [owes_close, Form.nameTail, owes_many_stop rfl hdot]
  case isFalse hword =>
    refine iff_of_false ?_ fun h => hword h.1
    rw [owes_close]
    exact not_owes_report

theorem owes_qualifiedName (awaited : Awaited (.name tag?) s.pending) :
    (s.qualifiedName tag? entry).Owes [] ↔ s.Owes [.named .name] := by
  rw [owes_named, Nonterminal.rule, owes_both, owes_optional, owes_just rfl, qualifiedName]
  split
  case isTrue hdot =>
    rw [owes_qualifiedNameFirst (awaited_take awaited), and_iff_right hdot]
    refine (or_iff_right fun h => ?_).symm
    rw [owes_both, owes_identifier, hdot] at h
    exact absurd h.1 (by decide)
  case isFalse hdot =>
    rw [or_iff_left fun h => hdot h.1]
    split
    case isTrue hlone =>
      -- a single identifier
      obtain ⟨hword, hnext⟩ := Bool.and_eq_true_iff.mp hlone
      rw [owes_both, owes_identifier, and_iff_right hword, Form.nameTail, owes_many_stop rfl]
      · exact owes_addLeaf.trans owes_addLeaf.symm
      · rw [take, kind_addLeaf]
        exact bne_iff_ne.mp hnext
    case isFalse => exact owes_qualifiedNameFirst awaited

theorem owes_qualifiedNameRest (awaited : Awaited .nameTail s.pending) (hkind : s.kind = .dot) :
    s.qualifiedNameRest.Owes [] ↔ s.Owes [Goal.qualifiedNameRest.form] := by
  rw [owes_qualifiedNameRest_form hkind, owes_both, owes_identifier, qualifiedNameRest]
  dsimp only
  split
  case isTrue hword =>
    rw [and_iff_right hword]
    split
    case isTrue hdot =>
      have stops := not_owes_of_dot (awaited_take (awaited_take awaited)) rfl hdot
      rw [owes_pushGoal, List.nil_append, owes_qualifiedNameRest_form hdot,
        owes_nameTail_of_dot stops hdot]
    case isFalse hdot => rw [Form.nameTail, owes_many_stop rfl hdot]
  case isFalse hword =>
    refine iff_of_false ?_ fun h => hword h.1
    rw [owes_markEnclosing]
    exact not_owes_report

/-! ## Names of options -/

theorem owes_optionName : (s.optionName entry).Owes [] ↔ s.Owes [.named .optionName] := by
  rw [optionName, owes_wait, owes_named]
  exact owes_nothing_behind

theorem owes_optionNameDot (awaited : Awaited .optionNamePart s.pending) :
    s.optionNameDot.Owes [] ↔ s.Owes [.many (.just .dot ++ .named .optionNamePart)] := by
  rw [optionNameDot]
  split
  case isTrue hdot =>
    have stops := not_owes_of_dot awaited rfl hdot
    rw [owes_pushGoal, owes_many_again stops, owes_both, owes_just_of_kind hdot rfl]
    rw [List.nil_append, Goal.form, Nonterminal.rule, owes_both]
  case isFalse hdot => rw [owes_many_stop rfl hdot]

theorem owes_optionNamePart (awaited : Awaited .optionNamePart s.pending) :
    s.optionNamePart.Owes [] ↔ s.Owes [Goal.optionNamePart.form] := by
  rw [Goal.form, Nonterminal.rule, owes_both, owes_named, Nonterminal.rule, owes_either,
    owes_identifier, owes_both, owes_just rfl, optionNamePart]
  split
  case isTrue hword =>
    rw [owes_optionNameDot (awaited_take awaited), and_iff_right hword]
    exact (or_iff_left fun h => absurd hword (by rw [h.1]; decide)).symm
  case isFalse hword =>
    rw [or_iff_right fun h => hword h.1]
    split
    case isTrue hparen =>
      rw [and_iff_right hparen]
      dsimp only
      split
      case isTrue hstart =>
        rw [owes_pushGoal, owes_pushGoal, owes_both]
        exact and_congr_right fun _ => word_congr fun _ => word_both
      case isFalse hstart =>
        refine iff_of_false ?_ fun h => hstart ?_
        · rw [owes_markEnclosing]
          exact not_owes_report
        · rw [owes_both] at h
          exact startsType_of_word h.2
    case isFalse hparen =>
      refine iff_of_false ?_ fun h => hparen h.1
      rw [owes_markEnclosing]
      exact not_owes_report

theorem owes_optionNameExtensionEnd (awaited : Awaited .optionNamePart s.pending)
    (unmarked : entry.failed = false) : (s.optionNameExtensionEnd entry).Owes [] ↔
      s.Owes [Goal.optionNameExtensionEnd.form] := by
  rw [optionNameExtensionEnd, unmarked, if_neg Bool.false_ne_true, Goal.form, owes_both]
  exact owes_expect rfl (fun _ => diagnostics_markEnclosing)
    fun _ => owes_optionNameDot (awaited_take awaited)

end ProtoFront
