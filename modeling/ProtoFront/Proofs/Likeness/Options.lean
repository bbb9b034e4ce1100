import ProtoFront.Parse.Options
import ProtoFront.Proofs.Grammar.Options
import ProtoFront.Proofs.Likeness.Recovery
import ProtoFront.Proofs.Recovery.Values

/-!
# Options and lists side by side

A list that does not find a separator may give up, and that depends on the guard. But it gives up
only if it has skipped nothing, and then it ends as if it had not given up. So the guard decides
nothing.
-/

namespace ProtoFront

open ParseState

variable {x : Likeness} {entry other : Pending} {s t : ParseState}

/-! ## Option statements -/

theorem answers_optionStatement (h : Abreast x entry s other t)
    (hkind : s.kind = .keyword .kwOption) :
    Answers x (s.optionStatement entry) (t.optionStatement other) :=
  ((h.take (by rw [hkind]; rfl)).wait _ _ rfl rfl).answers

theorem answers_optionAfterName (h : Abreast x entry s other t) :
    Answers x (s.optionAfterName entry) (t.optionAfterName other) := by
  rw [optionAfterName, optionAfterName, h.entries.failed]
  split
  case isTrue hfailed => exact answers_failStatement h hfailed _
  case isFalse =>
    exact answers_expect h (failsAlike_failStatement _) rfl fun _ equals =>
      (equals.wait _ _ rfl rfl).answers

theorem answers_statementEnd (h : Abreast x entry s other t) (kind : DeclarationKind) :
    Answers x (s.statementEnd kind entry) (t.statementEnd kind other) := by
  rw [statementEnd, statementEnd, h.entries.failed]
  split
  case isTrue hfailed => exact answers_failStatement h hfailed _
  case isFalse => exact answers_endStatement h kind

/-! ## Lists -/

theorem answers_optionList (h : Abreast x entry s other t) (hkind : s.kind = .opener .square) :
    Answers x (s.optionList entry) (t.optionList other) :=
  ((h.take (by rw [hkind]; rfl)).wait _ _ rfl rfl).answers

theorem answers_textList (h : Abreast x entry s other t) (hkind : s.kind = .opener .square) :
    Answers x (s.textList entry) (t.textList other) := by
  have opened := h.take (by rw [hkind]; rfl)
  rw [textList, textList, opened.kind_eq]
  split
  case isTrue hclosed => exact ((opened.addLeaf none false).close _).answers
  case isFalse => exact (opened.wait _ _ rfl rfl).answers

theorem ListKind.carried_item (list : ListKind) : list.item.carried = false := by
  cases list <;> rfl

/-- A list goes on behind a separator, or ends. -/
theorem answers_listGoOn (h : Abreast x entry s other t) (list : ListKind) {failed : Bool}
    (clean : ¬x.exact → failed = false ∧ isListSeparator s.kind = true) :
    Answers x (s.listGoOn list failed entry) (t.listGoOn list failed other) := by
  have unfailed (inexact : ¬x.exact) : failed = false := (clean inexact).1
  rw [listGoOn, listGoOn, h.kind_eq]
  split
  case h_1 hcomma =>
    have next : Abreast x { entry with failed := false } s.take { other with failed := false }
        t.take :=
      ⟨(h.take (by rw [hcomma]; rfl)).mark fun _ => rfl, (h.take (by rw [hcomma]; rfl)).ahead⟩
    exact ((next.resume (.listAfterItem list failed) unfailed).pushGoal _ list.carried_item).answers
  case h_2 => exact (((h.addLeaf none false).mark unfailed).close _).answers
  case h_3 hcomma hcloser =>
    have exact : x.exact := by
      by_contra inexact
      rcases Bool.or_eq_true_iff.mp (clean inexact).2 with hkind | hkind
      · exact hcomma (beq_iff_eq.mp hkind)
      · exact hcloser (beq_iff_eq.mp hkind)
    exact ((h.broken exact).close _).answers

/-- What a list does where no separator follows an item. If it gives up, it has skipped nothing, and
ends as it would without a separator anyway. -/
theorem ParseState.listAfterItem_eq {list : ListKind} {failed : Bool} {reported : ParseState}
    (hreported : s.report [.token .comma, .token (.closer .square)] = reported)
    (unmarked : entry.failed = false) (hkind : isListSeparator s.kind = false)
    (still : (reported.skipTo isListSeparator).position = reported.position →
      (reported.skipTo isListSeparator).kind = reported.kind) :
    s.listAfterItem list failed entry =
      (reported.recoverTo isListSeparator).1.listGoOn list true entry := by
  have hsame : isListSeparator reported.kind = false := by rwa [← hreported]
  rw [listAfterItem, unmarked, hkind, if_neg Bool.false_ne_true, if_neg Bool.false_ne_true,
    hreported]
  split
  case h_2 hfound => rw [hfound]
  case h_1 stuck hstuck =>
    have nowhere : (reported.skipTo isListSeparator).position = reported.position := by
      by_contra hmoved
      have houtcome := congrArg Prod.snd hstuck
      rw [recoverTo_advanced hmoved] at houtcome
      cases houtcome
    have hskipped : (reported.skipTo isListSeparator).kind = stuck.kind :=
      congrArg (fun result => result.1.kind) hstuck
    rw [← still nowhere, hskipped] at hsame
    rw [hstuck, listGoOn]
    split
    case h_1 hcomma => rw [hcomma] at hsame; cases hsame
    case h_2 hcloser => rw [hcloser] at hsame; cases hsame
    case h_3 => rfl

theorem ParseState.diagnostics_listAfterItem {list : ListKind} {failed : Bool}
    (unmarked : entry.failed = false) (hkind : isListSeparator s.kind = false) :
    (s.listAfterItem list failed entry).diagnostics =
      (s.report [.token .comma, .token (.closer .square)]).diagnostics := by
  have hsame := (s.report [.token .comma, .token (.closer .square)]).diagnostics_recoverTo
    isListSeparator
  rw [listAfterItem, unmarked, hkind, if_neg Bool.false_ne_true, if_neg Bool.false_ne_true]
  split
  case h_1 hstuck => rw [diagnostics_close, ← hsame, hstuck]
  case h_2 hfound => rw [diagnostics_listGoOn, ← hsame, hfound]

theorem answers_listAfterItem (h : Abreast x entry s other t) {list : ListKind} {failed : Bool}
    (goal : entry.goal = .listAfterItem list failed) :
    Answers x (s.listAfterItem list failed entry) (t.listAfterItem list failed other) := by
  have unfailed (inexact : ¬x.exact) : failed = false := by
    have hflagged := h.entries.unflagged inexact
    rw [Pending.flagged, goal, Bool.or_eq_false_iff] at hflagged
    exact hflagged.2
  rcases hmark : entry.failed with _ | _
  case true =>
    have exact := h.entries.exact_of_failed hmark
    rw [listAfterItem, listAfterItem, h.entries.failed, hmark, if_pos rfl, if_pos rfl]
    exact answers_listGoOn ((h.skipTo exact _).abreast exact) list fun inexact =>
      absurd exact inexact
  case false =>
    have hmark' : other.failed = false := h.entries.failed.trans hmark
    rcases hkind : isListSeparator s.kind with _ | _
    case true =>
      rw [listAfterItem, listAfterItem, h.kind_eq, hmark, hmark', hkind]
      exact answers_listGoOn h list fun inexact => ⟨unfailed inexact, hkind⟩
    case false =>
      have hkind' : isListSeparator t.kind = false := by rwa [h.kind_eq]
      by_cases exact : x.exact
      · have reported := (h.report exact [.token .comma, .token (.closer .square)]).abreast exact
        have skipped := (reported.skipTo exact isListSeparator).abreast exact
        have still (hposition : _ = _) :=
          reported.kind_eq_of_position (rest_skipTo_suffix _ isListSeparator)
            (endIndex_discardMany _ _) hposition
        rw [listAfterItem_eq rfl hmark hkind still, listAfterItem_eq rfl hmark' hkind']
        · exact answers_listGoOn ((reported.recoverTo exact _).abreast exact) list fun inexact =>
            absurd exact inexact
        · intro hposition
          rw [skipped.position_eq, reported.position_eq,
            (x.injective_of_exact exact).eq_iff] at hposition
          rw [skipped.kind_eq, reported.kind_eq, still hposition]
      · exact .inr (h.strays exact (diagnostics_listAfterItem hmark hkind)
          (diagnostics_listAfterItem hmark' hkind'))

/-! ## Options in a list -/

theorem answers_listOption (h : Abreast x entry s other t) :
    Answers x (s.listOption entry) (t.listOption other) :=
  (h.wait _ _ rfl rfl).answers

theorem answers_listOptionAfterName (h : Abreast x entry s other t) :
    Answers x (s.listOptionAfterName entry) (t.listOptionAfterName other) := by
  rw [listOptionAfterName, listOptionAfterName, h.entries.failed]
  split
  case isTrue => exact (h.close _).answers
  case isFalse =>
    exact answers_expect h (failsAlike_close _) rfl fun _ equals =>
      (equals.wait _ _ rfl rfl).answers

end ProtoFront
