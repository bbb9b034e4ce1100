import ProtoFront.Proofs.Grammar.Options
import ProtoFront.Proofs.Parse.Statements
import ProtoFront.Parse.Values

/-!
# Values are read as the grammar has them

A value is decided by its first token, a sign together with the token behind it. The values with
brackets are the same three whether they stand behind an equals sign or in a text message
(`owes_composite`).
-/

namespace ProtoFront

open ParseState

variable {entry : Pending} {s : ParseState} {forms : List Form} {pair : Bracket}

/-! ## Scalars -/

/-- What may stand behind a sign. -/
theorem owes_signed :
    s.Owes ((.just .intLiteral ||| .just .floatLiteral ||| .just .identifier) :: forms) ↔
    (s.kind.isNumber || s.kind == .identifier) = true ∧ s.take.Owes forms := by
  rw [owes_either, owes_either, owes_just rfl, owes_just rfl, owes_just rfl, ← or_and_right,
    ← or_and_right]
  refine and_congr_left fun _ => ?_
  cases s.kind <;> simp [TokenKind.isNumber]

theorem kind_of_owes_textFields (h : s.Owes (.textFields pair :: forms)) : s.kind = .opener pair :=
  beq_iff_eq.mp (ready_of_owes (.textMessage pair) rfl (by simp) h)

theorem kind_of_owes_textList (h : s.Owes (.named .textList :: forms)) :
    s.kind = .opener .square :=
  beq_iff_eq.mp (ready_of_owes .textList rfl (by simp) h)

/-- A value with brackets is what its opening bracket begins. -/
theorem owes_composite :
    (s.Owes (.named .textMessage :: forms) ∨ s.Owes (.named .textList :: forms)) ↔
    ∃ goal, compositeGoal? s.kind = some goal ∧ s.Owes (goal.form :: forms) := by
  rw [owes_named .textMessage, Nonterminal.rule, owes_either]
  constructor
  · rintro ((hbrace | hangle) | hlist)
    · exact ⟨.textMessage .brace, by rw [kind_of_owes_textFields hbrace]; rfl, hbrace⟩
    · exact ⟨.textMessage .angle, by rw [kind_of_owes_textFields hangle]; rfl, hangle⟩
    · exact ⟨.textList, by rw [kind_of_owes_textList hlist]; rfl, hlist⟩
  · rintro ⟨goal, hgoal, howes⟩
    unfold compositeGoal? at hgoal
    split at hgoal
    case h_1 =>
      obtain rfl := Option.some.inj hgoal
      exact .inl (.inl howes)
    case h_2 =>
      obtain rfl := Option.some.inj hgoal
      exact .inl (.inr howes)
    case h_3 =>
      obtain rfl := Option.some.inj hgoal
      exact .inr howes
    case h_4 => simp at hgoal

/-- The alternatives of a value. -/
theorem owes_value_iff : s.Owes (.named .value :: forms) ↔
    s.Owes (.strings :: forms) ∨
      s.kind.isNumber = true ∧ s.take.Owes forms ∨
      (s.kind = .minus ∨ s.kind = .plus) ∧
        (s.following.isNumber || s.following == .identifier) = true ∧ s.take.take.Owes forms ∨
      s.kind.isIdentifierLike = true ∧ s.take.Owes forms ∨
      ∃ goal, compositeGoal? s.kind = some goal ∧ s.Owes (goal.form :: forms) := by
  have hfollowing : s.following = s.take.kind := (s.kind_addLeaf none false).symm
  have number : s.kind.isNumber = true ↔ s.kind = .intLiteral ∨ s.kind = .floatLiteral := by
    cases s.kind <;> simp [TokenKind.isNumber]
  rw [owes_named, Nonterminal.rule]
  repeat rw [owes_either]
  rw [owes_both, owes_either, owes_just rfl, owes_just rfl, owes_just rfl, owes_just rfl,
    owes_signed, owes_identifier, ← hfollowing, number, ← owes_composite]
  simp only [or_and_right, or_assoc]

theorem not_owes_missingValue : ¬s.missingValue.Owes forms := by
  rw [missingValue, owes_markEnclosing]
  exact not_owes_report

theorem owes_value (awaited : Awaited .value s.pending) :
    s.value.Owes [] ↔ s.Owes [.named .value] := by
  have stops (rest : List Lexeme) (hword : Word ([] ++ s.goals.map Goal.form) rest) :
      headKind rest ≠ .stringLiteral := by
    rw [List.nil_append, goals, List.map_map] at hword
    exact bne_iff_ne.mp (awaited.follows hword)
  rw [owes_value_iff, owes_strings stops, value]
  generalize (s.following.isNumber || s.following == .identifier) = signed
  cases hkind : s.kind with
  | minus | plus =>
    cases signed <;>
      simp [not_owes_missingValue, TokenKind.isNumber, TokenKind.isIdentifierLike, compositeGoal?]
  | opener pair =>
    cases pair <;>
      simp [owes_pushGoal, not_owes_missingValue, TokenKind.isNumber, TokenKind.isIdentifierLike,
        compositeGoal?]
  | _ =>
    simp [not_owes_missingValue, TokenKind.isNumber, TokenKind.isIdentifierLike, compositeGoal?]

/-! ## Text fields -/

theorem owes_optionalColon {form : Form} :
    s.Owes ((.optional (.just .colon) ++ form) :: forms) ↔
      s.Owes (form :: forms) ∨ s.kind = .colon ∧ s.take.Owes (form :: forms) := by
  rw [owes_both, owes_optional, owes_just rfl]

theorem owes_textValue_iff : s.Owes (.textValue :: forms) ↔
    (∃ goal, compositeGoal? s.kind = some goal ∧ s.Owes (goal.form :: forms)) ∨
      s.kind = .colon ∧ s.take.Owes (.named .value :: forms) := by
  have composite (h : s.take.Owes (.named .textMessage :: forms) ∨
      s.take.Owes (.named .textList :: forms)) : s.take.Owes (.named .value :: forms) :=
    owes_value_iff.mpr (.inr (.inr (.inr (.inr (owes_composite.mp h)))))
  rw [Form.textValue, owes_either, owes_either, owes_optionalColon, owes_optionalColon, owes_both,
    owes_just rfl, ← owes_composite]
  constructor
  · rintro (((hmessage | ⟨hcolon, hmessage⟩) | (hlist | ⟨hcolon, hlist⟩)) | ⟨hcolon, hvalue⟩)
    · exact .inl (.inl hmessage)
    · exact .inr ⟨hcolon, composite (.inl hmessage)⟩
    · exact .inl (.inr hlist)
    · exact .inr ⟨hcolon, composite (.inr hlist)⟩
    · exact .inr ⟨hcolon, hvalue⟩
  · rintro ((hmessage | hlist) | ⟨hcolon, hvalue⟩)
    · exact .inl (.inl (.inl hmessage))
    · exact .inl (.inr (.inl hlist))
    · exact .inr ⟨hcolon, hvalue⟩

/-- What an opening bracket begins is the only value that does. -/
theorem owes_value_of_composite {goal : Goal} (h : compositeGoal? s.kind = some goal) :
    s.Owes (.named .value :: forms) ↔ s.Owes (goal.form :: forms) := by
  rw [owes_value_iff, Form.strings, owes_both, owes_just rfl, h]
  have hkind : ∃ pair, s.kind = .opener pair := by
    cases hkind : s.kind with
    | opener pair => exact ⟨pair, rfl⟩
    | _ => exact absurd (hkind ▸ h) (by rintro ⟨⟩)
  obtain ⟨pair, hkind⟩ := hkind
  simp [hkind, TokenKind.isNumber, TokenKind.isIdentifierLike]

/-- Behind a colon any value may stand, else one with brackets. -/
theorem owes_textFieldValue : (s.textFieldValue entry).Owes [] ↔
    s.Owes [.textValue, Goal.textFieldEnd.form] := by
  rw [owes_textValue_iff, textFieldValue]
  by_cases hcolon : s.kind = .colon
  · have bare : compositeGoal? s.kind = none := by rw [hcolon]; rfl
    rw [or_iff_right (not_owes_chosen bare), and_iff_right hcolon, hcolon]
    simp only [beq_self_eq_true, if_true]
    split
    case h_1 goal hgoal => rw [owes_wait, owes_value_of_composite hgoal]
    case h_2 => exact owes_wait ..
  · rw [or_iff_left fun h => hcolon h.1]
    simp only [beq_eq_false_iff_ne.mpr hcolon, Bool.false_eq_true, if_false]
    split
    case h_1 goal hgoal => rw [owes_wait, owes_chosen hgoal]
    case h_2 hgoal =>
      refine iff_of_false ?_ (not_owes_chosen hgoal)
      split
      · rw [owes_wait]
        exact not_owes_report
      · rw [closeTextField, owes_close]
        exact not_owes_report

theorem owes_textField (ready : startsTextField s.kind = true) :
    (s.textField entry).Owes [] ↔ s.Owes [.named .textField] := by
  rw [textField, owes_named, Nonterminal.rule, owes_both, owes_either, owes_both,
    owes_identifier, owes_just rfl]
  split
  case isTrue hsquare =>
    have unnamed : s.kind.isIdentifierLike ≠ true := by
      rw [hsquare]
      decide
    rw [or_iff_right fun h => unnamed h.1, and_iff_right hsquare, owes_both]
    have stops (rest : List Lexeme) (hword : Word
        ([.just (.closer .square), .textValue ++ Goal.textFieldEnd.form] ++
          s.take.goals.map Goal.form) rest) : isExtensionNamePart (headKind rest) = false := by
      rw [List.cons_append, word_just rfl] at hword
      rw [hword.1]
      rfl
    refine Iff.trans ?_ (owes_takeRun rfl stops)
    refine owes_expect rfl (fun _ => diagnostics_close _) fun _ => ?_
    rw [owes_textFieldValue, owes_both]
    rfl
  case isFalse hsquare =>
    rw [or_iff_left fun h => hsquare h.1, owes_textFieldValue, owes_both]
    refine (and_iff_right ?_).symm
    rw [startsTextField, Bool.or_eq_true_iff, beq_iff_eq] at ready
    exact ready.resolve_right hsquare

theorem owes_take_close (tag? : Option NodeKind) :
    (s.close entry tag?).take.Owes forms ↔ s.take.Owes forms := by
  rw [take, owes_addLeaf, take, owes_addLeaf, diagnostics_close, goals_close, cursor_close]

theorem owes_textFieldEnd (awaited : Awaited .textField s.pending) :
    (s.textFieldEnd entry).Owes [] ↔ s.Owes [Goal.textFieldEnd.form] := by
  have hkind : (s.closeTextField entry).kind = s.kind := by
    rw [closeTextField, kind_eq, cursor_close, ← kind_eq]
  have separators : isTextSeparator s.kind = true ↔ s.kind = .comma ∨ s.kind = .semicolon := by
    rw [isTextSeparator, Bool.or_eq_true_iff, beq_iff_eq, beq_iff_eq]
  rw [Goal.form, owes_optional, owes_either, owes_just rfl, owes_just rfl, ← or_and_right,
    ← separators, textFieldEnd, hkind]
  split
  case isTrue hseparator =>
    rw [and_iff_right hseparator, closeTextField, owes_take_close]
    refine (or_iff_right fun owes => ?_).symm
    have follows := follows_of_owes awaited owes
    rw [Part.follows, hseparator, Bool.not_true, Bool.and_false] at follows
    simp at follows
  case isFalse hseparator =>
    rw [or_iff_left fun h => hseparator h.1]
    split
    · exact owes_close _
    · exact owes_close _

/-! ## Text messages -/

theorem owes_textMessage (hkind : s.kind = .opener pair) :
    (s.textMessage pair entry).Owes [] ↔ s.Owes [.textFields pair] := by
  rw [textMessage, owes_resume, Form.textFields, owes_both, owes_just_of_kind hkind rfl]
  rfl

/-- Something in a text message that is no field has been reported, here or before. -/
theorem diagnostics_textMessageJunk : (s.textMessageJunk pair entry).diagnostics ≠ #[] := by
  have separated (t : ParseState) (ht : t.diagnostics ≠ #[]) :
      (if isTextSeparator t.kind then t.discard else t).diagnostics ≠ #[] := by
    split
    · rwa [ParseState.discard, diagnostics_addLeaf]
    · exact ht
  have ended (t : ParseState) (ht : t.diagnostics ≠ #[]) : (if t.position = s.position then
      t.closeTextMessage entry.broken
      else t.resume entry.broken (.textMessageBody pair)).diagnostics ≠ #[] := by
    split
    · rwa [closeTextMessage, diagnostics_close]
    · exact ht
  rw [textMessageJunk]
  refine ended _ (separated _ ?_)
  split
  case isTrue hreported =>
    rw [diagnostics_skipTo]
    exact diagnostics_ne_of_reportedHere hreported
  case isFalse =>
    rw [diagnostics_recoverTo]
    exact s.diagnostics_report_ne _

theorem owes_textMessageBody : (s.textMessageBody pair entry).Owes [] ↔
    s.Owes [(Goal.textMessageBody pair).form] := by
  have first : s.Owes [.named .textField, .many (.named .textField), .just (.closer pair)] →
      startsTextField s.kind = true := ready_of_owes .textField rfl (by simp)
  rw [Goal.form, owes_both, owes_many, owes_just rfl, textMessageBody]
  split
  case isTrue hcloser =>
    rw [closeTextMessage, owes_close, and_iff_right hcloser]
    refine (or_iff_left fun h => absurd (first h) ?_).symm
    rw [hcloser]
    rintro ⟨⟩
  case isFalse hcloser =>
    rw [or_iff_right fun h => hcloser h.1]
    split
    case isTrue heof =>
      refine iff_of_false ?_ fun h => absurd (first h) ?_
      · rw [closeTextMessage, owes_close]
        exact not_owes_report
      · rw [heof]
        decide
    case isFalse =>
      split
      case isTrue =>
        rw [owes_wait, Goal.form, Goal.form, owes_both_behind]
      case isFalse hstart =>
        exact iff_of_false (not_owes diagnostics_textMessageJunk) fun h => hstart (first h)

end ProtoFront
