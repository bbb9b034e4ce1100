import ProtoFront.Proofs.Composition.Options
import ProtoFront.Proofs.Parse.Values

/-!
# What values are made of

A value is what `Production.value` says: strings, a number or a word, perhaps with a sign, or one
node. What is in that node is not looked at here.
-/

namespace ProtoFront

open ParseState Production

variable {buffer : TokenBuffer} {entry : Pending} {s t : ParseState}
variable {L : Language Item} {pair : Bracket} {item : Item}

/-! ## Scalars -/

theorem Production.mem_value
    (h : item ∈ [.token .intLiteral none, .token .floatLiteral none] ++ words) :
    [item] ∈ value.matches' := .inl (.inl (.inl (.inr (mem_oneOf.mpr h))))

theorem Production.mem_value_of_sign {sign : TokenKind} (hsign : sign = .minus ∨ sign = .plus)
    (h : item ∈ [.token .intLiteral none, .token .floatLiteral none] ++ identifiers) :
    [.token sign none, item] ∈ value.matches' := by
  refine .inl (.inl (.inr ⟨[.token sign none], ?_, [item], mem_oneOf.mpr h, rfl⟩))
  rcases hsign with rfl | rfl
  · exact .inl rfl
  · exact .inr rfl

/-- A number or an identifier behind a sign. -/
theorem ParseState.Reads.item_mem_signed (h : s.Reads buffer)
    (hkind : (s.kind.isNumber || s.kind == .identifier) = true) :
    s.item ∈ [.token .intLiteral none, .token .floatLiteral none] ++ identifiers := by
  cases kind : s.kind with
  | intLiteral =>
    rw [h.item_of_plain kind rfl]
    decide
  | floatLiteral =>
    rw [h.item_of_plain kind rfl]
    decide
  | identifier =>
    rw [item, kind]
    exact List.mem_append_right _ (mem_identifiers _)
  | _ =>
    rw [kind] at hkind
    cases hkind

theorem composed_value (h : Holds buffer 1 entry s) (goal : entry.goal = .value)
    (unflagged : entry.flagged = false) : Composed buffer s.value := by
  have part : entry.goal.part = .value := by rw [goal]; rfl
  have inner : entry.goal.part ≠ .document := by simp [part]
  have ends {L : Language Item} {t : ParseState} (adds : Adds buffer L s t)
      (made : L ≤ value.matches') : Composed buffer t := by
    refine (h.add adds).pass unflagged inner ?_
    rwa [one_mul, part]
  have scalar (there : s.kind ≠ .eof)
      (hitem : s.item ∈ [.token .intLiteral none, .token .floatLiteral none] ++ words) :
      Composed buffer s.take := by
    refine ends (.take h.reads there) ?_
    rintro _ rfl
    exact mem_value hitem
  have word (hword : s.kind.isIdentifierLike = true) : Composed buffer s.take :=
    scalar (TokenKind.ne_eof_of_isIdentifierLike hword)
      (List.mem_append_right _ (h.reads.item_mem_words hword))
  have signed {sign : TokenKind} (hkind : s.kind = sign) (hsign : sign = .minus ∨ sign = .plus) :
      Composed buffer (if (s.following.isNumber || s.following == .identifier) = true then
        s.take.take else s.missingValue) := by
    split
    case isTrue hfollowing =>
      have plain : sign.isPlain = true := by rcases hsign with rfl | rfl <;> rfl
      have first : Adds buffer (just sign).matches' s s.take := .just h.reads hkind plain
      have following : s.take.kind = s.following := s.kind_addLeaf none false
      rw [← following] at hfollowing
      have there : s.take.kind ≠ .eof := by
        intro heof
        rw [heof] at hfollowing
        cases hfollowing
      refine ends (first.trans (.take first.reads there)) ?_
      rintro _ ⟨_, rfl, _, rfl, rfl⟩
      exact mem_value_of_sign hsign (first.reads.item_mem_signed hfollowing)
    case isFalse => exact (h.report _).mark inner
  have composite (next : Goal) (hpart : next.part = .value) (fresh : [] ∈ next.made) :
      Composed buffer (s.pushGoal next) := by
    refine h.replace unflagged next (hpart.trans part.symm) inner ?_ fresh
    rw [one_mul]
  rw [ParseState.value]
  split
  case h_1 hkind => exact ends (.strings h.reads hkind) (le_sup_of_le_left (le_sup_of_le_left
    (le_sup_of_le_left le_sup_left)))
  case h_2 hkind =>
    exact scalar (s.kind_ne_eof hkind rfl) (by rw [h.reads.item_of_plain hkind rfl]; decide)
  case h_3 hkind =>
    exact scalar (s.kind_ne_eof hkind rfl) (by rw [h.reads.item_of_plain hkind rfl]; decide)
  case h_4 hkind => exact word (hkind ▸ rfl)
  case h_5 hkind => exact word (hkind ▸ rfl)
  case h_6 hkind => exact word (hkind ▸ rfl)
  case h_7 hkind => exact signed hkind (.inl rfl)
  case h_8 hkind => exact signed hkind (.inr rfl)
  case h_9 => exact composite (.textMessage .brace) rfl rfl
  case h_10 => exact composite (.textMessage .angle) rfl rfl
  case h_11 => exact composite .textList rfl rfl
  case h_12 => exact (h.report _).mark inner

/-! ## Text messages -/

theorem composed_textMessage (h : Holds buffer 1 entry s) (unflagged : entry.flagged = false)
    (ready : s.kind = .opener pair) : Composed buffer (s.textMessage pair entry) :=
  (h.just ready rfl).goOn (.textMessageBody pair) (fun _ => unflagged)
    (mul_le_someItems (.inr (singleton_le_someItems _)))

theorem composed_closeTextMessage (h : Holds buffer L entry s)
    (goal : entry.goal = .textMessageBody pair) (made : L ≤ someItems) :
    Composed buffer (s.closeTextMessage entry) := by
  refine (h.closeOver (some .textMessage) rfl (by simp [goal, Goal.part])
    (fun _ => by rw [goal]; rfl) made).composed ?_
  rw [goal]
  exact le_sup_of_le_left le_sup_right

theorem composed_textMessageJunk (h : Holds buffer L entry s)
    (goal : entry.goal = .textMessageBody pair) :
    Composed buffer (s.textMessageJunk pair entry) := by
  have junk {t : ParseState} (broken : Holds buffer someItems entry.broken t) :
      Composed buffer (if t.position = s.position then t.closeTextMessage entry.broken
        else t.resume entry.broken (.textMessageBody pair)) := by
    split
    case isTrue => exact composed_closeTextMessage broken goal le_rfl
    case isFalse => exact broken.goOn (.textMessageBody pair) (fun unflagged => unflagged) le_rfl
  have separated {t : ParseState} (broken : Holds buffer ⊤ entry.broken t) :
      Holds buffer someItems entry.broken (if isTextSeparator t.kind then t.discard else t) := by
    split
    case isTrue => exact (broken.addAny (.discard broken.reads)).spoil _
    case isFalse => exact broken.spoil _
  rw [textMessageJunk]
  by_cases hreported : s.reportedHere = true
  · rw [if_pos hreported]
    exact junk (separated ((h.spoil ⊤).addAny (.skipTo h.reads _)))
  · have reported := (h.report [.textFieldName]).spoil ⊤
    rw [if_neg hreported]
    exact junk (separated (reported.addAny (.recoverTo reported.reads _)))

theorem composed_textMessageBody (h : Holds buffer someItems entry s)
    (goal : entry.goal = .textMessageBody pair) :
    Composed buffer (s.textMessageBody pair entry) := by
  rw [textMessageBody]
  split
  case isTrue hclose =>
    exact composed_closeTextMessage (h.just hclose rfl) goal (mul_le_someItems (.inl le_rfl))
  case isFalse =>
    split
    case isTrue => exact composed_closeTextMessage ((h.report _).spoil someItems) goal le_rfl
    case isFalse =>
      split
      case isTrue =>
        refine h.delegate (.textMessageBody pair) .textField (fun unflagged => ?_) rfl
          (mul_le_someItems (.inl le_rfl)) rfl
        rw [Pending.flagged, goal]
        exact unflagged
      case isFalse => exact composed_textMessageJunk h goal

/-! ## Text fields -/

theorem composed_textFieldValue (h : Holds buffer someItems entry s)
    (goal : entry.goal = .textField) (unflagged : entry.flagged = false) :
    Composed buffer (s.textFieldValue entry) := by
  have inner : entry.goal.part ≠ .document := by simp [goal, Goal.part]
  have named : Holds buffer someItems entry (if (s.kind == .colon) = true then s.take else s) := by
    split
    case isTrue hcolon =>
      exact (h.just (beq_iff_eq.mp hcolon) rfl).mono (mul_le_someItems (.inl le_rfl))
    case isFalse => exact h
  rw [textFieldValue]
  generalize (if (s.kind == .colon) = true then s.take else s) = u at named ⊢
  dsimp only
  split
  case h_1 next hnext =>
    obtain ⟨begins, hpart, hcost⟩ := compositeGoal?_eq_some hnext
    refine named.delegate .textFieldEnd next (fun _ => unflagged) ?_
      (mul_le_someItems (.inl le_rfl)) (Goal.nil_mem_made hcost ?_)
    · rw [hpart]
      rfl
    · simp [hpart]
  case h_2 =>
    split
    case isTrue =>
      exact named.delegate .textFieldEnd .value (fun _ => unflagged) rfl
        (mul_le_someItems (.inl le_rfl)) rfl
    case isFalse =>
      have broken := (named.report [.token .colon]).spoil someItems
      split
      case isTrue =>
        exact broken.delegate .textFieldEnd .value (fun unflagged => unflagged) rfl
          (mul_le_someItems (.inl le_rfl)) rfl
      case isFalse => exact broken.composed_closeFailed _ inner rfl

theorem composed_textField (h : Holds buffer 1 entry s) (goal : entry.goal = .textField)
    (unflagged : entry.flagged = false) (ready : startsTextField s.kind = true) :
    Composed buffer (s.textField entry) := by
  have inner : entry.goal.part ≠ .document := by simp [goal, Goal.part]
  rw [textField]
  split
  case isTrue hopen =>
    have opened := h.just hopen rfl
    have run := opened.add (.takeAny opened.reads isExtensionNamePart)
    refine composed_expect run (fun _ broken => broken.composed_closeFailed _ inner rfl) rfl
      fun named => composed_textFieldValue (named.mono ?_) goal unflagged
    exact mul_le_someItems (.inr (singleton_le_someItems _))
  case isFalse hplain =>
    have hword : s.kind.isIdentifierLike = true :=
      (Bool.or_eq_true_iff.mp ready).resolve_right fun hopen => hplain (beq_iff_eq.mp hopen)
    have named := h.take (TokenKind.ne_eof_of_isIdentifierLike hword)
    exact composed_textFieldValue (named.mono (mul_le_someItems (.inr (singleton_le_someItems _))))
      goal unflagged

theorem composed_textFieldEnd (h : Holds buffer someItems entry s)
    (goal : entry.goal = .textFieldEnd) : Composed buffer (s.textFieldEnd entry) := by
  have closed := h.closeOver (some .textField) rfl (by simp [goal, Goal.part])
    (fun _ => by rw [goal]; rfl) le_rfl
  have reads := closed.reads
  rw [goal] at closed
  rw [textFieldEnd, closeTextField]
  split
  case isTrue =>
    exact (closed.add (.addLeaf_or_not reads none rfl false)).composed le_top
  case isFalse =>
    split
    case isTrue =>
      exact (closed.add (.addSynthetic reads .terminator rfl false)).composed le_top
    case isFalse => exact closed.composed le_top

end ProtoFront
