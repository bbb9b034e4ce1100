import ProtoFront.Proofs.Grammar.Owed

/-!
# What comes first and what comes next

The parser decides by the next token or two. That is right since a construct begins with a token in
front of which its goal is ready, and since a part that may go on is never followed by a token with
which it would (`Part.follows`): the goal that waits for the part sees to that.
-/

namespace ProtoFront

open ParseState

variable {forms : List Form} {input : List Lexeme} {part : Part}

/-! ## First tokens -/

theorem startsType_of_word (h : Word (.named .name :: forms) input) :
    startsType (headKind input) = true := by
  rw [word_named, Nonterminal.rule, word_both, word_optional, word_both, word_identifier,
    word_just rfl] at h
  rcases h with ⟨hword, -⟩ | ⟨hdot, -⟩
  · rw [startsType, hword, Bool.true_or]
  · rw [startsType, hdot]
    rfl

/-- A type is required in front of the goal that reads its name. -/
theorem ParseState.owes_requireType {s : ParseState} {fail ok : ParseState → ParseState}
    {expected : List Expectation} (hfail : Fails fail)
    (hok : (ok s).Owes [] ↔ s.Owes (.named .name :: forms)) :
    (s.require (startsType s.kind) expected fail ok).Owes [] ↔ s.Owes (.named .name :: forms) := by
  rw [require]
  split
  case isTrue => exact hok
  case isFalse htest =>
    exact iff_of_false (not_owes_fail hfail) fun h => htest (startsType_of_word h.2)

theorem isFieldModifier_identifier {kind : TokenKind} (h : kind.isFieldModifier = true) :
    kind.isIdentifierLike = true := by
  cases kind with
  | keyword word => rfl
  | _ => cases h

theorem startsType_of_identifier {kind : TokenKind} (h : kind.isIdentifierLike = true) :
    startsType kind = true := by
  rw [startsType, h, Bool.true_or]

/-- A goal that begins a construct reads nothing but what it is ready for. -/
theorem Goal.ready_of_word (goal : Goal) (eager : goal.eager = true)
    (unnamed : ∀ tag?, goal ≠ .qualifiedName tag?)
    (h : Word (goal.form :: forms) input) : goal.ready (headKind input) = true := by
  cases goal with
  | syntaxLevel =>
    rw [form, word_named, Nonterminal.rule, word_both, word_either, word_just rfl,
      word_just rfl] at h
    rcases h with ⟨hkind, -⟩ | ⟨hkind, -⟩ <;> rw [hkind] <;> rfl
  | field =>
    rw [form, word_named, Nonterminal.rule, word_both, word_either, word_among rfl, word_ahead] at h
    rcases h with ⟨hmodifier, -⟩ | ⟨-, htype⟩
    · exact startsType_of_identifier (isFieldModifier_identifier hmodifier)
    · rw [word_both, word_either, Form.mapType, word_both, word_just rfl] at htype
      rcases htype with hname | ⟨hmap, -⟩
      · exact startsType_of_word hname
      · rw [hmap]
        rfl
  | enumValue =>
    rw [form, word_named, Nonterminal.rule, word_both, word_identifier] at h
    exact h.1
  | textList =>
    rw [form, word_named, Nonterminal.rule, word_either, word_both, word_both, word_just rfl,
      word_just rfl, word_just rfl, ← and_or_left] at h
    rw [h.1]
    rfl
  | textField =>
    rw [form, word_named, Nonterminal.rule, word_both, word_either, word_both, word_identifier,
      word_just rfl] at h
    rcases h with ⟨hword, -⟩ | ⟨hkind, -⟩
    · rw [ready, startsTextField, hword, Bool.true_or]
    · rw [hkind]
      rfl
  | textMessage pair =>
    rw [form, Form.textFields, word_both, word_just rfl] at h
    rw [ready, h.1, beq_self_eq_true]
  | qualifiedNameRest =>
    rw [form, word_both, word_just rfl] at h
    rw [ready, h.1, beq_self_eq_true]
  | qualifiedName tag? => exact absurd rfl (unnamed tag?)
  | importing | package | option | scope | extend | ranges | rpc | optionList =>
    rw [form, word_named, Nonterminal.rule, word_both, word_just rfl] at h
    rw [ready, h.1, beq_self_eq_true]
  | _ => cases eager

/-- No value begins with a closing bracket. -/
theorem isCloser_of_word (h : Word (.named .value :: forms) input) :
    (headKind input).isCloser = false := by
  have just {kind : TokenKind} {forms : List Form} (heof : (TokenKind.eof == kind) = false)
      (hkind : kind.isCloser = false) (hword : Word (.just kind :: forms) input) :
      (headKind input).isCloser = false := by
    rw [word_just heof] at hword
    rwa [hword.1]
  rw [word_named, Nonterminal.rule] at h
  repeat rw [word_either] at h
  rcases h with (((((hstring | hint) | hfloat) | hsigned) | hword) | hmessage) | hlist
  · rw [Form.strings, word_both] at hstring
    exact just rfl rfl hstring
  · exact just rfl rfl hint
  · exact just rfl rfl hfloat
  · rw [word_both, word_either] at hsigned
    exact hsigned.elim (just rfl rfl) (just rfl rfl)
  · rw [word_identifier] at hword
    cases hkind : headKind input with
    | closer pair =>
      rw [hkind] at hword
      exact absurd hword.1 (by rintro ⟨⟩)
    | _ => rfl
  · rw [word_named, Nonterminal.rule, word_either, Form.textFields, word_both, Form.textFields,
      word_both] at hmessage
    exact hmessage.elim (just rfl rfl) (just rfl rfl)
  · rw [word_named, Nonterminal.rule, word_either, word_both, word_both] at hlist
    exact hlist.elim (just rfl rfl) (just rfl rfl)

theorem ParseState.ready_of_owes {s : ParseState} (goal : Goal) (eager : goal.eager = true)
    (unnamed : ∀ tag?, goal ≠ .qualifiedName tag?) (h : s.Owes (goal.form :: forms)) :
    goal.ready s.kind = true :=
  goal.ready_of_word eager unnamed h.2

/-- The token that a goal begins with, if it is ready for that one only. -/
theorem ParseState.kind_of_owes {s : ParseState} (goal : Goal) {kind : TokenKind}
    (only : goal.ready = fun next => next == kind) (eager : goal.eager = true)
    (unnamed : ∀ tag?, goal ≠ .qualifiedName tag?) (h : s.Owes (goal.form :: forms)) :
    s.kind = kind := by
  have ready := ready_of_owes goal eager unnamed h
  rwa [only, beq_iff_eq] at ready

/-! ## Tokens behind a part -/

/-- The tokens that may follow a part. -/
def Part.follows : Part → TokenKind → Bool
  | name _, kind | nameTail, kind | optionName, kind | optionNamePart, kind => kind != .dot
  | value, kind | listOption, kind => kind != .stringLiteral
  | textField, kind => kind != .stringLiteral && !isTextSeparator kind
  | _, _ => true

theorem Part.follows_of_startsTextField {kind : TokenKind} (h : startsTextField kind = true) :
    Part.textField.follows kind = true := by
  cases kind with
  | identifier | keyword | scalar => rfl
  | opener pair => rfl
  | _ => cases h

theorem Part.follows_value {kind : TokenKind} (h : Part.textField.follows kind = true) :
    Part.value.follows kind = true :=
  (Bool.and_eq_true_iff.mp h).1

/-- Whatever waits for a part goes on with a token that may follow it. -/
theorem Awaited.follows {goals : List Pending} (h : Awaited part goals)
    (word : Word (goals.map fun entry => entry.goal.form) input) :
    part.follows (headKind input) = true := by
  induction goals generalizing part with
  | nil =>
    obtain rfl : part = .document := h
    rfl
  | cons next below ih =>
    obtain ⟨goal, origin, start, failed⟩ := next
    obtain ⟨awaits, hbelow⟩ := h
    rw [List.map_cons] at word
    dsimp only at awaits hbelow word
    -- a goal whose form begins with a certain token, and one that hands over at once
    have just {kind : TokenKind} {rest : Form} (heof : (TokenKind.eof == kind) = false)
        (hform : goal.form = .just kind ++ rest) : headKind input = kind := by
      rw [hform, word_both, word_just heof] at word
      exact word.1
    have lone {kind : TokenKind} (heof : (TokenKind.eof == kind) = false)
        (hform : goal.form = .just kind) : headKind input = kind := by
      rw [hform, word_just heof] at word
      exact word.1
    have nothing (hform : goal.form = .nothing) : goal.part.follows (headKind input) = true := by
      rw [hform, word_nothing] at word
      exact ih hbelow word
    cases goal with
    | packageEnd | optionEnd =>
      obtain rfl := Option.some.inj awaits
      rw [lone rfl rfl]
      rfl
    | optionAfterName | listOptionAfterName | optionNameExtensionEnd | extendAfterName
      | mapFieldAfterValue | rpcAfterInput | rpcAfterOutput =>
      obtain rfl := Option.some.inj awaits
      rw [just rfl rfl]
      rfl
    | optionNameEnd | listOptionEnd =>
      obtain rfl := Option.some.inj awaits
      exact nothing rfl
    | qualifiedNameEnd tag? =>
      obtain ⟨-, hpart⟩ := Option.ite_none_right_eq_some.mp awaits
      obtain rfl := Option.some.inj hpart
      exact nothing rfl
    | fieldAfterType =>
      obtain rfl := Option.some.inj awaits
      rw [Goal.form, Form.numbered, word_both, word_identifier] at word
      exact bne_iff_ne.mpr fun hdot => absurd word.1 (by rw [hdot]; decide)
    | textFieldEnd =>
      obtain rfl := Option.some.inj awaits
      rw [Goal.form, word_optional, word_either, word_just rfl, word_just rfl] at word
      rcases word with hword | ⟨hcomma, -⟩ | ⟨hsemicolon, -⟩
      · exact Part.follows_value (ih hbelow hword)
      · rw [hcomma]
        rfl
      · rw [hsemicolon]
        rfl
    | textMessageBody pair =>
      obtain rfl := Option.some.inj awaits
      rw [Goal.form, word_both, word_many, word_just (by rfl)] at word
      rcases word with ⟨hcloser, -⟩ | hfield
      · rw [hcloser]
        rfl
      · exact Part.follows_of_startsTextField
          (Goal.textField.ready_of_word rfl (by simp) hfield)
    | listAfterItem list failed =>
      rw [Goal.form, word_both, word_many, word_both, word_just rfl, word_just rfl] at word
      have hpart : part = .value ∨ part = .listOption := by
        cases list with
        | options => exact .inr (Option.some.inj awaits).symm
        | values => exact .inl (Option.some.inj awaits).symm
      rcases word with ⟨hkind, -⟩ | ⟨hkind, -⟩ <;> rcases hpart with rfl | rfl <;>
        rw [hkind] <;> rfl
    | file | fragmentBody | body =>
      obtain rfl := Option.some.inj awaits
      rfl
    | declarationEnd kind =>
      cases kind with
      | scope | extend | rpc =>
        obtain rfl := Option.some.inj awaits
        rfl
      | _ => cases awaits
    | statementEnd kind =>
      obtain ⟨-, hpart⟩ := Option.ite_none_right_eq_some.mp awaits
      obtain rfl := Option.some.inj hpart
      rfl
    | _ => cases awaits

/-- The token behind what is owed by the goals that wait for a part. -/
theorem ParseState.follows_of_owes {s : ParseState} (awaited : Awaited part s.pending)
    (h : s.Owes []) : part.follows s.kind = true := by
  refine awaited.follows ?_
  have hword := h.2
  rwa [List.nil_append, goals, List.map_map] at hword

end ProtoFront
