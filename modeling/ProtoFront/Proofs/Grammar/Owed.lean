import ProtoFront.Proofs.Grammar.Words
import ProtoFront.Proofs.Parse.Recovery

/-!
# What a state still has to read

Each goal stands for a form: what is left of its construct (`Goal.form`). So a state owes what its
goals stand for. `ParseState.Owes` says that nothing has been reported yet and that the rest of the
input is what the parser has to read, some forms first and then what the stack asks for. A test that
the parser makes decides what the rest has to begin with.
-/

namespace ProtoFront

/-- The items of a list. -/
def ListKind.form : ListKind → Form
  | options => .named .listOption
  | values => .named .value

open Form in
/-- What a goal has to read. -/
def Goal.form : Goal → Form
  | file => many (named .topLevel)
  | fragmentBody kind => many (named (.statement (.scope kind)))
  | body kind => bodyRest kind
  | syntaxLevel => named .syntaxLevel
  | importing => named .importing
  | package => named .package
  | option => named .option
  | optionAfterName => just .equals ++ (named .value ++ just .semicolon)
  | packageEnd | optionEnd | statementEnd _ => just .semicolon
  | optionName => named .optionName
  | optionNamePart => Nonterminal.optionName.rule
  | optionNameExtensionEnd => just (.closer .paren) ++ many (just .dot ++ named .optionNamePart)
  | optionNameEnd | listOptionEnd | declarationEnd _ | qualifiedNameEnd _ => nothing
  | optionList => named .optionList
  | listOption => named .listOption
  | listOptionAfterName => just .equals ++ named .value
  | textList => named .textList
  | listAfterItem list _ => many (just .comma ++ list.form) ++ just (.closer .square)
  | scope kind => named (.scope kind)
  | extend => named .extend
  | extendAfterName => just (.opener .brace) ++ bodyRest .extend
  | field => named .field
  | fieldAfterType => numbered
  | mapFieldAfterValue => just (.closer .angle) ++ numbered
  | enumValue => named .enumValue
  | ranges kind => named (.ranges kind)
  | rangesItem kind => listed (Form.rangesItem kind) ++ rangesEnd kind
  | rpc => named .rpc
  | rpcAfterInput => just (.closer .paren) ++ (word .wordReturns ++ (rpcType ++ rpcEnd))
  | rpcAfterOutput => just (.closer .paren) ++ rpcEnd
  | value => named .value
  | textMessage pair => textFields pair
  | textMessageBody pair => many (named .textField) ++ just (.closer pair)
  | textField => named .textField
  | textFieldEnd => optional (just .comma ||| just .semicolon)
  | qualifiedName _ => named .name
  | qualifiedNameRest => just .dot ++ (identifier ++ nameTail)

namespace ParseState

/-- Nothing has been reported, and the rest of the input is a word of the forms and, behind them, of
the goals on the stack. -/
def Owes (s : ParseState) (forms : List Form) : Prop :=
  s.diagnostics = #[] ∧ Word (forms ++ s.goals.map Goal.form) s.cursor.rest

variable {s t : ParseState} {entry : Pending} {form first second left right : Form}
variable {forms : List Form} {kind : TokenKind} {test : TokenKind → Bool}

theorem not_owes (h : s.diagnostics ≠ #[]) : ¬s.Owes forms :=
  fun owes => h owes.1

/-! ## Forms -/

theorem owes_nothing : s.Owes (.nothing :: forms) ↔ s.Owes forms :=
  and_congr_right fun _ => word_nothing

/-- Nothing is owed by a construct that is only to be closed. -/
theorem owes_nothing_behind : s.Owes [form, .nothing] ↔ s.Owes [form] :=
  and_congr_right fun _ => word_congr fun _ => word_nothing

theorem owes_both : s.Owes ((first ++ second) :: forms) ↔ s.Owes (first :: second :: forms) :=
  and_congr_right fun _ => word_both

theorem owes_both_behind : s.Owes (form :: (first ++ second) :: forms) ↔
    s.Owes (form :: first :: second :: forms) :=
  and_congr_right fun _ => word_congr fun _ => word_both

theorem owes_either : s.Owes ((left ||| right) :: forms) ↔
    s.Owes (left :: forms) ∨ s.Owes (right :: forms) :=
  (and_congr_right fun _ => word_either).trans and_or_left

theorem owes_many : s.Owes (.many form :: forms) ↔
    s.Owes forms ∨ s.Owes (form :: .many form :: forms) :=
  (and_congr_right fun _ => word_many).trans and_or_left

theorem owes_optional : s.Owes (.optional form :: forms) ↔
    s.Owes forms ∨ s.Owes (form :: forms) :=
  (and_congr_right fun _ => word_optional).trans and_or_left

theorem owes_named (nonterminal : Nonterminal) : s.Owes (.named nonterminal :: forms) ↔
    s.Owes (nonterminal.rule :: forms) :=
  and_congr_right fun _ => word_named nonterminal

/-- A leaf takes one lexeme from the input. -/
theorem owes_addLeaf {tag? : Option NodeKind} {failed : Bool} :
    (s.addLeaf tag? failed).Owes forms ↔
      s.diagnostics = #[] ∧ Word (forms ++ s.goals.map Goal.form) s.cursor.rest.tail := by
  rw [Owes, diagnostics_addLeaf, goals_addLeaf, rest_addLeaf]

theorem kind_eq (s : ParseState) : s.kind = headKind s.cursor.rest := rfl

theorem following_eq (s : ParseState) : s.following = headKind s.cursor.rest.tail := by
  rw [← s.kind_addLeaf none false, kind_eq, rest_addLeaf]

theorem owes_ahead {test : TokenKind → TokenKind → Bool} : s.Owes (.ahead test :: forms) ↔
    test s.kind s.following = true ∧ s.Owes forms := by
  rw [Owes, List.cons_append, word_ahead, ← kind_eq, ← following_eq, and_left_comm, Owes]

theorem owes_among (heof : test .eof = false) : s.Owes (.among test :: forms) ↔
    test s.kind = true ∧ s.take.Owes forms := by
  rw [Owes, List.cons_append, word_among heof, ← kind_eq, take, owes_addLeaf, and_left_comm]

theorem owes_just (heof : (TokenKind.eof == kind) = false) : s.Owes (.just kind :: forms) ↔
    s.kind = kind ∧ s.take.Owes forms := by
  rw [Form.just, owes_among heof, beq_iff_eq]

theorem owes_identifier : s.Owes (.identifier :: forms) ↔
    s.kind.isIdentifierLike = true ∧ s.take.Owes forms :=
  owes_among rfl

theorem owes_word {word : ContextWord} : s.Owes (.word word :: forms) ↔
    s.atWord word = true ∧ s.take.Owes forms := by
  rw [Owes, List.cons_append, word_word, take, owes_addLeaf, and_left_comm, atWord, beq_iff_eq]
  rfl

/-- A lexeme that is known to be there. -/
theorem owes_just_of_kind (hkind : s.kind = kind) (heof : (TokenKind.eof == kind) = false) :
    s.Owes (.just kind :: forms) ↔ s.take.Owes forms := by
  rw [owes_just heof, and_iff_right hkind]

theorem owes_many_stop (heof : (TokenKind.eof == kind) = false) (hkind : s.kind ≠ kind) :
    s.Owes (.many (.just kind ++ form) :: forms) ↔ s.Owes forms := by
  rw [owes_many, owes_both, owes_just heof]
  exact or_iff_left fun h => hkind h.1

theorem owes_many_again (stops : ¬s.Owes forms) :
    s.Owes (.many form :: forms) ↔ s.Owes (form :: .many form :: forms) := by
  rw [owes_many]
  exact or_iff_right stops

/-! ## The stack -/

/-- A goal that the next tokens choose is the only one. -/
theorem owes_chosen {choice : Option Goal} {goal : Goal} (h : choice = some goal) :
    (∃ other, choice = some other ∧ s.Owes (other.form :: forms)) ↔
      s.Owes (goal.form :: forms) := by
  constructor
  · rintro ⟨other, hother, owes⟩
    obtain rfl := Option.some.inj (h.symm.trans hother)
    exact owes
  · exact fun owes => ⟨goal, h, owes⟩

theorem not_owes_chosen {choice : Option Goal} (h : choice = none) :
    ¬∃ other, choice = some other ∧ s.Owes (other.form :: forms) := by
  rintro ⟨other, hother, -⟩
  cases h.symm.trans hother

/-- What a state owes depends on what has been reported, on the goals and on the input. -/
theorem owes_congr (diagnostics : t.diagnostics = s.diagnostics) (goals : t.goals = s.goals)
    (cursor : t.cursor = s.cursor) : t.Owes forms ↔ s.Owes forms := by
  rw [Owes, Owes, diagnostics, goals, cursor]

theorem owes_markEnclosing : s.markEnclosing.Owes forms ↔ s.Owes forms :=
  owes_congr diagnostics_markEnclosing goals_markEnclosing s.cursor_markEnclosing

theorem owes_addParent (token? : Option Nat) (start : Nat) (tag? : Option NodeKind)
    (failed : Bool) : (s.addParent token? start tag? failed).Owes forms ↔ s.Owes forms :=
  owes_congr rfl rfl rfl

theorem owes_takeAs (tag : NodeKind) : (s.takeAs tag).Owes forms ↔ s.take.Owes forms :=
  owes_addLeaf.trans owes_addLeaf.symm

theorem owes_close (tag? : Option NodeKind) : (s.close entry tag?).Owes forms ↔ s.Owes forms :=
  owes_congr (diagnostics_close tag?) (goals_close tag?) (s.cursor_close entry tag?)

/-- A goal on the stack is owed behind everything else. -/
theorem owes_resume (goal : Goal) :
    (s.resume entry goal).Owes forms ↔ s.Owes (forms ++ [goal.form]) := by
  rw [Owes, Owes, List.append_assoc]
  rfl

theorem owes_pushGoal (goal : Goal) :
    (s.pushGoal goal).Owes forms ↔ s.Owes (forms ++ [goal.form]) := by
  rw [Owes, Owes, List.append_assoc]
  rfl

/-- What is left of a construct is owed behind the part that it waits for. -/
theorem owes_wait (goal next : Goal) :
    ((s.resume entry goal).pushGoal next).Owes [] ↔ s.Owes [next.form, goal.form] := by
  rw [owes_pushGoal, owes_resume]
  rfl

theorem owes_enterBody (kind : BodyKind) :
    (s.enterBody kind entry).Owes [] ↔ s.Owes [Form.bodyRest kind] := by
  rw [enterBody, owes_resume, owes_resume]
  exact owes_nothing_behind

/-! ## Runs of tokens -/

theorem owes_takeMany (n : Nat) : (takeMany n s).Owes forms ↔
    s.diagnostics = #[] ∧ Word (forms ++ s.goals.map Goal.form) (s.cursor.rest.drop n) := by
  induction n generalizing s with
  | zero => rfl
  | succ n ih =>
    rw [takeMany, ih, take, diagnostics_addLeaf, goals_addLeaf, rest_addLeaf, List.drop_tail]

/-- Tokens that pass a test are read as long as there are any, if none may follow them. -/
theorem owes_takeRun (heof : test .eof = false)
    (stops : ∀ rest, Word (forms ++ s.goals.map Goal.form) rest → test (headKind rest) = false) :
    (s.takeRun test).Owes forms ↔ s.Owes (.many (.among test) :: forms) := by
  rw [takeRun, owes_takeMany, Owes, List.cons_append, word_many_among heof stops]

/-- Strings in a row are read as one, if none may follow them. -/
theorem owes_strings (stops : ∀ rest, Word (forms ++ s.goals.map Goal.form) rest →
      headKind rest ≠ .stringLiteral) : s.Owes (.strings :: forms) ↔
    s.kind = .stringLiteral ∧ (s.takeRun (· == .stringLiteral)).Owes forms := by
  rw [Form.strings, owes_both, owes_just rfl]
  refine and_congr_right fun hkind => ?_
  have run : (s.takeRun (· == .stringLiteral)).Owes forms ↔
      s.Owes (.many (.just .stringLiteral) :: forms) :=
    owes_takeRun rfl fun rest hword => beq_eq_false_iff_ne.mpr (stops rest hword)
  rw [run]
  have more : ¬s.Owes forms := fun owes => stops _ owes.2 hkind
  rw [owes_many_again more, owes_just_of_kind hkind rfl]

/-! ## Failing -/

@[simp] theorem diagnostics_discardMany (n : Nat) (s : ParseState) :
    (discardMany n s).diagnostics = s.diagnostics := by
  induction n generalizing s with
  | zero => rfl
  | succ n ih => rw [discardMany, ih, discard, diagnostics_addLeaf]

@[simp] theorem diagnostics_skipTo (stop : TokenKind → Bool) :
    (s.skipTo stop).diagnostics = s.diagnostics :=
  diagnostics_discardMany _ s

@[simp] theorem diagnostics_skipStatement (origin : Origin) :
    (s.skipStatement origin).diagnostics = s.diagnostics := by
  rw [skipStatement]
  split
  · rw [take, diagnostics_addLeaf, diagnostics_discardMany]
  · rw [diagnostics_discardMany]

@[simp] theorem diagnostics_recoverStatement (origin : Origin) :
    (s.recoverStatement origin).diagnostics = s.diagnostics :=
  diagnostics_skipStatement origin

@[simp] theorem diagnostics_recoverTo (stop : TokenKind → Bool) :
    (s.recoverTo stop).1.diagnostics = s.diagnostics :=
  diagnostics_skipTo stop

@[simp] theorem diagnostics_failStatement (kind : DeclarationKind) :
    (s.failStatement entry kind).diagnostics = s.diagnostics := by
  rw [failStatement, diagnostics_close]
  split
  · rw [diagnostics_skipStatement]
  · rw [diagnostics_recoverStatement]

/-- A failure keeps what has been reported. -/
def Fails (fail : ParseState → ParseState) : Prop := ∀ s, (fail s).diagnostics = s.diagnostics

theorem fails_failStatement (entry : Pending) (kind : DeclarationKind) :
    Fails (failStatement entry kind) :=
  fun _ => diagnostics_failStatement kind

variable {fail ok : ParseState → ParseState} {expected : List Expectation}

theorem not_owes_report : ¬(s.report expected).Owes forms :=
  not_owes (s.diagnostics_report_ne expected)

theorem not_owes_fail (hfail : Fails fail) : ¬(fail (s.report expected)).Owes forms := by
  refine not_owes ?_
  rw [hfail]
  exact s.diagnostics_report_ne expected

theorem owes_expect (heof : (TokenKind.eof == kind) = false) (hfail : Fails fail)
    (hok : s.kind = kind → ((ok s.take).Owes [] ↔ s.take.Owes forms)) :
    (s.expect kind fail ok).Owes [] ↔ s.Owes (.just kind :: forms) := by
  rw [expect, require]
  split
  case isTrue htest =>
    rw [beq_iff_eq] at htest
    rw [hok htest, owes_just_of_kind htest heof]
  case isFalse htest =>
    rw [owes_just heof]
    exact iff_of_false (not_owes_fail hfail) fun h => htest (beq_iff_eq.mpr h.1)

theorem owes_expectStrings (hfail : Fails fail)
    (stops : ∀ rest, Word (forms ++ s.goals.map Goal.form) rest → headKind rest ≠ .stringLiteral)
    (hok : s.kind = .stringLiteral → ((ok (s.takeRun (· == .stringLiteral))).Owes [] ↔
      (s.takeRun (· == .stringLiteral)).Owes forms)) :
    (s.expectStrings fail ok).Owes [] ↔ s.Owes (.strings :: forms) := by
  rw [expectStrings, require, owes_strings stops]
  split
  case isTrue htest =>
    rw [beq_iff_eq] at htest
    rw [hok htest, and_iff_right htest]
  case isFalse htest => exact iff_of_false (not_owes_fail hfail) fun h => htest (beq_iff_eq.mpr h.1)

/-- A test that a lexeme passes before it is read. -/
theorem owes_requireAmong (heof : test .eof = false) (hfail : Fails fail)
    (hok : test s.kind = true → ((ok s).Owes [] ↔ s.take.Owes forms)) :
    (s.require (test s.kind) expected fail ok).Owes [] ↔ s.Owes (.among test :: forms) := by
  rw [require, owes_among heof]
  split
  case isTrue htest => rw [hok htest, and_iff_right htest]
  case isFalse htest => exact iff_of_false (not_owes_fail hfail) fun h => htest h.1

theorem owes_requireWord {word : ContextWord} (hfail : Fails fail)
    (hok : s.atWord word = true → ((ok s).Owes [] ↔ s.take.Owes forms)) :
    (s.require (s.atWord word) expected fail ok).Owes [] ↔ s.Owes (.word word :: forms) := by
  rw [require, owes_word]
  split
  case isTrue htest => rw [hok htest, and_iff_right htest]
  case isFalse htest => exact iff_of_false (not_owes_fail hfail) fun h => htest h.1

theorem owes_endStatement (kind : DeclarationKind) :
    (s.endStatement entry kind).Owes [] ↔ s.Owes [.just .semicolon] :=
  owes_expect rfl (fails_failStatement entry kind) fun _ => owes_close _

end ParseState

end ProtoFront
