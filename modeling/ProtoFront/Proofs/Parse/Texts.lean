import ProtoFront.Proofs.Parse.Runs
import ProtoFront.Proofs.Tree.Separators

/-!
# What has to do with text messages

Only the goals of text messages and their fields make nodes for messages and terminators, and only
they put the goal on the stack at which a message goes on. Whatever else the parser does, it leaves
both as they are (`texts_pursue`).
-/

namespace ProtoFront

open ParseState

/-- The goals that only a text message puts on the stack: the one at which it goes on, and those
of messages between other brackets, which there are not. -/
def Goal.isSequel : Goal → Bool
  | textMessageBody _ => true
  | textMessage pair => pair != .brace && pair != .angle
  | _ => false

/-- The goals that begin or go on with a text message or a field of one. -/
def Goal.isText : Goal → Bool
  | textMessage _ | textMessageBody _ | textField | textFieldEnd => true
  | _ => false

namespace ParseState

variable {s : ParseState} {entry : Pending} {tag? : Option NodeKind} {goal : Goal}

/-- The nodes and the goals that have to do with text messages, counted. -/
def texts (s : ParseState) : Nat × Nat :=
  (s.nodes.toList.countP Node.isText, s.goals.countP Goal.isSequel)

theorem texts_eq {t : ParseState} (nodes : t.nodes = s.nodes) (goals : t.goals = s.goals) :
    t.texts = s.texts := by rw [texts, nodes, goals, texts]

/-! ## Moves -/

section

variable (message : tag? ≠ some .textMessage) (terminator : tag? ≠ some .terminator)
include message terminator

theorem texts_push {t : ParseState} {token? : Option Nat} {size : Nat} {failed : Bool}
    (nodes : t.nodes = s.nodes.push ⟨token?, size, failed, tag?⟩) (goals : t.goals = s.goals) :
    t.texts = s.texts := by
  have other : Node.isText ⟨token?, size, failed, tag?⟩ = false := by
    simp [Node.isText, message, terminator]
  rw [texts, nodes, goals, Array.toList_push, List.countP_append, List.countP_singleton, other]
  rfl

@[simp] theorem texts_addLeaf (failed : Bool) : (s.addLeaf tag? failed).texts = s.texts := by
  rcases hrest : s.cursor.rest with _ | ⟨next, rest⟩
  · rw [s.addLeaf_of_rest_eq_nil tag? failed hrest]
  · exact texts_push message terminator (s.nodes_addLeaf tag? failed hrest)
      (goals_addLeaf tag? failed)

@[simp] theorem texts_addParent (token? : Option Nat) (start : Nat) (failed : Bool) :
    (s.addParent token? start tag? failed).texts = s.texts :=
  texts_push message terminator rfl rfl

@[simp] theorem texts_close : (s.close entry tag?).texts = s.texts := by
  rw [close_eq, letGo]
  split
  · rw [texts_eq (nodes_markEnclosing _) goals_markEnclosing]
    exact texts_addParent message terminator _ _ _
  · exact texts_addParent message terminator _ _ _

end

@[simp] theorem texts_take : s.take.texts = s.texts :=
  texts_addLeaf (by simp) (by simp) false

@[simp] theorem texts_discard : s.discard.texts = s.texts :=
  texts_addLeaf (by simp) (by simp) true

@[simp] theorem texts_takeAs {kind : NodeKind} (message : kind ≠ .textMessage)
    (terminator : kind ≠ .terminator) : (s.takeAs kind).texts = s.texts :=
  texts_addLeaf (by simpa using message) (by simpa using terminator) false

@[simp] theorem texts_addSynthetic {kind : NodeKind} (message : kind ≠ .textMessage)
    (terminator : kind ≠ .terminator) (failed : Bool) :
    (s.addSynthetic kind failed).texts = s.texts :=
  texts_push (by simpa using message) (by simpa using terminator) rfl rfl

@[simp] theorem texts_takeMany (n : Nat) : (takeMany n s).texts = s.texts := by
  induction n generalizing s with
  | zero => rfl
  | succ n ih => rw [takeMany, ih, texts_take]

@[simp] theorem texts_takeRun (member : TokenKind → Bool) : (s.takeRun member).texts = s.texts :=
  texts_takeMany _

@[simp] theorem texts_discardMany (n : Nat) : (discardMany n s).texts = s.texts := by
  induction n generalizing s with
  | zero => rfl
  | succ n ih => rw [discardMany, ih, texts_discard]

@[simp] theorem texts_skipGroup : s.skipGroup.texts = s.texts := texts_discardMany _

@[simp] theorem texts_skipTo (stop : TokenKind → Bool) : (s.skipTo stop).texts = s.texts :=
  texts_discardMany _

@[simp] theorem texts_skipStatement (origin : Origin) :
    (s.skipStatement origin).texts = s.texts := by
  rw [skipStatement]
  split <;> simp

@[simp] theorem texts_report (expected : List Expectation) :
    (s.report expected).texts = s.texts := rfl

@[simp] theorem texts_resync (start : Nat) : (s.resync start).1.texts = s.texts := rfl

@[simp] theorem texts_recoverTo (stop : TokenKind → Bool) :
    (s.recoverTo stop).1.texts = s.texts := by
  simp [recoverTo]

@[simp] theorem texts_recoverStatement (origin : Origin) :
    (s.recoverStatement origin).texts = s.texts := by
  simp [recoverStatement]

@[simp] theorem texts_markEnclosing : s.markEnclosing.texts = s.texts :=
  texts_eq s.nodes_markEnclosing goals_markEnclosing

section

variable (body : ∀ pair, goal ≠ .textMessageBody pair)
variable (begins : ∀ pair, goal = .textMessage pair → pair = .brace ∨ pair = .angle)
include body begins

theorem texts_cons {t : ParseState} (nodes : t.nodes = s.nodes)
    (goals : t.goals = goal :: s.goals) : t.texts = s.texts := by
  have other : goal.isSequel = false := by
    cases goal with
    | textMessage pair => rcases begins pair rfl with rfl | rfl <;> rfl
    | textMessageBody pair => exact absurd rfl (body pair)
    | _ => rfl
  rw [texts, nodes, goals, List.countP_cons_of_neg (by rw [other]; exact Bool.false_ne_true)]
  rfl

@[simp] theorem texts_resume : (s.resume entry goal).texts = s.texts :=
  texts_cons body begins rfl rfl

@[simp] theorem texts_pushGoal : (s.pushGoal goal).texts = s.texts :=
  texts_cons body begins rfl rfl

end

/-! ## Tests -/

section

variable {fail ok : ParseState → ParseState}
variable (hfail : ∀ t : ParseState, (fail t).texts = t.texts)
variable (hok : ∀ t : ParseState, (ok t).texts = t.texts)
include hfail hok

@[simp] theorem texts_require (test : Bool) (expected : List Expectation) :
    (s.require test expected fail ok).texts = s.texts := by
  rw [require]
  split <;> simp [hfail, hok]

@[simp] theorem texts_expect (kind : TokenKind) : (s.expect kind fail ok).texts = s.texts := by
  simp [expect, hfail, hok]

@[simp] theorem texts_expectStrings : (s.expectStrings fail ok).texts = s.texts := by
  simp [expectStrings, hfail, hok]

@[simp] theorem texts_signedInteger : (s.signedInteger fail ok).texts = s.texts := by
  rw [signedInteger]
  split <;> simp [hfail, hok]

@[simp] theorem texts_range : (s.range fail ok).texts = s.texts := by
  rw [range]
  refine texts_signedInteger hfail fun t => ?_
  split
  · dsimp only
    split
    · simp [hok]
    · split <;> simp [hfail, hok]
  · simp [hok]

end

@[simp] theorem texts_failStatement (kind : DeclarationKind) :
    (failStatement entry kind s).texts = s.texts := by
  rw [failStatement]
  split <;> simp

@[simp] theorem texts_endStatement (kind : DeclarationKind) :
    (s.endStatement entry kind).texts = s.texts := by
  simp [endStatement]

@[simp] theorem texts_optionsOrEnd (kind : DeclarationKind) :
    (s.optionsOrEnd kind entry).texts = s.texts := by
  rw [optionsOrEnd]
  split <;> simp

/-! ## Statements -/

@[simp] theorem texts_statementEnd (kind : DeclarationKind) :
    (s.statementEnd kind entry).texts = s.texts := by
  rw [statementEnd]
  split <;> simp

@[simp] theorem texts_fieldNameAndNumber (kind : DeclarationKind) :
    (s.fieldNameAndNumber kind entry).texts = s.texts := by
  refine texts_require (by simp) (fun t => ?_) _ _
  refine (texts_expect (by simp) (fun u => ?_) _).trans (by simp)
  simp

@[simp] theorem texts_failMapField : (s.failMapField entry).texts = s.texts := by
  rw [failMapField]
  split <;> simp

@[simp] theorem texts_mapField : (s.mapField entry).texts = s.texts := by
  refine (texts_require (by simp) (fun t => ?_) _ _).trans (by simp)
  refine (texts_expect (by simp) (fun u => ?_) _).trans (by simp)
  simp

@[simp] theorem texts_mapFieldAfterValue : (s.mapFieldAfterValue entry).texts = s.texts := by
  rw [mapFieldAfterValue]
  split <;> simp

@[simp] theorem texts_field : (s.field entry).texts = s.texts := by
  have modified : (if s.kind.isFieldModifier && startsType s.following then s.take else s).texts =
      s.texts := by split <;> simp
  rw [field, ← modified]
  generalize (if s.kind.isFieldModifier && startsType s.following then s.take else s) = t
  split <;> simp

@[simp] theorem texts_fieldAfterType : (s.fieldAfterType entry).texts = s.texts := by
  rw [fieldAfterType]
  split <;> simp

@[simp] theorem texts_enumValue : (s.enumValue entry).texts = s.texts := by
  refine texts_require (by simp) (fun t => ?_) _ _
  refine (texts_expect (by simp) (fun u => ?_) _).trans (by simp)
  split <;> simp

@[simp] theorem texts_rangesGoOn (kind : RangesKind) :
    (s.rangesGoOn kind entry).texts = s.texts := by
  unfold rangesGoOn
  split
  · simp
  · split <;> simp

@[simp] theorem texts_rangesItem (kind : RangesKind) :
    (s.rangesItem kind entry).texts = s.texts := by
  unfold rangesItem
  split <;> simp

@[simp] theorem texts_ranges (kind : RangesKind) : (s.ranges kind entry).texts = s.texts := by
  simp [ranges]

@[simp] theorem texts_failScope (kind : ScopeKind) :
    (s.failScope kind entry).texts = s.texts := by
  simp [failScope]

@[simp] theorem texts_enterBody (kind : BodyKind) : (s.enterBody kind entry).texts = s.texts := by
  simp [enterBody]

@[simp] theorem texts_scope (kind : ScopeKind) : (s.scope kind entry).texts = s.texts := by
  refine (texts_require (by simp) (fun t => ?_) _ _).trans (by simp)
  simp

@[simp] theorem texts_extend : (s.extend entry).texts = s.texts := by
  simp [extend]

@[simp] theorem texts_extendAfterName : (s.extendAfterName entry).texts = s.texts := by
  rw [extendAfterName]
  split <;> simp

theorem ne_of_statement (h : goal.part = .statement) (pair : Bracket) :
    goal ≠ .textMessage pair ∧ goal ≠ .textMessageBody pair := by
  constructor
  all_goals
    rintro rfl
    cases h

@[simp] theorem texts_pushStatement (h : goal.part = .statement) :
    (s.pushGoal goal).texts = s.texts :=
  texts_pushGoal (fun pair => (ne_of_statement h pair).2)
    fun pair hgoal => absurd hgoal (ne_of_statement h pair).1

section

variable {again : Goal}
variable (body : ∀ pair, again ≠ .textMessageBody pair)
variable (begins : ∀ pair, again = .textMessage pair → pair = .brace ∨ pair = .angle)
include body begins

theorem texts_bodyJunk (kind : BodyKind) : (s.bodyJunk kind again entry).texts = s.texts := by
  have reported : (if s.reportedHere then s else s.report kind.expected).texts = s.texts := by
    split <;> simp
  rw [bodyJunk, ← reported]
  generalize (if s.reportedHere then s else s.report kind.expected) = t
  refine (texts_resume body begins).trans ((texts_recoverStatement _).trans ?_)
  split <;> simp

theorem texts_bodyStatement (kind : BodyKind) :
    (s.bodyStatement kind again entry).texts = s.texts := by
  rw [bodyStatement]
  split
  · rw [texts_resume body begins, texts_take]
  · split
    case h_1 goal hgoal =>
      obtain ⟨-, part, -⟩ := statement?_eq_some hgoal
      rw [texts_pushStatement part, texts_resume body begins]
    case h_2 => exact texts_bodyJunk body begins kind

end

@[simp] theorem texts_body (kind : BodyKind) : (s.body kind entry).texts = s.texts := by
  have message : kind.closeTag? ≠ some .textMessage := by cases kind <;> rintro ⟨⟩
  have terminator : kind.closeTag? ≠ some .terminator := by cases kind <;> rintro ⟨⟩
  rw [body]
  split
  · rw [texts_markEnclosing]
    split
    case h_1 tag htag =>
      rw [htag] at message terminator
      rw [texts_addSynthetic (by simpa using message) (by simpa using terminator), texts_report]
    case h_2 => rfl
  · dsimp only
    split <;> simp [message, terminator]
  · exact texts_bodyStatement (by simp) (by simp) kind

@[simp] theorem texts_fragmentBody (kind : ScopeKind) :
    (s.fragmentBody kind entry).texts = s.texts := by
  rw [fragmentBody]
  split
  · rfl
  · exact texts_bodyStatement (by simp) (by simp) _

theorem texts_rpcType {after : Goal} (body : ∀ pair, after ≠ .textMessageBody pair)
    (begins : ∀ pair, after = .textMessage pair → pair = .brace ∨ pair = .angle)
    (kind : ReferenceKind) :
    (s.rpcType after kind entry).texts = s.texts := by
  have marked : (if s.atWord .wordStream && startsType s.following then s.take else s).texts =
      s.texts := by split <;> simp
  rw [rpcType, ← marked]
  exact texts_require (by simp) (fun t => by simp [texts_resume body begins]) _ _

@[simp] theorem texts_rpc : (s.rpc entry).texts = s.texts := by
  refine (texts_require (by simp) (fun t => ?_) _ _).trans (by simp)
  refine (texts_expect (by simp) (fun u => ?_) _).trans (by simp)
  exact texts_rpcType (by simp) (by simp) _

@[simp] theorem texts_rpcAfterInput : (s.rpcAfterInput entry).texts = s.texts := by
  rw [rpcAfterInput]
  split
  · simp
  · refine texts_expect (by simp) (fun t => ?_) _
    refine texts_require (by simp) (fun u => ?_) _ _
    refine (texts_expect (by simp) (fun v => ?_) _).trans (by simp)
    exact texts_rpcType (by simp) (by simp) _

@[simp] theorem texts_rpcAfterOutput : (s.rpcAfterOutput entry).texts = s.texts := by
  rw [rpcAfterOutput]
  split
  · simp
  · refine texts_expect (by simp) (fun t => ?_) _
    split <;> simp

@[simp] theorem texts_file : (s.file entry).texts = s.texts := by
  rw [file]
  split
  case h_1 goal hgoal =>
    obtain ⟨-, part, -⟩ := topLevel?_eq_some hgoal
    rw [texts_pushStatement part]
    simp
  case h_2 =>
    split
    · rfl
    · simp
    · dsimp only
      split <;> simp

@[simp] theorem texts_syntaxLevel : (s.syntaxLevel entry).texts = s.texts := by
  refine (texts_expect (by simp) (fun t => ?_) _).trans (by simp)
  simp

@[simp] theorem texts_importing : (s.importing entry).texts = s.texts := by
  rw [importing]
  refine (texts_expectStrings (by simp) (by simp)).trans ?_
  split <;> simp

@[simp] theorem texts_package : (s.package entry).texts = s.texts := by
  simp [package]

/-! ## Names, options and lists -/

section

variable (message : tag? ≠ some .textMessage) (terminator : tag? ≠ some .terminator)
include message terminator

@[simp] theorem texts_qualifiedNameFirst :
    (s.qualifiedNameFirst tag? entry).texts = s.texts := by
  rw [qualifiedNameFirst]
  split
  · dsimp only
    split <;> simp [message, terminator]
  · simp [message, terminator]

@[simp] theorem texts_qualifiedName : (s.qualifiedName tag? entry).texts = s.texts := by
  rw [qualifiedName]
  split
  · simp [message, terminator]
  · split <;> simp [message, terminator]

end

@[simp] theorem texts_qualifiedNameRest : s.qualifiedNameRest.texts = s.texts := by
  rw [qualifiedNameRest]
  dsimp only
  split
  · split <;> simp
  · simp

@[simp] theorem texts_optionName : (s.optionName entry).texts = s.texts := by simp [optionName]

@[simp] theorem texts_optionNameDot : s.optionNameDot.texts = s.texts := by
  rw [optionNameDot]
  split <;> simp

@[simp] theorem texts_optionNamePart : s.optionNamePart.texts = s.texts := by
  rw [optionNamePart]
  split
  · simp
  · split
    · dsimp only
      split <;> simp
    · simp

@[simp] theorem texts_optionNameExtensionEnd :
    (s.optionNameExtensionEnd entry).texts = s.texts := by
  rw [optionNameExtensionEnd]
  split <;> simp

@[simp] theorem texts_optionStatement : (s.optionStatement entry).texts = s.texts := by
  simp [optionStatement]

@[simp] theorem texts_optionAfterName : (s.optionAfterName entry).texts = s.texts := by
  rw [optionAfterName]
  split <;> simp

@[simp] theorem texts_optionList : (s.optionList entry).texts = s.texts := by simp [optionList]

@[simp] theorem texts_closeList (list : ListKind) (now : Pending) :
    (s.close now list.tag?).texts = s.texts := by
  cases list <;> exact texts_close (by rintro ⟨⟩) (by rintro ⟨⟩)

@[simp] theorem texts_pushItem (list : ListKind) : (s.pushGoal list.item).texts = s.texts := by
  cases list <;> exact texts_pushGoal (by rintro _ ⟨⟩) (by rintro _ ⟨⟩)

@[simp] theorem texts_textList : (s.textList entry).texts = s.texts := by
  rw [textList]
  split <;> simp

@[simp] theorem texts_listGoOn (list : ListKind) (failed : Bool) :
    (s.listGoOn list failed entry).texts = s.texts := by
  rw [listGoOn]
  split <;> simp

@[simp] theorem texts_listAfterItem (list : ListKind) (failed : Bool) :
    (s.listAfterItem list failed entry).texts = s.texts := by
  rw [listAfterItem]
  split
  · simp
  · split
    · simp
    · have recovered : (((s.report [.token .comma, .token (.closer .square)]).recoverTo
          isListSeparator).1).texts = s.texts := by simp
      split
      case h_1 hfound =>
        rw [hfound] at recovered
        simpa using recovered
      case h_2 hfound =>
        rw [hfound] at recovered
        simpa using recovered

@[simp] theorem texts_listOption : (s.listOption entry).texts = s.texts := by simp [listOption]

@[simp] theorem texts_listOptionEnd : (s.listOptionEnd entry).texts = s.texts := by
  simp [listOptionEnd]

@[simp] theorem texts_listOptionAfterName : (s.listOptionAfterName entry).texts = s.texts := by
  rw [listOptionAfterName]
  split <;> simp

@[simp] theorem texts_missingValue : s.missingValue.texts = s.texts := by simp [missingValue]

@[simp] theorem texts_value : s.value.texts = s.texts := by
  rw [value]
  split
  case h_7 | h_8 => split <;> simp
  all_goals simp

/-! ## All of them -/

/-- No construct waits for a name that is something in a text message. -/
theorem ne_of_awaits_name (h : goal.awaits? = some (.name tag?)) :
    tag? ≠ some .textMessage ∧ tag? ≠ some .terminator := by
  cases goal with
  | declarationEnd kind => cases kind <;> cases h
  | listAfterItem list failed => cases list <;> cases h
  | statementEnd kind => cases (Option.ite_none_right_eq_some.mp h).2
  | qualifiedNameEnd tag? => cases (Option.ite_none_right_eq_some.mp h).2
  | _ => cases h <;> exact ⟨by rintro ⟨⟩, by rintro ⟨⟩⟩

/-- A goal of nothing in a text message leaves alone what has to do with text messages. -/
theorem texts_pursue (other : entry.goal.isText = false)
    (awaited : Awaited entry.goal.part s.pending) : (s.pursue entry).texts = s.texts := by
  have named {tag? : Option NodeKind} (part : entry.goal.part = .name tag?) :
      tag? ≠ some .textMessage ∧ tag? ≠ some .terminator := by
    rw [part] at awaited
    rcases hpending : s.pending with _ | ⟨next, below⟩
    · rw [hpending] at awaited
      cases awaited
    · rw [hpending] at awaited
      exact ne_of_awaits_name awaited.1
  rw [pursue]
  cases goal : entry.goal with
  | textMessage | textMessageBody | textField | textFieldEnd =>
    rw [goal] at other
    cases other
  | qualifiedName tag? =>
    obtain ⟨message, terminator⟩ := named (by rw [goal]; rfl)
    exact texts_qualifiedName message terminator
  | qualifiedNameEnd tag? =>
    obtain ⟨message, terminator⟩ := named (by rw [goal]; rfl)
    exact texts_close message terminator
  | _ => simp

end ParseState

end ProtoFront
