import ProtoFront.Parse.Run

/-!
# The shape of the stack

A goal below the top waits for one part of its construct, and the goals above it are about that
part. `Goal.part` says what a goal will have read when it and what it puts in its own place are
done; `Goal.awaits?` says for which part a goal waits. A stack is well formed (`Awaited`) when
every goal waits for the part that the goal above it reads, with a goal for the whole input at the
bottom. So a part that ends always finds the construct that asked for it.

Two more facts are attached to goals here. A goal that begins a construct is put on the stack only
in front of a token that can begin it (`Goal.ready`). And every goal has a price (`Goal.cost`), in
sixteenths of a token, which bounds the steps that a parse takes.
-/

namespace ProtoFront

/-- What a goal reads, as far as the goal below it is concerned. -/
inductive Part where
  /-- all of the input -/
  | document
  | statement
  /-- statements and the closing brace behind them -/
  | block (kind : BodyKind)
  | name (tag? : Option NodeKind)
  /-- the dots and identifiers that follow the first identifier of a name -/
  | nameTail
  | optionName
  /-- a part of the name of an option, with the parts that follow it -/
  | optionNamePart
  | optionList
  | listOption
  | value
  | textField
  deriving DecidableEq, Repr

/-- Whether a part lies in a body, or in the input, that goes on behind it. -/
def Part.isInner : Part → Bool
  | document | block _ => false
  | _ => true

/-- The word that begins a declaration that opens a scope. -/
def ScopeKind.word : ScopeKind → Keyword
  | message => .kwMessage
  | enum => .kwEnum
  | service => .kwService
  | oneof => .kwOneof

/-- The word that begins a statement made of ranges. -/
def RangesKind.word : RangesKind → Keyword
  | reserved => .kwReserved
  | extensions => .kwExtensions

/-- Tags of nodes that have no part in the pairing of scopes. -/
def NodeKind.isPlain : NodeKind → Bool
  | .scope _ | .scopeClose => false
  | _ => true

namespace Goal

/-- The part of the input that a goal reads. -/
def part : Goal → Part
  | file | fragmentBody _ => .document
  | body kind => .block kind
  | syntaxLevel | importing | package | packageEnd | option | optionAfterName | optionEnd
  | scope _ | extend | extendAfterName | declarationEnd _ | field | fieldAfterType
  | mapFieldAfterValue | statementEnd _ | enumValue | ranges _ | rangesItem _ | rpc
  | rpcAfterInput | rpcAfterOutput => .statement
  | optionName | optionNameEnd => .optionName
  | optionNamePart | optionNameExtensionEnd => .optionNamePart
  | optionList | listAfterItem .options _ => .optionList
  | listOption | listOptionAfterName | listOptionEnd => .listOption
  | textList | listAfterItem .values _ | value | textMessage _ | textMessageBody _ => .value
  | textField | textFieldEnd => .textField
  | qualifiedName tag? | qualifiedNameEnd tag? => .name tag?
  | qualifiedNameRest => .nameTail

/-- The part that a goal waits for while other goals lie above it. A goal that begins a construct
waits for nothing. -/
def awaits? : Goal → Option Part
  | file | fragmentBody _ | body _ => some .statement
  | packageEnd => some (.name (some .name))
  | optionAfterName | listOptionAfterName => some .optionName
  | optionEnd | listOptionEnd | textFieldEnd | listAfterItem .values _ => some .value
  | optionNameEnd => some .optionNamePart
  | optionNameExtensionEnd => some (.name none)
  | listAfterItem .options _ => some .listOption
  | declarationEnd (.scope kind) => some (.block (.scope kind))
  | declarationEnd .extend => some (.block .extend)
  | declarationEnd .rpc => some (.block .rpc)
  | extendAfterName => some (.name (some (.reference .extendeeType)))
  | fieldAfterType => some (.name (some (.reference .fieldType)))
  | mapFieldAfterValue => some (.name (some (.reference .mapValueType)))
  | statementEnd kind => if (NodeKind.declaration kind).isPlain then some .optionList else none
  | rpcAfterInput => some (.name (some (.reference .rpcInputType)))
  | rpcAfterOutput => some (.name (some (.reference .rpcOutputType)))
  | textMessageBody _ => some .textField
  | qualifiedNameEnd tag? => if tag?.all NodeKind.isPlain then some .nameTail else none
  | _ => none

/-- The tokens in front of which a goal is put on the stack. A goal that carries a tag is never put
there with one that pairs scopes. -/
def ready : Goal → TokenKind → Bool
  | syntaxLevel, kind => kind == .keyword .kwSyntax || kind == .keyword .kwEdition
  | importing, kind => kind == .keyword .kwImport
  | package, kind => kind == .keyword .kwPackage
  | option, kind => kind == .keyword .kwOption
  | scope opened, kind => kind == .keyword opened.word
  | extend, kind => kind == .keyword .kwExtend
  | field, kind => ParseState.startsType kind
  | enumValue, kind => kind.isIdentifierLike
  | ranges which, kind => kind == .keyword which.word
  | rpc, kind => kind == .keyword .kwRpc
  | optionList, kind | textList, kind => kind == .opener .square
  | textMessage pair, kind => kind == .opener pair
  | textField, kind => ParseState.startsTextField kind
  | qualifiedName tag?, kind =>
    tag?.all NodeKind.isPlain &&
      if tag? = some .name then kind.isIdentifierLike else ParseState.startsType kind
  | qualifiedNameRest, kind => kind == .dot
  | statementEnd of, _ => (NodeKind.declaration of).isPlain
  | qualifiedNameEnd tag?, _ => tag?.all NodeKind.isPlain
  | _, _ => true

/-- Whether a goal is ready in front of some tokens only. Such a goal is sure to read one, perhaps
with the help of the goal that it puts on the stack at once. -/
def eager : Goal → Bool
  | syntaxLevel | importing | package | option | scope _ | extend | field | enumValue | ranges _
  | rpc | optionList | textList | textMessage _ | textField | qualifiedName _
  | qualifiedNameRest => true
  | _ => false

/-- The steps that a goal may cause without reading. An eager goal has its first token credited
against them. -/
def steps : Goal → Int
  | optionList => 7
  | listOption | option => 5
  | optionName | textList | textField | field => 3
  | textMessage _ | ranges _ => 2
  | _ => 1

/-- The price of a goal; a token pays for sixteen steps. -/
def cost (goal : Goal) : Int := if goal.eager then goal.steps - 16 else goal.steps

/-- Whether an earlier item of the list has failed. -/
def carried : Goal → Bool
  | listAfterItem _ failed => failed
  | _ => false

/-- Only lists carry a mark. -/
theorem carried_eq_false {goal : Goal} (h : goal.part = .statement) : goal.carried = false := by
  cases goal with
  | listAfterItem list failed => cases list <;> cases h
  | _ => rfl

/-- A goal that waits costs one step. -/
theorem cost_eq_one {goal : Goal} {part : Part} (h : goal.awaits? = some part) :
    goal.cost = 1 := by
  cases goal <;> first | rfl | cases h

/-- The whole input is a file or the statements of a body. -/
theorem cases_of_document {goal : Goal} (h : goal.part = .document) :
    goal = .file ∨ ∃ kind, goal = .fragmentBody kind := by
  cases goal with
  | file => exact .inl rfl
  | fragmentBody kind => exact .inr ⟨kind, rfl⟩
  | listAfterItem list failed => cases list <;> cases h
  | _ => cases h

theorem cost_of_document {goal : Goal} (h : goal.part = .document) : goal.cost = 1 := by
  rcases goal.cases_of_document h with rfl | ⟨kind, rfl⟩ <;> rfl

theorem steps_pos (goal : Goal) : 1 ≤ goal.steps := by
  unfold steps
  split <;> decide

/-- A goal that is not eager costs something. -/
theorem cost_pos_of_not_eager {goal : Goal} (h : goal.eager = false) : 0 < goal.cost := by
  have hsteps := goal.steps_pos
  rw [cost, if_neg (by rw [h]; exact Bool.false_ne_true)]
  omega

/-- What a goal is credited with is less than a token. -/
theorem cost_ge (goal : Goal) : -15 ≤ goal.cost := by
  have hsteps := goal.steps_pos
  rw [cost]
  split <;> omega

/-- No goal waits for the whole input. -/
theorem awaits_ne_document (goal : Goal) : goal.awaits? ≠ some .document := by
  cases goal with
  | declarationEnd kind => cases kind <;> rintro ⟨⟩
  | listAfterItem list failed => cases list <;> rintro ⟨⟩
  | statementEnd kind =>
    intro h
    cases (Option.ite_none_right_eq_some.mp h).2
  | qualifiedNameEnd tag? =>
    intro h
    cases (Option.ite_none_right_eq_some.mp h).2
  | _ => rintro ⟨⟩

/-- A goal that waits is ready for any token. -/
theorem ready_of_awaits {goal : Goal} {part : Part} (h : goal.awaits? = some part)
    (kind : TokenKind) : goal.ready kind = true := by
  cases goal with
  | statementEnd kind => exact (Option.ite_none_right_eq_some.mp h).1
  | qualifiedNameEnd tag? => exact (Option.ite_none_right_eq_some.mp h).1
  | _ => first | rfl | cases h

/-- A construct that begins has no mark to carry. -/
theorem carried_eq_false_of_awaits {goal : Goal} (h : goal.awaits? = none) :
    goal.carried = false := by
  cases goal with
  | listAfterItem list failed => cases list <;> cases h
  | _ => rfl

/-- A goal that begins a construct in front of a token. -/
structure Begins (goal : Goal) (kind : TokenKind) : Prop where
  ready : goal.ready kind = true
  waits : goal.awaits? = none

/-- No goal in front of the end of the input is eager. -/
theorem eager_eq_false_of_ready_eof {goal : Goal} (h : goal.ready .eof = true) :
    goal.eager = false := by
  cases goal with
  | scope kind => cases h
  | textMessage pair => cases h
  | qualifiedName tag? => simp [ready, ParseState.startsType, TokenKind.isIdentifierLike] at h
  | ranges kind => cases h
  | _ => first | rfl | exact absurd h (by decide)

end Goal

/-- Whether a construct has failed in some part. A list keeps that in its goal. -/
def Pending.flagged (entry : Pending) : Bool := entry.failed || entry.goal.carried

/-- The goals below a goal that reads `part`: the first of them waits for `part`, the next one for
what the first one reads, and so on. At the bottom the whole input has been read. -/
def Awaited : Part → List Pending → Prop
  | part, [] => part = .document
  | part, next :: below => next.goal.awaits? = some part ∧ Awaited next.goal.part below

end ProtoFront
