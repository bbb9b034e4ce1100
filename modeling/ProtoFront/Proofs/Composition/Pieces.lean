import ProtoFront.Proofs.Parse.Growth
import ProtoFront.Proofs.Parse.Termination
import ProtoFront.Proofs.Tree.Productions

/-!
# What a construct has made so far

Between two steps every construct on the stack has made a piece of the tree, and the goal at which
it goes on tells what that piece is, if nothing has gone wrong with it (`Goal.made`). A construct
that waits has made so much that, together with what the part that it waits for is going to yield
(`Part.yields`), it is what its goal tells. Of a construct that has failed nothing is asked.
-/

namespace ProtoFront

open ParseState Production

/-! ## Parts and goals -/

/-- Any items, but at least one. -/
def someItems : Language Item := {items | items ≠ []}

theorem singleton_le_someItems (item : Item) : ({[item]} : Language Item) ≤ someItems := by
  rintro _ rfl
  exact List.cons_ne_nil _ _

theorem mul_le_someItems {L M : Language Item} (h : L ≤ someItems ∨ M ≤ someItems) :
    L * M ≤ someItems := by
  rintro _ ⟨first, hfirst, second, hsecond, rfl⟩
  rcases h with hL | hM
  · exact List.append_ne_nil_of_left_ne_nil (hL hfirst) _
  · exact List.append_ne_nil_of_right_ne_nil _ (hM hsecond)

/-- What lacks only its semicolon. -/
def DeclarationKind.closable (kind : DeclarationKind) : Language Item :=
  {items | items ++ [.token .semicolon none] ∈ kind.production.matches'}

/-- What a name is made of before it is closed. The parts of the name of an option are closed by
nothing that has a kind. -/
def NodeKind.spells : Option NodeKind → Language Item
  | none => someItems
  | some kind => kind.spelling.matches'

/-- What a part leaves behind in the piece of the construct around it, unless it has failed. The
body of a declaration begins where the declaration does. -/
def Part.yields : Part → Language Item
  | document | textField => ⊤
  | block kind => kind.declaration.production.matches'
  | statement => {items | ∃ kind, items = [.node (.declaration kind)]}
  | optionName => {[.node .optionName]}
  | optionList => {[.group]}
  | listOption => {[.node (.declaration .option)]}
  | value => Production.value.matches'
  | name (some kind) => {[.node kind]}
  | nameTail => (just .dot * oneOf words).star.matches'
  | optionNamePart | name none => someItems

/-- What stands in front of the statements of a body. -/
def BodyKind.opening : BodyKind → Production
  | scope kind => word kind.word * node .name * just (.opener .brace)
  | extend => word .kwExtend * node (.reference .extendeeType) * just (.opener .brace)
  | rpc => word .kwRpc * node .name * parenthesized .rpcInputType * contextual .wordReturns *
      parenthesized .rpcOutputType * just (.opener .brace)

/-- A type behind a parenthesis that is open. -/
def openType (kind : ReferenceKind) : Production :=
  just (.opener .paren) * perhaps (contextual .wordStream) * node (.reference kind)

/-- An item of ranges. -/
def RangesKind.item : RangesKind → Production
  | reserved => oneOf ([.node .range, .token .stringLiteral none] ++ words)
  | extensions => node .range

/-- What a construct has made when it goes on at the goal, unless it has failed. -/
def Goal.made : Goal → Language Item
  | file | fragmentBody _ => ⊤
  | body kind => (kind.opening * statements).matches'
  | packageEnd => DeclarationKind.package.closable
  | optionEnd => DeclarationKind.option.closable
  | statementEnd kind => kind.closable
  | declarationEnd kind => kind.production.matches'
  | optionAfterName => (word .kwOption * node .optionName).matches'
  | listOptionAfterName => {[.node .optionName]}
  | listOptionEnd => DeclarationKind.option.production.matches'
  | extendAfterName => (word .kwExtend * node (.reference .extendeeType)).matches'
  | fieldAfterType => (perhaps modifier * node (.reference .fieldType)).matches'
  | mapFieldAfterValue => (perhaps modifier * word .kwMap * just (.opener .angle) *
      node (.reference .mapKeyType) * just .comma * node (.reference .mapValueType)).matches'
  | rangesItem kind => (word kind.word * (kind.item * just .comma).star).matches'
  | rpcAfterInput => (word .kwRpc * node .name * openType .rpcInputType).matches'
  | rpcAfterOutput => (word .kwRpc * node .name * parenthesized .rpcInputType *
      contextual .wordReturns * openType .rpcOutputType).matches'
  | optionNameEnd | optionNameExtensionEnd | listAfterItem _ _ | textMessageBody _
  | textFieldEnd => someItems
  | qualifiedNameEnd tag? => NodeKind.spells tag?
  | qualifiedName tag? => if tag?.all NodeKind.isName then 1 else 0
  | syntaxLevel | importing | package | option | optionName | optionNamePart | optionList
  | listOption | textList | scope _ | extend | field | enumValue | ranges _ | rpc | value
  | textMessage _ | textField | qualifiedNameRest => 1

/-- A goal that is sure to read begins a construct that has made nothing. -/
theorem Goal.nil_mem_made {goal : Goal} (h : goal.cost < 0)
    (unnamed : ∀ tag?, goal.part ≠ .name tag?) : [] ∈ goal.made := by
  have eager : goal.eager = true := by
    by_contra lazy
    exact lt_asymm h (Goal.cost_pos_of_not_eager (Bool.eq_false_iff.mpr lazy))
  cases goal with
  | qualifiedName tag? => exact absurd rfl (unnamed tag?)
  | _ => first | exact rfl | cases eager

/-! ## The pieces of a state -/

variable {buffer : TokenBuffer} {entry now : Pending} {s t : ParseState} {part : Part}
variable {before since more : Forest} {L M : Language Item}

/-- The piece of a construct that waits fits what it waits for. -/
def Waits (buffer : TokenBuffer) (entry : Pending) (since : Forest) : Prop :=
  entry.flagged = false → ∀ part, entry.goal.awaits? = some part → ∀ items ∈ part.yields,
    since.items buffer ++ items ∈ entry.goal.made

/-- A state between two steps: all declarations that have been closed are complete, or marked, and
the constructs on the stack have made what their goals tell. -/
inductive Composed (buffer : TokenBuffer) : ParseState → Prop
  | finished {s : ParseState} (forest : Forest) (pending : s.pending = []) (lays : s.Lays forest)
      (complete : forest.Complete buffer) : Composed buffer s
  | going {s : ParseState} {top : Pending} {rest : List Pending} (before since : Forest)
      (pending : s.pending = top :: rest) (lays : s.Lays (before ++ since))
      (complete : (before ++ since).Complete buffer) (below : Grown (Waits buffer) rest before)
      (start : top.start = before.size)
      (made : top.flagged = false → since.items buffer ∈ top.goal.made) : Composed buffer s

/-- The tree of a state is made of the pieces of the constructs on the stack and of some more. -/
structure Piled (buffer : TokenBuffer) (s : ParseState) (before more : Forest) : Prop where
  below : Grown (Waits buffer) s.pending before
  lays : s.Lays (before ++ more)
  complete : (before ++ more).Complete buffer
  reads : s.Reads buffer

/-- Holding the goal `entry`, a construct has made one of `L`, unless it has failed. -/
def Holds (buffer : TokenBuffer) (L : Language Item) (entry : Pending) (s : ParseState) : Prop :=
  ∃ before since, Piled buffer s before since ∧ Awaited entry.goal.part s.pending ∧
    entry.start = before.size ∧ (entry.flagged = false → since.items buffer ∈ L)

/-- A part has ended, and has left one of `L` to the construct around it, unless that has failed. -/
def Returns (buffer : TokenBuffer) (part : Part) (L : Language Item) (s : ParseState) : Prop :=
  ∃ before more, Piled buffer s before more ∧ Awaited part s.pending ∧ part ≠ .document ∧
    ∀ next below, s.pending = next :: below → next.flagged = false → more.items buffer ∈ L

end ProtoFront
