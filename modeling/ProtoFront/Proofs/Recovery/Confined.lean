import ProtoFront.Proofs.Parse.Runs
import ProtoFront.Proofs.Recovery.Brackets

/-!
# Brackets and goals

Between two steps inside a message the goals above the message fit the brackets that are open
(`Confined`). A goal in a text message knows which brackets it has opened. A goal of a statement
may have lost a parenthesis or a square bracket when it failed, but for every body on the stack
there is a brace that is open, and as long as such a goal is held (`Held`) no brace is read but in a
group that is skipped.
-/

namespace ProtoFront

open ParseState

variable {tail : List Lexeme} {outer below : List Goal} {begun : Nat} {entry : Pending}
variable {s t : ParseState}

/-- Whether a part lies in the value of an option. -/
def Part.isText : Part → Bool
  | value | textField => true
  | _ => false

namespace Goal

/-- The brackets that a goal in the value of an option has opened. -/
def owed : Goal → List Bracket
  | textMessageBody pair => [pair]
  | listAfterItem .values _ => [.square]
  | _ => []

/-- Whether a goal stands for the statements between two braces. -/
def isBody : Goal → Bool
  | body _ => true
  | _ => false

/-- Whether a goal belongs to a statement, outside of values. -/
def isPlain (goal : Goal) : Bool := !goal.part.isText && goal.part != .document

end Goal

/-- The number of bodies on the stack. -/
def bodies (goals : List Goal) : Nat := goals.countP Goal.isBody

theorem bodies_cons_of_isBody {goal : Goal} (h : goal.isBody = true) :
    bodies (goal :: below) = bodies below + 1 :=
  List.countP_cons_of_pos h

theorem bodies_cons_of_not_isBody {goal : Goal} (h : goal.isBody = false) :
    bodies (goal :: below) = bodies below :=
  List.countP_cons_of_neg (Bool.eq_false_iff.mp h)

/-- `Fits goals opened`: the goals, from the top of the stack down to the body of a message, fit the
brackets that are open in the message. -/
inductive Fits : List Goal → List Bracket → Prop
  | statements {goals : List Goal} {opened : List Bracket}
      (plain : ∀ goal ∈ goals, goal.isPlain = true)
      (braces : opened.count .brace + 1 = bodies goals) : Fits goals opened
  | text {goal : Goal} {below : List Goal} {opened : List Bracket}
      (text : goal.part.isText = true) (fits : Fits below opened) :
      Fits (goal :: below) (goal.owed ++ opened)

/-- The parser is in the message that `tail` closes, and `outer` are the goals around it. -/
def Confined (tail : List Lexeme) (outer : List Goal) (s : ParseState) : Prop :=
  ∃ goals opened, s.goals = goals ++ outer ∧ Fits goals opened ∧ Closes tail opened s.cursor.rest

/-- The parser is in that message, and a goal of a statement over `below` is held, with so many
bodies begun. -/
structure Held (tail : List Lexeme) (outer below : List Goal) (begun : Nat) (s : ParseState) :
    Prop where
  goals : s.goals = below ++ outer
  plain : ∀ goal ∈ below, goal.isPlain = true
  begun : BodiesOpen tail begun s.cursor.rest
  spelled : Spelled s.cursor.rest

theorem ParseState.goals_discardMany (n : Nat) (s : ParseState) :
    (discardMany n s).goals = s.goals := by
  induction n generalizing s with
  | zero => rfl
  | succ n ih => exact (ih s.discard).trans (goals_addLeaf none true)

namespace Held

theorem confined (h : Held tail outer below (bodies below) s) : Confined tail outer s := by
  obtain ⟨opened, closes, count⟩ := h.begun
  exact ⟨below, opened, h.goals, .statements h.plain count, closes⟩

/-! ## Reading and skipping -/

/-- Nothing has changed but the nodes and the reports. -/
theorem congr (h : Held tail outer below begun s) (goals : t.goals = s.goals)
    (rest : t.cursor.rest = s.cursor.rest) : Held tail outer below begun t :=
  ⟨goals.trans h.goals, h.plain, rest ▸ h.begun, rest ▸ h.spelled⟩

theorem report (h : Held tail outer below begun s) (expected : List Expectation) :
    Held tail outer below begun (s.report expected) :=
  h.congr rfl rfl

theorem addLeaf (h : Held tail outer below begun s) (plain : s.kind.isBrace = false)
    (tag? : Option NodeKind) (failed : Bool) :
    Held tail outer below begun (s.addLeaf tag? failed) := by
  refine ⟨(goals_addLeaf tag? failed).trans h.goals, h.plain, ?_,
    h.spelled.addLeaf tag? failed⟩
  have begun := h.begun
  rw [rest_addLeaf]
  rcases hrest : s.cursor.rest with _ | ⟨next, rest⟩
  · rwa [hrest] at begun
  · rw [hrest] at begun
    exact begun.of_cons (by rwa [← kind_of_rest hrest])

theorem take (h : Held tail outer below begun s) (plain : s.kind.isBrace = false) :
    Held tail outer below begun s.take :=
  h.addLeaf plain none false

theorem takeAs (h : Held tail outer below begun s) (plain : s.kind.isBrace = false)
    (tag : NodeKind) : Held tail outer below begun (s.takeAs tag) :=
  h.addLeaf plain (some tag) false

theorem takeIf (h : Held tail outer below begun s) (c : Prop) [Decidable c]
    (plain : c → s.kind.isBrace = false) :
    Held tail outer below begun (if c then s.take else s) := by
  split
  case isTrue hc => exact h.take (plain hc)
  case isFalse => exact h

/-- Tokens in a row are read. -/
theorem takeRun (h : Held tail outer below begun s) {member : TokenKind → Bool}
    (plain : ∀ kind, member kind = true → kind.isBrace = false) :
    Held tail outer below begun (s.takeRun member) :=
  takeRun_of_take h fun _ ht hkind => ht.take (plain _ hkind)

theorem discardMany (h : Held tail outer below begun s) (n : Nat)
    (skipped : BodiesOpen tail begun (s.cursor.rest.drop n)) :
    Held tail outer below begun (discardMany n s) := by
  refine ⟨(goals_discardMany n s).trans h.goals, h.plain, ?_, ?_⟩
  · rwa [rest_discardMany]
  · rw [rest_discardMany]
    exact fun lexeme hlexeme => h.spelled lexeme (List.mem_of_mem_drop hlexeme)

theorem skipTo (h : Held tail outer below begun s) (stop : TokenKind → Bool) :
    Held tail outer below begun (s.skipTo stop) :=
  h.discardMany _ (h.begun.drop_extentTo stop)

theorem skipGroup (h : Held tail outer below begun s) (opener : s.kind.isOpener = true) :
    Held tail outer below begun s.skipGroup := by
  have begun := h.begun
  rcases hrest : s.cursor.rest with _ | ⟨next, rest⟩
  · rw [kind, Cursor.kind, hrest] at opener
    cases opener
  · rw [kind_of_rest hrest] at opener
    obtain ⟨pair, hpair⟩ := TokenKind.eq_opener_of_isOpener opener
    rw [hrest] at begun
    rw [skipGroup_of_rest hrest hpair]
    refine h.discardMany _ ?_
    rw [hrest, List.drop_succ_cons]
    exact begun.drop_group hpair

theorem skipStatement (h : Held tail outer below begun s) (origin : Origin) :
    Held tail outer below begun (s.skipStatement origin) := by
  have skipped := h.discardMany _ (h.begun.drop_statementExtent origin)
  exact skipped.takeIf _ fun hkind => by rw [hkind]; rfl

theorem recoverTo (h : Held tail outer below begun s) (stop : TokenKind → Bool) :
    Held tail outer below begun (s.recoverTo stop).1 :=
  (h.skipTo stop).congr rfl rfl

theorem recoverStatement (h : Held tail outer below begun s) (origin : Origin) :
    Held tail outer below begun (s.recoverStatement origin) :=
  (h.skipStatement origin).congr rfl rfl

/-! ## The goals -/

theorem markEnclosing (h : Held tail outer below begun s) :
    Held tail outer below begun s.markEnclosing :=
  h.congr goals_markEnclosing (by rw [cursor_markEnclosing])

theorem close (h : Held tail outer below begun s) (entry : Pending) (tag? : Option NodeKind) :
    Held tail outer below begun (s.close entry tag?) :=
  h.congr (goals_close tag?) (by rw [cursor_close])

/-- A goal waits with the bodies that are open above it. -/
theorem wait {goal : Goal} (h : Held tail outer below (bodies (goal :: below)) s)
    (plain : goal.isPlain = true) (entry : Pending) :
    Held tail outer (goal :: below) (bodies (goal :: below)) (s.resume entry goal) := by
  refine ⟨?_, List.forall_mem_cons.mpr ⟨plain, h.plain⟩, h.begun, h.spelled⟩
  rw [List.cons_append, ← h.goals]
  rfl

theorem resume (h : Held tail outer below (bodies below) s) (entry : Pending) {goal : Goal}
    (plain : goal.isPlain = true) (statement : goal.isBody = false) :
    Held tail outer (goal :: below) (bodies (goal :: below)) (s.resume entry goal) :=
  wait (by rwa [bodies_cons_of_not_isBody statement]) plain entry

theorem pushGoal (h : Held tail outer below (bodies below) s) {goal : Goal}
    (plain : goal.isPlain = true) (statement : goal.isBody = false) :
    Held tail outer (goal :: below) (bodies (goal :: below)) (s.pushGoal goal) :=
  (h.resume ⟨goal, s.cursor.origin, s.nodes.size, false⟩ plain statement).congr rfl rfl

/-- A value has opened nothing yet. -/
theorem pushValue (h : Held tail outer below (bodies below) s) :
    Confined tail outer (s.pushGoal .value) := by
  obtain ⟨opened, closes, count⟩ := h.begun
  refine ⟨.value :: below, opened, ?_, .text rfl (.statements h.plain count), closes⟩
  rw [List.cons_append, ← h.goals]
  rfl

/-- The body of a declaration opens a brace. -/
theorem enterBody (h : Held tail outer below (bodies below) s) (brace : s.kind = .opener .brace)
    (kind : BodyKind) (entry : Pending) : Confined tail outer (s.take.enterBody kind entry) := by
  have plain : ∀ goal ∈ Goal.body kind :: .declarationEnd kind.declaration :: below,
      goal.isPlain = true := by
    simp only [List.mem_cons, forall_eq_or_imp]
    exact ⟨rfl, rfl, h.plain⟩
  refine confined ⟨?_, plain, ?_, h.spelled.addLeaf none false⟩
  · have hread : s.take.goals = s.goals := goals_addLeaf none false
    rw [List.cons_append, List.cons_append, ← h.goals, ← hread]
    rfl
  · rw [bodies_cons_of_isBody rfl, bodies_cons_of_not_isBody rfl]
    have begun := h.begun
    rcases hrest : s.cursor.rest with _ | ⟨next, rest⟩
    · rw [ParseState.kind, Cursor.kind, hrest] at brace
      cases brace
    · rw [hrest] at begun
      show BodiesOpen tail _ (s.addLeaf none false).cursor.rest
      rw [rest_addLeaf, hrest]
      exact begun.of_opener (by rw [← kind_of_rest hrest, brace])

theorem failStatement (h : Held tail outer below begun s) (entry : Pending)
    (kind : DeclarationKind) : Held tail outer below begun (s.failStatement entry kind) := by
  rw [ParseState.failStatement]
  split
  · exact (h.skipStatement _).close _ _
  · exact (h.recoverStatement _).close _ _

end Held

/-! ## Tests -/

section

variable {expected : List Expectation} {fail ok : ParseState → ParseState}

theorem confined_require {test : Bool} (hfail : Confined tail outer (fail (t.report expected)))
    (hok : test = true → Confined tail outer (ok t)) :
    Confined tail outer (t.require test expected fail ok) := by
  rw [require]
  split
  case isTrue h => exact hok h
  case isFalse => exact hfail

theorem confined_expect {kind : TokenKind}
    (hfail : Confined tail outer (fail (t.report [.token kind])))
    (hok : t.kind = kind → Confined tail outer (ok t.take)) :
    Confined tail outer (t.expect kind fail ok) :=
  confined_require hfail fun h => hok (beq_iff_eq.mp h)

end

/-! ## Tokens that are no braces -/

theorem TokenKind.isBrace_of_isIdentifierLike {kind : TokenKind}
    (h : kind.isIdentifierLike = true) : kind.isBrace = false := by
  cases kind with
  | opener pair => cases h
  | closer pair => cases h
  | _ => rfl

theorem ParseState.isBrace_of_startsType {kind : TokenKind} (h : startsType kind = true) :
    kind.isBrace = false := by
  rcases (Bool.or_eq_true _ _).mp h with hword | hdot
  · exact TokenKind.isBrace_of_isIdentifierLike hword
  · rw [beq_iff_eq.mp hdot]
    rfl

theorem TokenKind.isBrace_of_isMapKeyType {kind : TokenKind} (h : kind.isMapKeyType = true) :
    kind.isBrace = false := by
  cases kind with
  | opener pair => cases h
  | closer pair => cases h
  | _ => rfl

/-- A word of its context is no brace. -/
theorem Held.isBrace_of_atWord {word : ContextWord} (h : Held tail outer below begun s)
    (hword : s.atWord word = true) : s.kind.isBrace = false := by
  rw [kind_of_atWord h.spelled hword]
  rfl

end ProtoFront
