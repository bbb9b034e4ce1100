import Mathlib.Logic.Function.Basic
import ProtoFront.Proofs.Parse.Moves

/-!
# Two parses side by side

Two parses are alike as long as the tokens in front of them are (`Alike`): they have made the same
nodes and reported the same, each behind what it had made and reported before, and their goals are
the same, each above the goals it had before. A `Likeness` says which tokens correspond, and what
each of the parses has had before and has behind the tokens that they share.

There are three degrees of it. Parses that share a passage of their inputs are alike until one of
them meets an error. If the inputs end together (`Likeness.whole`), the end may be looked at as
well. And if the layout corresponds, too (`Likeness.exact`), the parses are alike through all
errors. The guard plays no part in any of this.
-/

namespace ProtoFront

/-- The tokens that a statement may end with. -/
def TokenKind.endsStatement : TokenKind → Bool
  | .semicolon | .closer .brace => true
  | _ => false

theorem TokenKind.endsStatement_of_isIdentifierLike {kind : TokenKind}
    (h : kind.isIdentifierLike = true) : kind.endsStatement = false := by
  cases kind <;> first | rfl | cases h

/-- A node that stands for the same token under another number. -/
def Node.rename (token : Nat → Nat) (node : Node) : Node :=
  { node with token? := node.token?.map token }

/-- A diagnostic about the same token under another number. -/
def Diagnostic.rename (token : Nat → Nat) (diagnostic : Diagnostic) : Diagnostic :=
  { diagnostic with token := token diagnostic.token }

/-- What a parse has around the part that it shares with another one. -/
structure Surroundings where
  /-- the nodes made before -/
  nodes : Array Node
  /-- what was reported before -/
  reported : Array Diagnostic
  /-- the goals below -/
  below : List Pending
  /-- the lexemes behind -/
  behind : List Lexeme

/-- A parse that has nothing around it. -/
def Surroundings.none : Surroundings := ⟨#[], #[], [], []⟩

/-- How two parses correspond. -/
structure Likeness where
  first : Surroundings
  second : Surroundings
  /-- the number in the second buffer of a token in the first one -/
  token : Nat → Nat
  /-- how much further down the second parse reads -/
  lines : Nat
  /-- the inputs end together -/
  whole : Prop
  /-- the layout of the inputs is the same -/
  exact : Prop
  whole_of_exact : exact → whole
  injective_of_exact : exact → Function.Injective token
  alone_of_whole : whole → first.reported = #[] ∧ second.reported = #[] ∧ first.below = [] ∧
    second.below = [] ∧ first.behind = [] ∧ second.behind = []

namespace Likeness

variable (x : Likeness)

/-- Two lexemes that the parses cannot tell apart. -/
structure Lexemes (lexeme other : Lexeme) : Prop where
  index : other.index = x.token lexeme.index
  kind : other.kind = lexeme.kind
  word : other.word? = lexeme.word?
  layout : x.exact → other.line = lexeme.line + x.lines ∧ other.column = lexeme.column

/-- The lexemes that are left correspond up to what is behind. A passage ends with a token that
ends a statement. -/
inductive Rests : List Lexeme → List Lexeme → Prop
  | behind : Rests x.first.behind x.second.behind
  | next {lexeme other : Lexeme} {rest rest' : List Lexeme} : x.Lexemes lexeme other →
      (¬x.whole → rest = x.first.behind → lexeme.kind.endsStatement = true) →
      Rests rest rest' → Rests (lexeme :: rest) (other :: rest')

/-- Two constructs that have begun at corresponding tokens, with as many nodes since. Where a
construct begins in the layout matters only as long as there is something to skip (`there`). -/
structure Origins (there : Prop) (entry other : Pending) : Prop where
  token : other.origin.token = x.token entry.origin.token
  layout : x.exact → there → other.origin.line = entry.origin.line + x.lines ∧
    other.origin.column = entry.origin.column
  start : other.start + x.first.nodes.size = entry.start + x.second.nodes.size

/-- Two goals on the stacks that correspond. Where the whole input begins is not asked. -/
structure Entries (there : Prop) (entry other : Pending) : Prop where
  goal : other.goal = entry.goal
  failed : other.failed = entry.failed
  unflagged : ¬x.exact → entry.flagged = false
  origins : entry.goal.part ≠ .document → x.Origins there entry other

/-- The stacks correspond down to the goals below. -/
inductive Stacks (there : Prop) : List Pending → List Pending → Prop
  | ground : Stacks there x.first.below x.second.below
  | cons {entry other : Pending} {pending pending' : List Pending} :
      x.Entries there entry other → Stacks there pending pending' →
      Stacks there (entry :: pending) (other :: pending')

/-- The nodes made since the parses began to be alike correspond. -/
def Nodes (nodes nodes' : Array Node) : Prop :=
  ∃ made, nodes = x.first.nodes ++ made ∧ nodes' = x.second.nodes ++ made.map (Node.rename x.token)

/-- What has been reported since then corresponds. -/
def Reports (diagnostics diagnostics' : Array Diagnostic) : Prop :=
  ∃ found, diagnostics = x.first.reported ++ found ∧
    diagnostics' = x.second.reported ++ found.map (Diagnostic.rename x.token) ∧
      (¬x.exact → found = #[])

end Likeness

/-- Two states at corresponding places of their parses. -/
structure Alike (x : Likeness) (s t : ParseState) : Prop where
  rests : x.Rests s.cursor.rest t.cursor.rest
  ends : x.whole → t.cursor.endIndex = x.token s.cursor.endIndex
  ordered : (s.cursor.rest.map Lexeme.index ++ [s.cursor.endIndex]).Pairwise (· < ·)
  spelled : Spelled s.cursor.rest
  nodes : x.Nodes s.nodes t.nodes
  reports : x.Reports s.diagnostics t.diagnostics
  stack : x.Stacks (s.cursor.rest ≠ []) s.pending t.pending

/-- Two states that hold corresponding constructs. -/
structure Coupled (x : Likeness) (entry : Pending) (s : ParseState) (other : Pending)
    (t : ParseState) : Prop extends Alike x s t where
  entries : x.Entries (s.cursor.rest ≠ []) entry other
  origins : x.Origins (s.cursor.rest ≠ []) entry other

/-- Two states that look at corresponding tokens. -/
structure Abreast (x : Likeness) (entry : Pending) (s : ParseState) (other : Pending)
    (t : ParseState) : Prop extends Coupled x entry s other t where
  ahead : x.whole ∨ s.cursor.rest ≠ x.first.behind

/-- Something is wrong with the first parse: it has reported something, or a construct above the
goals below has failed. -/
def Likeness.Spoiled (x : Likeness) (s : ParseState) : Prop :=
  s.diagnostics ≠ x.first.reported ∨ ∃ top pending, s.pending = top :: pending ∧
    top.failed = true ∧ x.first.below.length < s.pending.length

/-- Two parses have met an error and are not compared any further. If they had no errors before,
both have reported the same first. -/
structure Likeness.Strays (x : Likeness) (s t : ParseState) : Prop where
  inexact : ¬x.exact
  spoiled : x.Spoiled s
  first : x.whole → ∃ diagnostic, s.diagnostics[0]? = some diagnostic ∧
    t.diagnostics[0]? = some (diagnostic.rename x.token)

/-- What two parses make of corresponding tokens. -/
def Answers (x : Likeness) (s t : ParseState) : Prop := Alike x s t ∨ x.Strays s t

end ProtoFront
