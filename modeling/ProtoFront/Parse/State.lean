import ProtoFront.Diagnostic.Basic
import ProtoFront.Parse.Cursor
import ProtoFront.Parse.Goal
import ProtoFront.Tree.Basic

/-!
# The state of the parser

Between two steps the parser has the lexemes that are left, the nodes made so far, the stack of
goals, and what it has reported. Every change of that state is one of a few moves: a token becomes
a leaf (`addLeaf`), a node is made without a token (`addSynthetic`) or over everything made since
some point (`close`), a diagnostic is reported (`report`), a goal is put on the stack (`pushGoal`
for a new construct, `resume` for the continuation of one).

A construct that fails marks the goal on top of the stack, which is where the construct around it
goes on. In that way errors travel outwards.
-/

namespace ProtoFront

/-- A goal on the stack, with the construct that it belongs to: where the construct began, how
many nodes there were, and whether some part of it has failed. -/
structure Pending where
  goal : Goal
  origin : Origin
  start : Nat
  failed : Bool
  deriving DecidableEq, Repr, Inhabited

/-- How a recovery ended. -/
inductive Resync where
  /-- it read tokens, or stopped where no recovery had stopped before -/
  | advanced
  /-- it read nothing and stopped where the last one had stopped -/
  | repeated
  /-- the same more often than is allowed -/
  | gaveUp
  deriving DecidableEq, Repr, Inhabited

/-- Watches that recoveries make progress: where the last one stopped, and how often it has been
repeated there. -/
structure SyncGuard where
  limit : Nat
  last? : Option Nat
  repeats : Nat
  deriving DecidableEq, Repr, Inhabited

/-- Takes note of a recovery from one token to another. -/
def SyncGuard.note (guard : SyncGuard) (start stop : Nat) : SyncGuard × Resync :=
  if start = stop ∧ guard.last? = some stop then
    ({ guard with repeats := guard.repeats + 1 },
      if guard.limit < guard.repeats + 1 then .gaveUp else .repeated)
  else ({ guard with last? := some stop, repeats := 0 }, .advanced)

/-- What a parse tells about its course. -/
inductive ParseEvent where
  | reported (diagnostic : Diagnostic)
  | resynced (outcome : Resync) (token attempts : Nat)
  deriving DecidableEq, Repr, Inhabited

/-- Everything the parser knows between two steps. -/
structure ParseState where
  cursor : Cursor
  nodes : Array Node
  pending : List Pending
  diagnostics : Array Diagnostic
  guard : SyncGuard
  events : Array ParseEvent
  deriving Repr, Inhabited

namespace ParseState

/-! ## Looking -/

/-- The kind of the next token. -/
def kind (s : ParseState) : TokenKind := s.cursor.kind

/-- The kind of the token after the next one. -/
def following (s : ParseState) : TokenKind := s.cursor.following

/-- The number of the next token. -/
def position (s : ParseState) : Nat := s.cursor.position

/-- Whether the next token spells a word of its context. -/
def atWord (s : ParseState) (word : ContextWord) : Bool := s.cursor.word? == some word

/-- Whether a kind may begin the name of a type: a name, or a leading dot. -/
def startsType (kind : TokenKind) : Bool := kind.isIdentifierLike || kind == .dot

/-- Whether the last diagnostic is about the next token. What is reported once is not reported
again by the constructs around it. -/
def reportedHere (s : ParseState) : Bool :=
  match s.diagnostics.back? with
  | some last => last.token == s.position
  | none => false

/-! ## Making nodes -/

/-- Makes the next token a leaf. At the end of the input nothing happens. -/
def addLeaf (s : ParseState) (tag? : Option NodeKind) (failed : Bool) : ParseState :=
  match s.cursor.rest with
  | [] => s
  | next :: rest =>
    { s with
      cursor := { s.cursor with rest }
      nodes := s.nodes.push ⟨some next.index, 1, failed, tag?⟩ }

/-- Makes the next token a plain leaf. -/
def take (s : ParseState) : ParseState := s.addLeaf none false

/-- Makes the next token a leaf of a certain kind. -/
def takeAs (s : ParseState) (kind : NodeKind) : ParseState := s.addLeaf (some kind) false

/-- Makes the next token a leaf that is marked as an error. -/
def discard (s : ParseState) : ParseState := s.addLeaf none true

/-- Makes the next `n` tokens plain leaves. -/
def takeMany : Nat → ParseState → ParseState
  | 0, s => s
  | n + 1, s => takeMany n s.take

/-- Makes plain leaves of all tokens in a row that are of certain kinds. -/
def takeRun (s : ParseState) (member : TokenKind → Bool) : ParseState :=
  takeMany (s.cursor.rest.takeWhile fun lexeme => member lexeme.kind).length s

/-- Makes the next `n` tokens leaves that are marked as errors. -/
def discardMany : Nat → ParseState → ParseState
  | 0, s => s
  | n + 1, s => discardMany n s.discard

/-- Makes a leaf that stands for no token. -/
def addSynthetic (s : ParseState) (kind : NodeKind) (failed : Bool) : ParseState :=
  { s with nodes := s.nodes.push ⟨none, 1, failed, some kind⟩ }

/-- Makes a node over everything made since there were `start` nodes. -/
def addParent (s : ParseState) (token? : Option Nat) (start : Nat) (tag? : Option NodeKind)
    (failed : Bool) : ParseState :=
  { s with nodes := s.nodes.push ⟨token?, s.nodes.size - start + 1, failed, tag?⟩ }

/-! ## Reporting -/

/-- Reports that the next token is none of what is expected. -/
def report (s : ParseState) (expected : List Expectation) : ParseState :=
  let diagnostic : Diagnostic := ⟨expected, s.kind, s.position⟩
  { s with
    diagnostics := s.diagnostics.push diagnostic
    events := s.events.push (.reported diagnostic) }

/-! ## The stack -/

/-- Begins a construct with the next token. -/
def pushGoal (s : ParseState) (goal : Goal) : ParseState :=
  { s with pending := ⟨goal, s.cursor.origin, s.nodes.size, false⟩ :: s.pending }

/-- Goes on with the construct of `entry` later, at another goal. -/
def resume (s : ParseState) (entry : Pending) (goal : Goal) : ParseState :=
  { s with pending := { entry with goal } :: s.pending }

/-- Tells the construct around the present one that a part of it has failed. -/
def markEnclosing (s : ParseState) : ParseState :=
  match s.pending with
  | [] => s
  | top :: below => { s with pending := { top with failed := true } :: below }

/-- Makes the node of a construct. One that has read nothing stands for no token, since the token
it would name belongs to a later leaf. -/
def close (s : ParseState) (entry : Pending) (tag? : Option NodeKind) : ParseState :=
  let token? := if entry.start = s.nodes.size then none else some entry.origin.token
  let closed := s.addParent token? entry.start tag? entry.failed
  if entry.failed then closed.markEnclosing else closed

end ParseState

/-- The same construct, with a part that has failed. -/
def Pending.broken (entry : Pending) : Pending := { entry with failed := true }

end ProtoFront
