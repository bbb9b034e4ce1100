import ProtoFront.Proofs.Parse.Runs
import ProtoFront.Proofs.Tree.Forest

/-!
# How the tree grows

The nodes that a parse has made are a forest, and the goals on the stack cut it into pieces: each
construct has made the trees that lie between its first node and the first node of the construct
above it (`Grown`). Leaves are added at the end, and a construct that is closed makes one tree out
of its piece.
-/

namespace ProtoFront

open ParseState

/-- What is made of a token, or without one. -/
def Forest.leaf (token? : Option Nat) (failed : Bool) (kind? : Option NodeKind) : Forest :=
  tree ⟨token?, failed, kind?⟩ nil

namespace ParseState

variable {s : ParseState} {forest : Forest}

/-- The nodes of a state are laid out from a forest. -/
def Lays (s : ParseState) (forest : Forest) : Prop := s.nodes.toList = forest.encode

theorem Lays.size_eq (h : s.Lays forest) : s.nodes.size = forest.size := by
  rw [← Array.length_toList, h, Forest.length_encode]

theorem Lays.addLeaf (h : s.Lays forest) (tag? : Option NodeKind) (failed : Bool)
    {next : Lexeme} {rest : List Lexeme} (hrest : s.cursor.rest = next :: rest) :
    (s.addLeaf tag? failed).Lays (forest ++ .leaf (some next.index) failed tag?) := by
  rw [Lays, s.nodes_addLeaf _ _ hrest, Array.toList_push, h, Forest.encode_append]
  rfl

theorem Lays.addSynthetic (h : s.Lays forest) (kind : NodeKind) (failed : Bool) :
    (s.addSynthetic kind failed).Lays (forest ++ .leaf none failed (some kind)) := by
  rw [Lays, ParseState.addSynthetic, Array.toList_push, h, Forest.encode_append]
  rfl

/-- A parent over everything since `before` takes the trees since then as its children. -/
theorem Lays.addParent {before since : Forest} (h : s.Lays (before ++ since))
    (token? : Option Nat) (tag? : Option NodeKind) (failed : Bool) :
    (s.addParent token? before.size tag? failed).Lays
      (before ++ .tree ⟨token?, failed, tag?⟩ since) := by
  have hsize : s.nodes.size - before.size = since.size := by
    rw [h.size_eq, Forest.size_append]
    omega
  rw [Lays, nodes_addParent, Array.toList_push, h, Forest.encode_append, Forest.encode_append,
    Forest.tree, Forest.encode, List.append_assoc, hsize]
  rfl

theorem Lays.letGo (h : s.Lays forest) (now : Pending) : (s.letGo now).Lays forest := by
  rw [Lays, nodes_letGo]
  exact h

/-- A construct that is closed is one tree. -/
theorem Lays.close {before since : Forest} {now : Pending} (h : s.Lays (before ++ since))
    (start : now.start = before.size) (tag? : Option NodeKind) : ∃ token?,
    (s.close now tag?).Lays (before ++ .tree ⟨token?, now.failed, tag?⟩ since) := by
  have hparent :=
    h.addParent (if now.start = s.nodes.size then none else some now.origin.token) tag? now.failed
  rw [← start] at hparent
  exact ⟨_, hparent.letGo now⟩

end ParseState

/-- `Grown fits pending forest`: the forest is made of the pieces of the constructs on the stack,
and each piece fits its construct. -/
inductive Grown (fits : Pending → Forest → Prop) : List Pending → Forest → Prop
  | bottom : Grown fits [] .nil
  | piece {entry : Pending} {below : List Pending} {before since : Forest} :
      Grown fits below before → entry.start = before.size → fits entry since →
      Grown fits (entry :: below) (before ++ since)

/-- Marking the construct on top leaves the pieces as they are. -/
theorem Grown.markEnclosing {fits : Pending → Forest → Prop} {s : ParseState} {forest : Forest}
    (h : Grown fits s.pending forest)
    (mark : ∀ {top since}, fits top since → fits top.broken since) :
    Grown fits s.markEnclosing.pending forest := by
  rw [ParseState.markEnclosing]
  split
  case h_1 => exact h
  case h_2 hpending =>
    rw [hpending] at h
    cases h with
    | piece below start since => exact .piece below start (mark since)

theorem Awaited.markEnclosing {part : Part} {s : ParseState} (h : Awaited part s.pending) :
    Awaited part s.markEnclosing.pending := by
  rw [ParseState.markEnclosing]
  split
  case h_1 => exact h
  case h_2 hpending => rwa [hpending] at h

end ProtoFront
