import ProtoFront.Proofs.Parse.Runs

/-!
# Frames

The goals on the stack and the numbers of nodes at which their constructs began, without the marks
(`ParseState.frames`). A step leaves the frames below the goal that it pursues as they are.
-/

namespace ProtoFront

open ParseState

variable {now : Pending} {s t final : ParseState} {before : Nat}

/-- A goal, and the number of nodes that there were when its construct began. -/
def Pending.frame (entry : Pending) : Goal × Nat := (entry.goal, entry.start)

/-- The marks cost nothing. -/
theorem totalCost_eq_of_frames {pending pending' : List Pending}
    (h : pending.map Pending.frame = pending'.map Pending.frame) :
    totalCost pending = totalCost pending' := by
  have hcost (pending : List Pending) : totalCost pending =
      (pending.map Pending.frame).foldr (fun frame cost => frame.1.cost + cost) 0 := by
    rw [List.foldr_map]
    rfl
  rw [hcost, hcost, h]

namespace ParseState

/-- The goals on the stack, with the number of nodes that there were when their constructs began. -/
def frames (s : ParseState) : List (Goal × Nat) := s.pending.map Pending.frame

theorem frames_addLeaf (tag? : Option NodeKind) (failed : Bool) :
    (s.addLeaf tag? failed).frames = s.frames := by
  rw [frames, pending_addLeaf, frames]

theorem frames_letGo (entry : Pending) : (s.letGo entry).frames = s.frames := by
  rw [frames, letGo, markEnclosing, frames]
  split
  · split
    case h_1 => rfl
    case h_2 hpending => rw [hpending]; rfl
  · rfl

theorem frames_close (entry : Pending) (tag? : Option NodeKind) :
    (s.close entry tag?).frames = s.frames := by
  rw [close_eq, frames_letGo]
  rfl

end ParseState

/-- The goals below the one that is pursued stay as they are. What comes above them begins now, or
with the construct that is held, and does not read the whole input unless that one did. -/
theorem Ends.exists_frames (h : Ends before now t final) : ∃ new, final.frames = new ++ t.frames ∧
    ∀ frame ∈ new, frame.2 = t.nodes.size ∨
      (frame.2 = now.start ∧ (frame.1.part ≠ .document → now.goal.part ≠ .document)) := by
  cases h with
  | finish => exact ⟨[], rfl, by simp⟩
  | goOn goal opened stays part =>
    refine ⟨[(goal, now.start)], rfl, ?_⟩
    simp [part]
  | delegate goal next failed opened part =>
    refine ⟨[(next, t.nodes.size), (goal, now.start)], rfl, ?_⟩
    simp [part]
  | enter kind opened part =>
    refine ⟨[(.body kind, now.start), (.declarationEnd kind.declaration, now.start)], rfl, ?_⟩
    simp [part]
  | replace next => exact ⟨[(next, t.nodes.size)], rfl, by simp⟩
  | parenthesize =>
    refine ⟨[(.qualifiedName none, t.nodes.size), (.optionNameExtensionEnd, t.nodes.size)], rfl, ?_⟩
    simp
  | pass => exact ⟨[], frames_letGo now, by simp⟩
  | close tag? => exact ⟨[], frames_close now tag?, by simp⟩
  | separate =>
    refine ⟨[], ?_, by simp⟩
    rw [take, frames_addLeaf, frames_close]
    rfl
  | terminate => exact ⟨[], frames_close now _, by simp⟩
  | closeScope => exact ⟨[], frames_close (s := t.addSynthetic _ _) now _, by simp⟩
  | closeBody => exact ⟨[], (frames_letGo now).trans (frames_addLeaf _ _), by simp⟩
  | cutBody =>
    refine ⟨[], ?_, by simp⟩
    rw [frames_letGo]
    split <;> rfl
  | junk failed goal =>
    refine ⟨[(.file, now.start)], ?_, by simp [Goal.part]⟩
    have hread : t.discard.frames = t.frames := frames_addLeaf none true
    rw [List.singleton_append, ← hread]
    rfl

/-- A step leaves everything below the goal that it pursues. -/
theorem Sound.exists_frames (h : Sound s) {top : Goal × Nat} {below : List (Goal × Nat)}
    (hframes : s.frames = top :: below) : ∃ new, s.step.frames = new ++ below := by
  have running : s.pending ≠ [] := by
    intro hnone
    rw [frames, hnone] at hframes
    cases hframes
  obtain ⟨top', t, -, -, -, rfl, now, u, moves, ends⟩ := h.handled running
  obtain ⟨new, hfinal, -⟩ := ends.exists_frames
  refine ⟨new, ?_⟩
  rw [hfinal, frames, moves.pending_eq, (List.cons.inj hframes).2.symm]

/-- Where no goal is left nothing happens any more. -/
theorem ParseState.run_succ (s : ParseState) (fuel : Nat) : s.run (fuel + 1) = s.step.run fuel := by
  rw [run]
  split
  case isTrue hdone =>
    have hstep : s.step = s := by rw [step, List.isEmpty_iff.mp hdone]
    rw [hstep]
    cases fuel with
    | zero => rfl
    | succ fuel => rw [run, if_pos hdone]
  case isFalse => rfl

/-! ## Into the first declaration of a file -/

/-- The word that opens a scope, the name of the scope and a brace lead into its body. -/
theorem step_step_initial (kind : ScopeKind) (cursor : Cursor) {word name brace : Lexeme}
    {lexemes : List Lexeme} (rest : cursor.rest = word :: name :: brace :: lexemes)
    (hword : word.kind = .keyword kind.word)
    (opens : topLevel? (.keyword kind.word) = some (.scope kind))
    (hname : name.kind.isIdentifierLike = true) (hbrace : brace.kind = .opener .brace)
    (syncLimit : Nat) :
    (initial cursor .file syncLimit).step.step =
      { cursor := { cursor with rest := lexemes }
        nodes := #[⟨some word.index, 1, false, none⟩, ⟨some name.index, 1, false, some .name⟩,
          ⟨some brace.index, 1, false, none⟩]
        pending := [⟨.body (.scope kind), cursor.origin, 0, false⟩,
          ⟨.declarationEnd (.scope kind), cursor.origin, 0, false⟩,
          ⟨.file, cursor.origin, 0, false⟩]
        diagnostics := #[]
        guard := ⟨syncLimit, none, 0⟩
        events := #[] } := by
  obtain ⟨all, endIndex⟩ := cursor
  subst rest
  simp [initial, step, pursue, Fragment.goal, pushGoal, file, ParseState.kind, Cursor.kind, hword,
    opens, scope, take, takeAs, addLeaf, require, expect, hname, hbrace, enterBody, resume,
    Cursor.origin, BodyKind.declaration]

end ProtoFront
