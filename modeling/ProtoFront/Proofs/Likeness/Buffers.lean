import ProtoFront.Proofs.Likeness.Steps

/-!
# Parses of two buffers side by side

Buffers whose significant tokens correspond, layout included, have corresponding trees and reports.
In particular a buffer has the same ones however often recoveries may repeat: the limit of the guard
is part of the state only.
-/

namespace ProtoFront

open ParseState

namespace Likeness

/-- The first of two parses begins its input, and the second one has made nodes before, if any. Both
read to the end, the second one further down by some lines. -/
def shifted (nodes : Array Node) (token : Nat → Nat) (injective : Function.Injective token)
    (lines : Nat) : Likeness where
  first := .none
  second := { Surroundings.none with nodes }
  token
  lines
  whole := True
  exact := True
  whole_of_exact := id
  injective_of_exact _ := injective
  alone_of_whole _ := ⟨rfl, rfl, rfl, rfl, rfl, rfl⟩

/-- A lexeme of the first parse in the second one. -/
def lexeme (x : Likeness) (lexeme : Lexeme) : Lexeme :=
  { lexeme with index := x.token lexeme.index, line := lexeme.line + x.lines }

variable {nodes : Array Node} {token : Nat → Nat} {injective : Function.Injective token}
variable {lines : Nat}

theorem rests_map (lexemes : List Lexeme) :
    (shifted nodes token injective lines).Rests lexemes
      (lexemes.map (shifted nodes token injective lines).lexeme) := by
  induction lexemes with
  | nil => exact .behind
  | cons next rest ih =>
    exact .next ⟨rfl, rfl, rfl, fun _ => ⟨rfl, rfl⟩⟩ (fun part => absurd trivial part) ih

theorem nodes_shifted_iff {made made' : Array Node} :
    (shifted nodes token injective lines).Nodes made made' ↔
      made' = nodes ++ made.map (Node.rename token) := by
  simp [Nodes, shifted, Surroundings.none]

theorem reports_shifted_iff {found found' : Array Diagnostic} :
    (shifted nodes token injective lines).Reports found found' ↔
      found' = found.map (Diagnostic.rename token) := by
  simp [Reports, shifted, Surroundings.none]

end Likeness

/-- The input ends at the end marker, or behind the last token. -/
theorem TokenBuffer.kindAt_endIndex (buffer : TokenBuffer) :
    buffer.kindAt buffer.endIndex = .eof := by
  rw [kindAt, token?, endIndex, ← Array.getElem?_toList]
  split
  case h_2 => rfl
  case h_1 token htoken =>
    obtain ⟨hlt, rfl⟩ := List.getElem?_eq_some_iff.mp htoken
    have hfound := List.findIdx_getElem (w := hlt)
    simpa using hfound

/-- The significant tokens come in order, and all of them in front of the end. -/
theorem TokenBuffer.ordered_cursor (buffer : TokenBuffer) :
    (buffer.cursor.rest.map Lexeme.index ++ [buffer.cursor.endIndex]).Pairwise (· < ·) := by
  show (buffer.significant.map Lexeme.index ++ [buffer.endIndex]).Pairwise (· < ·)
  rw [buffer.map_index_significant, List.pairwise_append]
  refine ⟨buffer.pairwise_significantIndices, List.pairwise_singleton _ _, ?_⟩
  intro index hindex last hlast
  obtain rfl := List.mem_singleton.mp hlast
  obtain ⟨there, -⟩ := TokenBuffer.mem_significantIndices.mp hindex
  by_contra hle
  exact there buffer.endIndex (Nat.not_lt.mp hle) buffer.kindAt_endIndex

section

variable {nodes : Array Node} {token : Nat → Nat} {buffer other : TokenBuffer}

/-- A parse is at the beginning of its input if it has only the goal for all of it. -/
theorem alike_initial {injective : Function.Injective token} {lines : Nat} {t : ParseState}
    {entry : Pending} (fragment : Fragment) (syncLimit : Nat)
    (rest : t.cursor.rest =
      buffer.significant.map (Likeness.shifted nodes token injective lines).lexeme)
    (ends : t.cursor.endIndex = token buffer.endIndex) (hnodes : t.nodes = nodes)
    (unreported : t.diagnostics = #[]) (pending : t.pending = [entry])
    (goal : entry.goal = fragment.goal) (unmarked : entry.failed = false) :
    Alike (Likeness.shifted nodes token injective lines)
      (initial buffer.cursor fragment syncLimit) t := by
  have document : fragment.goal.part = .document := by cases fragment <;> rfl
  refine ⟨?_, fun _ => ends, buffer.ordered_cursor, buffer.spelled_significant, ?_, ?_, ?_⟩
  · rw [rest]
    exact Likeness.rests_map _
  · rw [Likeness.nodes_shifted_iff, hnodes]
    simp [initial, pushGoal]
  · rw [Likeness.reports_shifted_iff, unreported]
    simp [initial, pushGoal]
  · rw [pending]
    exact .cons ⟨goal, unmarked, fun inexact => absurd trivial inexact,
      fun inner => absurd document inner⟩ .ground

/-- Parses of buffers with corresponding significant tokens, and corresponding places of them, go on
side by side, whatever the limits are. -/
theorem TokenBuffer.alike_run (injective : Function.Injective token) (lines : Nat)
    (rest : other.significant =
      buffer.significant.map (Likeness.shifted #[] token injective lines).lexeme)
    (ends : other.endIndex = token buffer.endIndex) (fragment : Fragment)
    (limit limit' steps : Nat) :
    Alike (.shifted #[] token injective lines) ((initial buffer.cursor fragment limit).run steps)
      ((initial other.cursor fragment limit').run steps) := by
  have start : Alike (.shifted #[] token injective lines) (initial buffer.cursor fragment limit)
      (initial other.cursor fragment limit') :=
    alike_initial fragment limit rest ends rfl rfl rfl rfl rfl
  exact start.run (buffer.sound_initial fragment limit) trivial steps

/-- Their trees and reports correspond. -/
theorem TokenBuffer.parseTokens_shifted (injective : Function.Injective token) (lines : Nat)
    (rest : other.significant =
      buffer.significant.map (Likeness.shifted #[] token injective lines).lexeme)
    (ends : other.endIndex = token buffer.endIndex) (fragment : Fragment) (limit limit' : Nat) :
    (other.parseTokens fragment limit').tree.nodes =
        (buffer.parseTokens fragment limit).tree.nodes.map (Node.rename token) ∧
      (other.parseTokens fragment limit').diagnostics =
        (buffer.parseTokens fragment limit).diagnostics.map (Diagnostic.rename token) := by
  have alike := alike_run injective lines rest ends fragment limit limit'
    (stepBound buffer.significant.length)
  have length : other.significant.length = buffer.significant.length := by
    rw [rest, List.length_map]
  have fuel : stepBound other.cursor.rest.length = stepBound buffer.significant.length :=
    congrArg stepBound length
  have nodes := Likeness.nodes_shifted_iff.mp alike.nodes
  have reports := Likeness.reports_shifted_iff.mp alike.reports
  rw [Array.empty_append] at nodes
  simp only [parseTokens, fuel, nodes, reports, Array.toList_map]
  exact ⟨rfl, rfl⟩

end

/-! ## The limit of the guard -/

theorem Node.rename_id : Node.rename id = id := by
  funext node
  rcases node with ⟨token?, size, failed, tag?⟩
  cases token? <;> rfl

theorem Diagnostic.rename_id : Diagnostic.rename id = id := rfl

/-- How often a recovery may repeat at a token changes nothing of what a parse makes. The guard has
its say only at the separator of a list, and there a recovery that did not move has found none. -/
theorem parse_eq_of_syncLimit (buffer : TokenBuffer) (fragment : Fragment) (limit limit' : Nat)
    (nonempty : buffer.tokens ≠ #[]) :
    ∃ parsed parsed', buffer.parse fragment limit = .ok parsed ∧
      buffer.parse fragment limit' = .ok parsed' ∧ parsed'.tree = parsed.tree ∧
      parsed'.diagnostics = parsed.diagnostics := by
  have same := TokenBuffer.parseTokens_shifted Function.injective_id 0
    (List.map_id buffer.significant).symm rfl fragment limit limit'
  rw [Node.rename_id, Diagnostic.rename_id, Array.map_id, List.map_id] at same
  exact ⟨_, _, buffer.parse_eq_ok fragment limit nonempty,
    buffer.parse_eq_ok fragment limit' nonempty, congrArg ParseTree.mk same.1, same.2⟩

/-- A text message in which a parenthesis closes nothing. -/
def TokenBuffer.strayCloser : TokenBuffer := tokenize "option a = \x7b 1 ) \x7d;" false

/-- In front of the parenthesis a recovery is repeated, which is once too often for one of the
parses. They make the same of the buffer. -/
theorem parse_eq_of_syncLimit_strayCloser : TokenBuffer.strayCloser.tokens ≠ #[] ∧
    ∃ parsed parsed', TokenBuffer.strayCloser.parse .file 0 = .ok parsed ∧
      TokenBuffer.strayCloser.parse .file 10 = .ok parsed' ∧ parsed'.tree = parsed.tree ∧
      parsed'.diagnostics = parsed.diagnostics ∧
      parsed.diagnostics.map Diagnostic.token = [4, 5, 6] ∧
      .resynced .gaveUp 5 1 ∈ parsed.events ∧ .resynced .repeated 5 1 ∈ parsed'.events := by
  have nonempty : TokenBuffer.strayCloser.tokens ≠ #[] := by decide +kernel
  obtain ⟨parsed, parsed', hparsed, hparsed', trees, diagnostics⟩ :=
    parse_eq_of_syncLimit TokenBuffer.strayCloser .file 0 10 nonempty
  refine ⟨nonempty, parsed, parsed', hparsed, hparsed', trees, diagnostics, ?_⟩
  rw [TokenBuffer.parse_eq_ok _ _ _ nonempty] at hparsed hparsed'
  obtain rfl := Except.ok.inj hparsed
  obtain rfl := Except.ok.inj hparsed'
  exact ⟨by decide +kernel, by decide +kernel, by decide +kernel⟩

end ProtoFront
