import ProtoFront.Proofs.Parse.Termination

/-!
# Every token is in the tree

Whatever the parser does, the tokens of the leaves made so far and the tokens that are left are
together the significant tokens of the buffer, each once and in order. A node that is made without
reading is no leaf of a token: either it stands over other nodes, or it names no token.
-/

namespace ProtoFront

open ParseState

variable {entry now : Pending} {s t final : ParseState} {before : Nat}

namespace ParseTree

variable (nodes : Array Node) (node : Node)

theorem leafTokens_push : (⟨nodes.push node⟩ : ParseTree).leafTokens =
    (⟨nodes⟩ : ParseTree).leafTokens ++ (if node.isLeaf then node.token? else none).toList := by
  rw [leafTokens, leafTokens, Array.toList_push, List.filterMap_append, List.filterMap_cons,
    List.filterMap_nil]
  split <;> simp_all

end ParseTree

/-- The tokens that are leaves, and then those that are left. -/
def ParseState.accounted (s : ParseState) : List Nat :=
  (⟨s.nodes⟩ : ParseTree).leafTokens ++ s.cursor.rest.map Lexeme.index

theorem accounted_addLeaf (s : ParseState) (tag? : Option NodeKind) (failed : Bool) :
    (s.addLeaf tag? failed).accounted = s.accounted := by
  rcases hrest : s.cursor.rest with _ | ⟨next, rest⟩
  · rw [s.addLeaf_of_rest_eq_nil _ _ hrest]
  · rw [accounted, accounted, s.nodes_addLeaf _ _ hrest, rest_addLeaf, hrest,
      ParseTree.leafTokens_push, List.append_assoc]
    rfl

/-- A node over others is no leaf, and a node over none names no token. -/
theorem accounted_addParent (s : ParseState) {token? : Option Nat} {start : Nat}
    (tag? : Option NodeKind) (failed : Bool) (start_le : start ≤ s.nodes.size)
    (named : token? ≠ none → start ≠ s.nodes.size) :
    (s.addParent token? start tag? failed).accounted = s.accounted := by
  rw [accounted, accounted, cursor_addParent, nodes_addParent, ParseTree.leafTokens_push]
  have bare : (if (⟨token?, s.nodes.size - start + 1, failed, tag?⟩ : Node).isLeaf then token?
      else none) = none := by
    split
    case isTrue hleaf =>
      by_contra hnamed
      have hstart := named hnamed
      have hsize : s.nodes.size - start + 1 = 1 := eq_of_beq hleaf
      omega
    case isFalse => rfl
  rw [bare]
  simp

theorem accounted_letGo (s : ParseState) (now : Pending) :
    (s.letGo now).accounted = s.accounted := by
  rw [accounted, accounted, nodes_letGo, cursor_letGo]

theorem accounted_close (s : ParseState) (now : Pending) (tag? : Option NodeKind)
    (start : now.start ≤ s.nodes.size) : (s.close now tag?).accounted = s.accounted := by
  rw [close_eq, accounted_letGo]
  refine accounted_addParent s tag? now.failed start fun hnamed hstart => ?_
  rw [if_pos hstart] at hnamed
  exact hnamed rfl

theorem accounted_addSynthetic (s : ParseState) (tag : NodeKind) (failed : Bool) :
    (s.addSynthetic tag failed).accounted = s.accounted := by
  rw [accounted, accounted, addSynthetic, ParseTree.leafTokens_push]
  simp

/-- Reading and skipping turn each token into one leaf. -/
theorem Moves.accounted_eq (h : Moves entry s now t) : t.accounted = s.accounted := by
  induction h with
  | start => rfl
  | leaf tag? _ _ _ ih => rw [accounted_addLeaf, ih]
  | discard _ _ _ ih => rw [ParseState.discard, accounted_addLeaf, ih]
  | report expected _ ih => exact ih
  | breaks _ _ ih => exact ih
  | resync start _ _ ih => exact ih
  | range _ _ _ _ grown ih ih' =>
    rw [accounted_addParent _ _ _ (Nat.le_of_lt grown) (fun _ => Nat.ne_of_lt grown), ih', ih]

theorem Ends.accounted_eq (h : Ends before now t final) (start : now.start ≤ t.nodes.size) :
    final.accounted = t.accounted := by
  cases h with
  | finish | goOn | delegate | enter | replace | parenthesize => rfl
  | pass => exact accounted_letGo t now
  | close tag? => exact accounted_close t now tag? start
  | separate => rw [take, accounted_addLeaf, accounted_close t now _ start]
  | terminate => rw [accounted_addSynthetic, accounted_close t now _ start]
  | closeScope =>
    have hstart : now.start ≤ (t.addSynthetic .scopeClose true).nodes.size :=
      Nat.le_trans start (by simp [addSynthetic])
    rw [accounted_close _ now _ hstart, accounted_addSynthetic]
  | closeBody => rw [accounted_letGo, accounted_addLeaf]
  | cutBody =>
    rw [accounted_letGo]
    split
    · rw [accounted_addSynthetic]
    · rfl
  | junk => exact accounted_addLeaf t none true

theorem Sound.accounted_step (h : Sound s) : s.step.accounted = s.accounted := by
  by_cases running : s.pending = []
  · rw [ParseState.step, running]
  · obtain ⟨top, t, -, start, -, hs, now, u, moves, ends⟩ := h.handled running
    have hgrows := moves.grows
    have hleft := moves.left_le
    rw [ends.accounted_eq (by rw [moves.start_eq]; omega), moves.accounted_eq, hs]
    rfl

theorem Sound.accounted_run (h : Sound s) (fuel : Nat) : (s.run fuel).accounted = s.accounted :=
  h.run_keeps (fun u => u.accounted = s.accounted) rfl
    (fun _ sound accounted => sound.accounted_step.trans accounted) fuel

/-- When no goal is left, no token is. -/
theorem Sound.rest_eq_nil (h : Sound s) (ended : s.pending = []) : s.cursor.rest = [] := by
  cases h with
  | finished _ rest => exact rest
  | going => exact absurd ended (List.cons_ne_nil _ _)

/-- No token is lost, duplicated or moved, whatever is wrong with the input: the leaves of the tree
that stand for tokens stand for the tokens in front of the first end marker that are no comments,
each once and in order. -/
theorem leafTokens_parse (buffer : TokenBuffer) (fragment : Fragment) (syncLimit : Nat)
    (nonempty : buffer.tokens ≠ #[]) :
    ∃ parsed, buffer.parse fragment syncLimit = .ok parsed ∧
      parsed.tree.leafTokens.Pairwise (· < ·) ∧
      ∀ index, index ∈ parsed.tree.leafTokens ↔
        (∀ other ≤ index, buffer.kindAt other ≠ .eof) ∧
          (buffer.kindAt index).isComment = false := by
  have sound := buffer.sound_initial fragment syncLimit
  have ended := sound.pending_run _ (price_initial_le buffer.cursor fragment syncLimit)
  have hrun := sound.accounted_run (stepBound buffer.cursor.rest.length)
  have hall : (buffer.parseTokens fragment syncLimit).tree.leafTokens =
      buffer.significantIndices := by
    rw [← buffer.map_index_significant]
    rw [accounted, (sound.run _).rest_eq_nil ended, List.map_nil, List.append_nil] at hrun
    exact hrun
  refine ⟨buffer.parseTokens fragment syncLimit, ?_, ?_, ?_⟩
  · rw [TokenBuffer.parse, if_neg (by simpa using nonempty)]
  · rw [hall]
    exact buffer.pairwise_significantIndices
  · intro index
    rw [hall, TokenBuffer.mem_significantIndices]

/-- Of the five nodes of the message that is cut off, three are leaves that stand for tokens. -/
theorem leafTokens_cutMessage : TokenBuffer.cutMessage.tokens ≠ #[] ∧
    ∃ parsed, TokenBuffer.cutMessage.parse .file 0 = .ok parsed ∧
      parsed.tree.leafTokens.Pairwise (· < ·) ∧
      (∀ index, index ∈ parsed.tree.leafTokens ↔
        (∀ other ≤ index, TokenBuffer.cutMessage.kindAt other ≠ .eof) ∧
          (TokenBuffer.cutMessage.kindAt index).isComment = false) ∧
      parsed.tree.size = 5 ∧ parsed.tree.leafTokens = [0, 1, 2] := by
  obtain ⟨parsed, hparse, ordered, stand⟩ :=
    leafTokens_parse TokenBuffer.cutMessage .file 0 (by decide)
  obtain rfl := Except.ok.inj (TokenBuffer.parse_cutMessage.symm.trans hparse)
  exact ⟨by decide, _, hparse, ordered, stand, rfl, by decide⟩

end ProtoFront
