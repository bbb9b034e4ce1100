import ProtoFront.Proofs.Parse.Scopes
import ProtoFront.Proofs.Tree.Tiling

/-!
# The tree of a parse is sound

Every construct takes the trees that it has made as the children of its node, and nothing else. So
whatever is wrong with the input, the nodes of a parse are the flat form of a forest.
-/

namespace ProtoFront

open ParseState

/-- The nodes of a parse are laid out from a forest. -/
theorem TokenBuffer.exists_forest (buffer : TokenBuffer) (fragment : Fragment) (syncLimit : Nat) :
    ∃ forest : Forest, (buffer.parseTokens fragment syncLimit).tree.size = forest.size ∧
      (buffer.parseTokens fragment syncLimit).tree.Shows 0 forest := by
  have sound := buffer.sound_initial fragment syncLimit
  have ended := sound.pending_run _ (price_initial_le buffer.cursor fragment syncLimit)
  have shaped := (shaped_initial buffer.cursor fragment syncLimit).run sound
    (stepBound buffer.cursor.rest.length)
  cases shaped with
  | going _ _ pending => exact absurd ended (by rw [pending]; exact List.cons_ne_nil _ _)
  | finished forest _ lays _ =>
    refine ⟨forest, lays.size_eq, ParseTree.shows_of_nodes [] [] ?_⟩
    rw [List.nil_append, List.append_nil]
    exact lays

/-- Every parse returns a sound tree, also of broken input: the check accepts it, the size of every
node is one more than the sizes of its children together, and the subtrees of the roots tile the
nodes. -/
theorem verify_parse (buffer : TokenBuffer) (fragment : Fragment) (syncLimit : Nat)
    (nonempty : buffer.tokens ≠ #[]) :
    ∃ parsed, buffer.parse fragment syncLimit = .ok parsed ∧ parsed.tree.verify = .ok () ∧
      parsed.tree.Tiled := by
  obtain ⟨forest, hsize, hshows⟩ := buffer.exists_forest fragment syncLimit
  refine ⟨buffer.parseTokens fragment syncLimit, ?_, hshows.verify_eq_ok hsize, hshows.tiled hsize⟩
  rw [TokenBuffer.parse, if_neg (by simpa using nonempty)]

/-- The message that is cut off is one tree of five nodes, with a node for the brace that is
missing. -/
theorem verify_cutMessage : TokenBuffer.cutMessage.tokens ≠ #[] ∧
    ∃ parsed, TokenBuffer.cutMessage.parse .file 0 = .ok parsed ∧
      parsed.tree.verify = .ok () ∧ parsed.tree.Tiled ∧
      parsed.tree.nodes.map Node.size = #[1, 1, 1, 1, 5] ∧ parsed.tree.roots = [4] ∧
      parsed.tree.children 4 = [3, 2, 1, 0] := by
  obtain ⟨parsed, hparse, sound, tiled⟩ := verify_parse TokenBuffer.cutMessage .file 0 (by decide)
  obtain rfl := Except.ok.inj (TokenBuffer.parse_cutMessage.symm.trans hparse)
  exact ⟨by decide, _, hparse, sound, tiled, by decide +kernel, by decide +kernel,
    by decide +kernel⟩

end ProtoFront
