import ProtoFront.Proofs.Composition.Fields
import ProtoFront.Proofs.Composition.Names
import ProtoFront.Proofs.Composition.Statements
import ProtoFront.Proofs.Composition.Values

/-!
# Every unmarked declaration is complete

A step at a composed state leads to a composed state. So at the end of a parse, also of a broken
file, the children of every declaration that bears no mark are all that it is made of, in order.
-/

namespace ProtoFront

open ParseState

variable {buffer : TokenBuffer} {entry : Pending} {s : ParseState}

/-! ## Steps -/

/-- Every goal keeps the pieces composed. -/
theorem composed_pursue (h : Holds buffer entry.goal.made entry s) (pursued : Pursued entry s) :
    Composed buffer (s.pursue entry) := by
  have held {goal : Goal} (hgoal : entry.goal = goal) : Holds buffer goal.made entry s := hgoal ▸ h
  have ready {goal : Goal} (hgoal : entry.goal = goal) : goal.ready s.kind = true :=
    hgoal ▸ pursued.ready
  have fresh {goal : Goal} (hgoal : entry.goal = goal) (waits : goal.awaits? = none) :
      entry.flagged = false :=
    Pending.flagged_eq_false (pursued.fresh (hgoal ▸ waits))
      (Goal.carried_eq_false_of_awaits (hgoal ▸ waits))
  have within {goal : Goal} {part : Part} (hgoal : entry.goal = goal) (hpart : goal.part = part) :
      entry.goal.part = part := hgoal ▸ hpart
  rw [pursue]
  cases goal : entry.goal with
  | file => exact composed_file (held goal) goal
  | fragmentBody kind => exact composed_fragmentBody (held goal) goal
  | body kind => exact composed_body (held goal) goal
  | syntaxLevel =>
    exact composed_syntaxLevel (held goal) (within goal rfl)
      (by simpa [Goal.ready] using ready goal)
  | importing => exact composed_importing (held goal) (within goal rfl) (beq_iff_eq.mp (ready goal))
  | package => exact composed_package (held goal) (within goal rfl) (beq_iff_eq.mp (ready goal))
  | packageEnd => exact composed_statementEnd (held goal) (within goal rfl)
  | option => exact composed_optionStatement (held goal) goal (beq_iff_eq.mp (ready goal))
  | optionAfterName => exact composed_optionAfterName (held goal) goal
  | optionEnd => exact composed_statementEnd (held goal) (within goal rfl)
  | optionName => exact composed_optionName (held goal) (fresh goal rfl)
  | optionNamePart => exact composed_optionNamePart (held goal) goal (fresh goal rfl)
  | optionNameExtensionEnd => exact composed_optionNameExtensionEnd (held goal) goal
  | optionNameEnd => exact composed_optionNameEnd (held goal) goal
  | optionList =>
    exact composed_optionList (held goal) (fresh goal rfl) (beq_iff_eq.mp (ready goal))
  | listOption => exact composed_listOption (held goal) (fresh goal rfl)
  | listOptionAfterName => exact composed_listOptionAfterName (held goal) goal
  | listOptionEnd => exact composed_listOptionEnd (held goal) goal
  | textList =>
    exact composed_textList (held goal) goal (fresh goal rfl) (beq_iff_eq.mp (ready goal))
  | listAfterItem list failed => exact composed_listAfterItem (held goal) goal
  | scope kind => exact composed_scope (held goal) (within goal rfl) (beq_iff_eq.mp (ready goal))
  | extend => exact composed_extend (held goal) (within goal rfl) (beq_iff_eq.mp (ready goal))
  | extendAfterName => exact composed_extendAfterName (held goal) (within goal rfl)
  | declarationEnd kind => exact composed_declarationEnd (held goal) goal
  | field => exact composed_field (held goal) (within goal rfl)
  | fieldAfterType => exact composed_fieldAfterType (held goal) (within goal rfl)
  | mapFieldAfterValue => exact composed_mapFieldAfterValue (held goal) (within goal rfl)
  | statementEnd kind => exact composed_statementEnd (held goal) (within goal rfl)
  | enumValue => exact composed_enumValue (held goal) (within goal rfl)
  | ranges kind => exact composed_ranges (held goal) goal (beq_iff_eq.mp (ready goal))
  | rangesItem kind => exact composed_rangesItem (held goal) goal
  | rpc => exact composed_rpc (held goal) (within goal rfl) (beq_iff_eq.mp (ready goal))
  | rpcAfterInput => exact composed_rpcAfterInput (held goal) (within goal rfl)
  | rpcAfterOutput => exact composed_rpcAfterOutput (held goal) (within goal rfl)
  | value => exact composed_value (held goal) goal (fresh goal rfl)
  | textMessage pair =>
    exact composed_textMessage (held goal) (fresh goal rfl) (beq_iff_eq.mp (ready goal))
  | textMessageBody pair => exact composed_textMessageBody (held goal) goal
  | textField => exact composed_textField (held goal) goal (fresh goal rfl) (ready goal)
  | textFieldEnd => exact composed_textFieldEnd (held goal) goal
  | qualifiedName tag? =>
    exact composed_qualifiedName (held goal) goal (fresh goal rfl) (ready goal)
  | qualifiedNameRest =>
    exact composed_qualifiedNameRest (held goal) goal (fresh goal rfl) (beq_iff_eq.mp (ready goal))
  | qualifiedNameEnd tag? => exact composed_qualifiedNameEnd (held goal) goal

theorem Composed.step (h : Composed buffer s) (sound : Sound s) (reads : s.Reads buffer) :
    Composed buffer s.step := by
  cases h with
  | finished forest pending lays complete =>
    rw [ParseState.step, pending]
    exact .finished forest pending lays complete
  | @going top rest before since pending lays complete below start made =>
    obtain ⟨settled, pursued⟩ := sound.pursued pending
    have held : Holds buffer top.goal.made top { s with pending := rest } :=
      ⟨before, since, ⟨below, lays, complete, ⟨reads.rest, reads.endIndex⟩⟩, settled.awaited, start,
        made⟩
    rw [step_of_pending pending]
    exact composed_pursue held pursued

/-! ## Runs -/

theorem Composed.run (h : Composed buffer s) (sound : Sound s) (reads : s.Reads buffer)
    (fuel : Nat) : Composed buffer (s.run fuel) :=
  sound.run_keeps_reading (Composed buffer) reads h
    (fun _ sound hreads composed => composed.step sound hreads) fuel

theorem composed_initial (buffer : TokenBuffer) (fragment : Fragment) (syncLimit : Nat) :
    Composed buffer (initial buffer.cursor fragment syncLimit) := by
  refine .going .nil .nil rfl rfl Forest.complete_nil .bottom rfl fun _ => ?_
  cases fragment <;> exact trivial

/-- The tree of a parse is laid out from a forest whose nodes are made of what they should be made
of. -/
theorem TokenBuffer.exists_complete_forest (buffer : TokenBuffer) (fragment : Fragment)
    (syncLimit : Nat) :
    ∃ forest : Forest, (buffer.parseTokens fragment syncLimit).tree.Shows 0 forest ∧
      (buffer.parseTokens fragment syncLimit).tree.size = forest.size ∧ forest.Complete buffer := by
  have sound := buffer.sound_initial fragment syncLimit
  have ended := sound.pending_run _ (price_initial_le buffer.cursor fragment syncLimit)
  have composed := (composed_initial buffer fragment syncLimit).run sound
    ⟨List.suffix_refl _, rfl⟩ (stepBound buffer.cursor.rest.length)
  cases composed with
  | going _ _ pending => exact absurd ended (by rw [pending]; exact List.cons_ne_nil _ _)
  | finished forest _ lays complete =>
    refine ⟨forest, ParseTree.shows_of_nodes [] [] ?_, lays.size_eq, complete⟩
    rw [List.nil_append, List.append_nil]
    exact lays

/-- In the tree of every parse, also of broken input, a declaration that bears no mark is complete:
its children are, in order, all that a declaration of its kind is made of. -/
theorem complete_parse (buffer : TokenBuffer) (fragment : Fragment) (syncLimit : Nat)
    (nonempty : buffer.tokens ≠ #[]) :
    ∃ parsed, buffer.parse fragment syncLimit = .ok parsed ∧
      ∀ id node kind, parsed.tree.node? id = some node → node.failed = false →
        node.kind? = some (.declaration kind) →
        parsed.tree.childItems buffer id ∈ kind.production.matches' := by
  have sound := buffer.sound_initial fragment syncLimit
  have ended := sound.pending_run _ (price_initial_le buffer.cursor fragment syncLimit)
  have composed := (composed_initial buffer fragment syncLimit).run sound
    ⟨List.suffix_refl _, rfl⟩ (stepBound buffer.cursor.rest.length)
  refine ⟨_, buffer.parse_eq_ok fragment syncLimit nonempty, ?_⟩
  cases composed with
  | going _ _ pending => exact absurd ended (by rw [pending]; exact List.cons_ne_nil _ _)
  | finished forest _ lays complete =>
    intro id node kind hnode unmarked hkind
    have hshows : (buffer.parseTokens fragment syncLimit).tree.Shows 0 forest :=
      ParseTree.shows_of_nodes [] [] (by rw [List.nil_append, List.append_nil]; exact lays)
    have hsize : (buffer.parseTokens fragment syncLimit).tree.size = forest.size := lays.size_eq
    have hid : id < 0 + forest.size := by
      have hlt := (Array.getElem?_eq_some_iff.mp hnode).1
      rw [Nat.zero_add, ← hsize]
      exact hlt
    obtain ⟨label, children, contains, hlabel, below, hspan⟩ :=
      hshows.exists_contains (Nat.zero_le id) hid
    obtain rfl := Option.some.inj (hnode.symm.trans hlabel)
    have hchildren := below.children_eq (by rw [hspan]; exact hlabel)
    rw [hspan] at hchildren
    rw [ParseTree.childItems, hchildren, List.reverse_reverse, below.items_eq]
    exact complete.production contains unmarked hkind

/-- A message with a field and another one that has no name. -/
def TokenBuffer.namelessField : TokenBuffer :=
  ⟨"message M \x7b int32 a = 1; int32 = 2; \x7d",
    #[⟨.keyword .kwMessage, 0, 0, 7⟩, ⟨.identifier, 0, 8, 1⟩, ⟨.opener .brace, 0, 10, 1⟩,
      ⟨.scalar .int32, 0, 12, 5⟩, ⟨.identifier, 0, 18, 1⟩, ⟨.equals, 0, 20, 1⟩,
      ⟨.intLiteral, 0, 22, 1⟩, ⟨.semicolon, 0, 23, 1⟩, ⟨.scalar .int32, 0, 25, 5⟩,
      ⟨.equals, 0, 31, 1⟩, ⟨.intLiteral, 0, 33, 1⟩, ⟨.semicolon, 0, 34, 1⟩,
      ⟨.closer .brace, 0, 36, 1⟩, ⟨.eof, 0, 37, 0⟩], #[⟨0, 37⟩]⟩

theorem complete_parse_namelessField : TokenBuffer.namelessField.tokens ≠ #[] ∧
    ∃ parsed, TokenBuffer.namelessField.parse .file 10 = .ok parsed ∧ parsed.hasErrors = true ∧
      parsed.tree.node? 8 = some ⟨some 3, 6, false, some (.declaration .field)⟩ ∧
      parsed.tree.childItems .namelessField 8 ∈ DeclarationKind.field.production.matches' := by
  have nonempty : TokenBuffer.namelessField.tokens ≠ #[] := by decide
  obtain ⟨parsed, hparsed, complete⟩ :=
    complete_parse TokenBuffer.namelessField .file 10 nonempty
  obtain rfl : TokenBuffer.namelessField.parseTokens .file 10 = parsed := Except.ok.inj hparsed
  have significant : TokenBuffer.namelessField.significant = [⟨0, .keyword .kwMessage, 0, 0, none⟩,
      ⟨1, .identifier, 0, 8, none⟩, ⟨2, .opener .brace, 0, 10, none⟩,
      ⟨3, .scalar .int32, 0, 12, none⟩, ⟨4, .identifier, 0, 18, none⟩, ⟨5, .equals, 0, 20, none⟩,
      ⟨6, .intLiteral, 0, 22, none⟩, ⟨7, .semicolon, 0, 23, none⟩,
      ⟨8, .scalar .int32, 0, 25, none⟩, ⟨9, .equals, 0, 31, none⟩,
      ⟨10, .intLiteral, 0, 33, none⟩, ⟨11, .semicolon, 0, 34, none⟩,
      ⟨12, .closer .brace, 0, 36, none⟩] := by
    decide +kernel
  have field : (TokenBuffer.namelessField.parseTokens .file 10).tree.node? 8 =
      some ⟨some 3, 6, false, some (.declaration .field)⟩ := by
    rw [TokenBuffer.parseTokens, TokenBuffer.cursor, significant]
    cbv
  have broken : (TokenBuffer.namelessField.parseTokens .file 10).hasErrors = true := by
    rw [TokenBuffer.parseTokens, TokenBuffer.cursor, significant]
    cbv
  exact ⟨nonempty, _, hparsed, broken, field, complete 8 _ _ field rfl rfl⟩

end ProtoFront
