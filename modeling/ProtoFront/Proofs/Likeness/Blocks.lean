import ProtoFront.Proofs.Grammar.Bodies
import ProtoFront.Proofs.Likeness.Buffers
import ProtoFront.Proofs.Likeness.Passages

/-!
# The statements of a file, one by one

The tokens of a file are cut into the statements of the file, and its nodes into the trees of these
statements (`Blocks`). Each tree whose root is unmarked is what any parse makes that comes across
the same tokens between two statements (`Carries`), wherever they stand and whatever is around them.
-/

namespace ProtoFront

open ParseState

variable {s t final : ParseState} {buffer : TokenBuffer} {bottom : Pending} {goal : Goal}
variable {front front' : List Lexeme} {block block' : List Node} {token : Nat → Nat}
variable {choice : TokenKind → TokenKind → Option Goal}

/-- The token that a leaf stands for. -/
def Node.leafToken? (node : Node) : Option Nat := if node.isLeaf then node.token? else none

theorem ParseTree.leafTokens_eq (tree : ParseTree) :
    tree.leafTokens = tree.nodes.toList.filterMap Node.leafToken? := rfl

/-- Two lexemes that are the same but for their numbers and their places. -/
structure Lexeme.Matches (token : Nat → Nat) (lexeme other : Lexeme) : Prop where
  index : other.index = token lexeme.index
  kind : other.kind = lexeme.kind
  word : other.word? = lexeme.word?

/-- At the top of a file the next token alone tells which statement begins. -/
def atTopLevel (next _following : TokenKind) : Option Goal := topLevel? next

/-- How the goals that read statement after statement tell from two tokens what they begin. -/
def Goal.choice? : Goal → Option (TokenKind → TokenKind → Option Goal)
  | .file => some atTopLevel
  | .body kind => some (statement? kind)
  | .fragmentBody kind => some (statement? (.scope kind))
  | _ => none

/-- The parser is between two statements, which begin with what `choice` tells. -/
def ParseState.Among (choice : TokenKind → TokenKind → Option Goal) (s : ParseState) : Prop :=
  ∃ entry others, s.pending = entry :: others ∧ entry.goal.choice? = some choice

/-- The parser is between two statements of a file. -/
def ParseState.Between (s : ParseState) : Prop :=
  ∃ bottom, s.pending = [bottom] ∧ bottom.goal = .file

theorem ParseState.Between.among (h : s.Between) : s.Among atTopLevel := by
  obtain ⟨bottom, hs, hbottom⟩ := h
  exact ⟨bottom, [], hs, by rw [hbottom]; rfl⟩

/-! ## Steps between two statements -/

section

variable {next following : TokenKind}

theorem Goal.awaits_of_choice (h : goal.choice? = some choice) :
    goal.awaits? = some .statement := by
  cases goal <;> first | rfl | cases h

/-- What is chosen is the goal of a statement, which is sure to read. -/
theorem Goal.chosen {new : Goal} (h : goal.choice? = some choice)
    (hnew : choice next following = some new) :
    new.Begins next ∧ new.part = .statement ∧ new.cost < 0 := by
  cases goal with
  | file => cases h; exact topLevel?_eq_some hnew
  | body | fragmentBody => cases h; exact statement?_eq_some hnew
  | _ => cases h

theorem Goal.isOpen_of_chosen {new : Goal} (h : goal.choice? = some choice)
    (hnew : choice next following = some new) : new.isOpen = true := by
  have opened {body : BodyKind} (hmem : new ∈ body.statements) : new.isOpen = true := by
    have hall : ∀ goal ∈ body.statements, goal.isOpen = true := by
      rcases body with (_ | _ | _ | _) | _ | _ <;> decide
    exact hall new hmem
  cases goal with
  | file =>
    cases h
    rw [atTopLevel] at hnew
    unfold topLevel? at hnew
    split at hnew <;> first
      | (cases hnew; done)
      | (cases hnew; rfl)
  | body | fragmentBody => cases h; exact opened (statement?_mem hnew)
  | _ => cases h

/-- No statement begins with a token that ends statements. -/
theorem Goal.endsStatement_of_choice {new : Goal} (h : goal.choice? = some choice)
    (hnew : choice next following = some new) : next.endsStatement = false := by
  have none_at_end : choice .semicolon following = none ∧
      ∀ pair, choice (.closer pair) following = none := by
    cases goal with
    | file => cases h; exact ⟨rfl, fun _ => rfl⟩
    | body | fragmentBody =>
      cases h
      exact ⟨statement?_semicolon _, fun _ => statement?_closer _ _⟩
    | _ => cases h
  obtain ⟨semicolon, closer⟩ := none_at_end
  unfold TokenKind.endsStatement
  split
  case h_1 => rw [semicolon] at hnew; cases hnew
  case h_2 => rw [closer] at hnew; cases hnew
  case h_3 => rfl

theorem ParseState.Among.of_pending (h : s.Among choice) (pending : t.pending = s.pending) :
    t.Among choice := by
  rwa [Among, pending]

theorem ParseState.bodyStatement_of_chosen (s : ParseState) {body : BodyKind} (again : Goal)
    (entry : Pending) (hgoal : statement? body s.kind s.following = some goal) :
    s.bodyStatement body again entry = (s.resume entry again).pushGoal goal := by
  rw [bodyStatement, if_neg, hgoal]
  intro hkind
  rw [hkind, statement?_semicolon] at hgoal
  cases hgoal

theorem ParseState.pursue_of_chosen (s : ParseState) {entry : Pending}
    (h : entry.goal.choice? = some choice) (hgoal : choice s.kind s.following = some goal) :
    s.pursue entry = (s.resume entry entry.goal).pushGoal goal := by
  obtain ⟨top, origin, start, failed⟩ := entry
  cases top with
  | file =>
    cases h
    replace hgoal : topLevel? s.kind = some goal := hgoal
    show s.file _ = _
    rw [file, hgoal]
  | body kind =>
    cases h
    show s.body kind _ = _
    rw [body]
    split
    case h_1 heof =>
      rw [heof, statement?_eof] at hgoal
      cases hgoal
    case h_2 hbrace =>
      rw [hbrace, statement?_closer] at hgoal
      cases hgoal
    case h_3 => exact s.bodyStatement_of_chosen _ _ hgoal
  | fragmentBody kind =>
    cases h
    show s.fragmentBody kind _ = _
    rw [fragmentBody, if_neg]
    · exact s.bodyStatement_of_chosen _ _ hgoal
    · intro heof
      rw [heof, statement?_eof] at hgoal
      cases hgoal
  | _ => cases h

theorem ParseState.pursue_of_semicolon (s : ParseState) {entry : Pending}
    (h : entry.goal.choice? = some choice) (hkind : s.kind = .semicolon) :
    s.pursue entry = s.take.resume entry entry.goal := by
  obtain ⟨top, origin, start, failed⟩ := entry
  cases top with
  | file =>
    show s.file _ = _
    rw [file, hkind]
    rfl
  | body kind =>
    show s.body kind _ = _
    rw [body, hkind]
    exact if_pos hkind
  | fragmentBody kind =>
    show s.fragmentBody kind _ = _
    rw [fragmentBody, if_neg (by rw [hkind]; simp)]
    exact if_pos hkind
  | _ => cases h

/-- In front of a statement its goal is put on the stack. -/
theorem ParseState.Among.step_of_chosen (h : s.Among choice)
    (hgoal : choice s.kind s.following = some goal) : s.step = s.pushGoal goal := by
  obtain ⟨entry, others, hs, htop⟩ := h
  have hpursue := pursue_of_chosen { s with pending := others } htop hgoal
  rw [step_of_pending hs]
  refine hpursue.trans ?_
  simp [pushGoal, resume, hs]

/-- An empty statement becomes a leaf. -/
theorem ParseState.Among.step_of_semicolon (h : s.Among choice) (hkind : s.kind = .semicolon) :
    s.step = s.take := by
  obtain ⟨entry, others, hs, htop⟩ := h
  have hpursue := pursue_of_semicolon { s with pending := others } htop hkind
  rw [step_of_pending hs]
  refine hpursue.trans ?_
  rcases hrest : s.cursor.rest with _ | ⟨next, rest⟩
  · rw [kind, Cursor.kind, hrest] at hkind
    cases hkind
  · simp [take, addLeaf, resume, hrest, hs]

end

theorem ParseState.Between.exists_step (h : s.Between) : ∃ bottom, s.pending = [bottom] ∧
    bottom.goal = .file ∧ s.step = ParseState.file bottom { s with pending := [] } := by
  obtain ⟨bottom, hs, hbottom⟩ := h
  refine ⟨bottom, hs, hbottom, ?_⟩
  rw [step_of_pending hs, pursue, hbottom]

/-- A token that begins no statement becomes a leaf that is marked. -/
theorem ParseState.Between.step_of_junk (h : s.Between) {next : Lexeme} {rest : List Lexeme}
    (hrest : s.cursor.rest = next :: rest) (hgoal : topLevel? s.kind = none)
    (hkind : s.kind ≠ .semicolon) (there : s.kind ≠ .eof) : s.step.Between ∧
      s.step.cursor.rest = rest ∧ s.step.nodes = s.nodes.push ⟨some next.index, 1, true, none⟩ := by
  obtain ⟨⟨_, origin, start, failed⟩, hs, rfl, hstep⟩ := h.exists_step
  rw [hstep, ParseState.file, show ({ s with pending := [] } : ParseState).kind = s.kind from rfl,
    hgoal]
  dsimp only
  split
  case h_1 hend => exact absurd hend there
  case h_2 hempty => exact absurd hempty hkind
  case h_3 => split <;> simp [Between, resume, discard, addLeaf, report, hrest]

/-- At the end of the input a parse of a file ends. -/
theorem ParseState.Between.step_of_end (h : s.Between) (hrest : s.cursor.rest = []) :
    s.step = { s with pending := [] } := by
  obtain ⟨bottom, -, -, hstep⟩ := h.exists_step
  have hkind : ({ s with pending := [] } : ParseState).kind = .eof := by
    rw [kind, Cursor.kind]
    simp [hrest]
  rw [hstep, ParseState.file, hkind]
  rfl

theorem ParseState.Reads.ordered (h : s.Reads buffer) :
    (s.cursor.rest.map Lexeme.index ++ [s.cursor.endIndex]).Pairwise (· < ·) := by
  have hsublist := (h.rest.sublist.map Lexeme.index).append_right [s.cursor.endIndex]
  rw [h.endIndex] at hsublist ⊢
  exact buffer.ordered_cursor.sublist hsublist

/-! ## Parses that share a passage -/

/-- What a parse has around the passage in front of it. -/
def ParseState.around (s : ParseState) (behind : List Lexeme) : Surroundings :=
  ⟨s.nodes, s.diagnostics, s.pending, behind⟩

namespace Likeness

/-- Two parses that share the tokens of a passage. -/
def passage (token : Nat → Nat) (first second : Surroundings) : Likeness where
  first
  second
  token
  lines := 0
  whole := False
  exact := False
  whole_of_exact := id
  injective_of_exact := False.elim
  alone_of_whole := False.elim

variable {first second : Surroundings} {behind behind' : List Lexeme}

theorem rests_passage (same : List.Forall₂ (Lexeme.Matches token) front front')
    (last : ∀ lexeme, front.getLast? = some lexeme → lexeme.kind.endsStatement = true) :
    (passage token first second).Rests (front ++ first.behind) (front' ++ second.behind) := by
  induction same with
  | nil => exact .behind
  | @cons lexeme other front front' like same ih =>
    refine .next ⟨like.index, like.kind, like.word, False.elim⟩ (fun _ hrest => ?_) (ih ?_)
    · have hnil : front = [] := List.append_left_eq_self.mp hrest
      exact last lexeme (by rw [hnil]; rfl)
    · intro lexeme' hlast
      refine last lexeme' ?_
      rw [List.getLast?_cons, hlast]
      rfl

/-- Parses in front of the same tokens are alike. -/
theorem alike_passage (reads : s.Reads buffer) (hs : s.cursor.rest = front ++ behind)
    (ht : t.cursor.rest = front' ++ behind')
    (same : List.Forall₂ (Lexeme.Matches token) front front')
    (last : ∀ lexeme, front.getLast? = some lexeme → lexeme.kind.endsStatement = true) :
    Alike (passage token (s.around behind) (t.around behind')) s t := by
  refine ⟨?_, False.elim, reads.ordered, reads.spelled, ⟨#[], by simp [passage, around]⟩,
    ⟨#[], by simp [passage, around]⟩, .ground⟩
  rw [hs, ht]
  exact rests_passage same last

end Likeness

/-! ## What a statement makes -/

/-- Wherever these tokens stand in front of a parser between two statements, it makes these nodes of
them, and nothing else. -/
def Carries (choice : TokenKind → TokenKind → Option Goal) (front : List Lexeme)
    (block : List Node) : Prop :=
  ∀ (token : Nat → Nat) (t : ParseState) (copy behind : List Lexeme), t.Among choice →
    t.cursor.rest = copy ++ behind → List.Forall₂ (Lexeme.Matches token) front copy →
    ∃ t', t.Leads t' ∧ t'.pending = t.pending ∧ t'.cursor.rest = behind ∧
      t'.diagnostics = t.diagnostics ∧
      t'.nodes.toList = t.nodes.toList ++ block.map (Node.rename token)

theorem carries_nil : Carries choice [] [] := by
  intro token t copy behind _ rest same
  cases same
  exact ⟨t, .refl t, rfl, rest, rfl, by simp⟩

theorem Carries.append (h : Carries choice front block) (h' : Carries choice front' block') :
    Carries choice (front ++ front') (block ++ block') := by
  intro token t copy behind among rest same
  have same₁ := List.forall₂_take front.length same
  have same₂ := List.forall₂_drop front.length same
  rw [List.take_left] at same₁
  rw [List.drop_left] at same₂
  have hcopy := List.take_append_drop front.length copy
  obtain ⟨u, leads, pending, hu, diagnostics, nodes⟩ :=
    h token t _ (copy.drop front.length ++ behind) among
      (by rw [rest, ← List.append_assoc, hcopy]) same₁
  obtain ⟨v, leads', pending', hv, diagnostics', nodes'⟩ :=
    h' token u _ behind (among.of_pending pending) hu same₂
  refine ⟨v, leads.trans leads', pending'.trans pending, hv, diagnostics'.trans diagnostics, ?_⟩
  rw [nodes', nodes, List.map_append, List.append_assoc]

/-- An empty statement is a leaf wherever it stands. -/
theorem carries_semicolon {next : Lexeme} (hkind : next.kind = .semicolon) :
    Carries choice [next] [⟨some next.index, 1, false, none⟩] := by
  intro token t copy behind among rest same
  obtain ⟨other, _, like, hnil, rfl⟩ := List.forall₂_cons_left_iff.mp same
  obtain rfl := List.forall₂_nil_left_iff.mp hnil
  have hother : t.kind = .semicolon := by
    rw [kind_of_rest rest, like.kind, hkind]
  have hstep := among.step_of_semicolon hother
  refine ⟨t.take, hstep ▸ .step t, t.pending_addLeaf _ _, ?_, t.diagnostics_addLeaf _ _, ?_⟩
  · rw [take, rest_addLeaf, rest]
    rfl
  · rw [take, t.nodes_addLeaf _ _ rest, Array.toList_push, like.index]
    rfl

/-- The part of a parse that reads the tokens `front` and makes the nodes `block` of them. -/
structure Makes (s : ParseState) (front : List Lexeme) (block : List Node) (final : ParseState) :
    Prop where
  leads : s.Leads final
  rest : s.cursor.rest = front ++ final.cursor.rest
  nodes : final.nodes.toList = s.nodes.toList ++ block

/-- The tokens that are read become the leaves of the nodes that are made. -/
theorem Makes.leaves (h : Makes s front block final) (sound : Sound s) :
    block.filterMap Node.leafToken? = front.map Lexeme.index := by
  have haccounted := h.leads.accounted_eq sound
  rw [accounted, accounted, ParseTree.leafTokens_eq, ParseTree.leafTokens_eq, h.nodes, h.rest,
    List.filterMap_append, List.map_append, List.append_assoc] at haccounted
  exact List.append_cancel_right (List.append_cancel_left haccounted)

/-- The tokens and the nodes of a statement of a file. -/
structure Block (front : List Lexeme) (block : List Node) : Prop where
  leaves : block.filterMap Node.leafToken? = front.map Lexeme.index
  root : ∃ root, block.getLast? = some root ∧ root.size = block.length ∧
    (root.failed = false → Carries atTopLevel front block)

/-! ## The statements of a file -/

theorem Passage.pending_eq {below : List Pending} (h : Passage below final s) :
    final.pending = below := by
  induction h with
  | ended pending => exact pending
  | step _ _ _ _ _ _ _ ih => exact ih

/-- What has been read up to a token that ends statements ends with that token. -/
theorem ParseState.Through.getLast?_eq (h : s.Through final)
    (rest : s.cursor.rest = front ++ final.cursor.rest) :
    ∃ last, front.getLast? = some last ∧ last.kind.endsStatement = true := by
  obtain ⟨last, hlast, before, hbefore⟩ := h
  rw [rest, List.append_cons] at hbefore
  rw [← List.append_cancel_right hbefore]
  exact ⟨last, List.getLast?_concat .., hlast⟩

/-- An unmarked statement is read in the same way wherever its tokens stand. -/
theorem Passage.carries (h : Passage s.pending final s.step) (sound : Sound s)
    (reads : s.Reads buffer) (among : s.Among choice)
    (hgoal : choice s.kind s.following = some goal) (made : Makes s front block final)
    (through : s.Through final) : Carries choice front block := by
  intro token t copy behind among' rest same
  obtain ⟨last, hlast, hends⟩ := through.getLast?_eq made.rest
  have alike := Likeness.alike_passage reads made.rest rest same fun lexeme hlexeme => by
    obtain rfl := Option.some.inj (hlast.symm.trans hlexeme)
    exact hends
  have ahead : s.cursor.rest ≠ final.cursor.rest := by
    rw [made.rest, Ne, List.append_left_eq_self]
    rintro rfl
    cases hlast
  obtain ⟨top, others, hs, htop⟩ := among
  have fresh := Goal.carried_eq_false_of_awaits (Goal.chosen htop hgoal).1.waits
  have abreast := alike.begin (.inr ahead) fresh
  have hgoal' : choice t.kind t.following = some goal := by
    rw [abreast.kind_eq, abreast.following_eq (.inr (Goal.endsStatement_of_choice htop hgoal)),
      hgoal]
  have begun := abreast.pushGoal goal fresh
  rw [← Among.step_of_chosen ⟨top, others, hs, htop⟩ hgoal, ← among'.step_of_chosen hgoal'] at begun
  obtain ⟨final', leads, hfinal⟩ := h.alike sound.step id
    (.inr ⟨top, others, hs, Goal.awaits_of_choice htop⟩) rfl rfl begun.toAlike
  obtain ⟨found, -, hreports, hnone⟩ := hfinal.reports
  obtain ⟨nodes, hnodes, hnodes'⟩ := hfinal.nodes
  refine ⟨final', .of_step leads, ?_, hfinal.rests.eq_behind rfl, ?_, ?_⟩
  · exact hfinal.stack.eq_below h.pending_eq
  · rw [hreports, hnone id]
    simp [Likeness.passage, around]
  · have hblock : nodes.toList = block := by
      have hmade := made.nodes
      rw [hnodes, Array.toList_append] at hmade
      exact List.append_cancel_left hmade
    rw [hnodes', Array.toList_append, Array.toList_map, hblock]
    rfl

theorem Sound.exists_makes (h : Sound s) (leads : s.Leads final) :
    ∃ front block, Makes s front block final := by
  obtain ⟨block, hblock⟩ := leads.prefix_nodes h
  obtain ⟨front, hfront⟩ := leads.rest_suffix h
  exact ⟨front, block, leads, hfront.symm, hblock.symm⟩

/-- The parser gets behind the next statement of a file. -/
def ParseState.Advances (s : ParseState) : Prop :=
  ∃ final front block, Makes s front block final ∧ final.Between ∧ front ≠ [] ∧ Block front block

section

variable {next : Lexeme} {rest : List Lexeme}

theorem ParseState.Between.advances_of_semicolon (between : s.Between) (h : Sound s)
    (hrest : s.cursor.rest = next :: rest) (hkind : s.kind = .semicolon) : s.Advances := by
  have hstep := between.among.step_of_semicolon hkind
  have made : Makes s [next] [⟨some next.index, 1, false, none⟩] s.step := by
    refine ⟨.step s, ?_, ?_⟩
    · rw [hstep, take, rest_addLeaf, hrest]
      rfl
    · rw [hstep, take, s.nodes_addLeaf _ _ hrest, Array.toList_push]
  refine ⟨_, _, _, made, ?_, List.cons_ne_nil _ _, made.leaves h, _, rfl, rfl, fun _ => ?_⟩
  · rwa [Between, hstep, take, pending_addLeaf]
  · exact carries_semicolon (by rwa [← kind_of_rest hrest])

theorem ParseState.Between.advances_of_junk (between : s.Between) (h : Sound s)
    (hrest : s.cursor.rest = next :: rest) (hgoal : topLevel? s.kind = none)
    (hkind : s.kind ≠ .semicolon) (there : s.kind ≠ .eof) : s.Advances := by
  obtain ⟨hbetween, hfinal, hnodes⟩ := between.step_of_junk hrest hgoal hkind there
  have made : Makes s [next] [⟨some next.index, 1, true, none⟩] s.step := by
    refine ⟨.step s, ?_, ?_⟩
    · rw [hfinal, hrest]
      rfl
    · rw [hnodes, Array.toList_push]
  refine ⟨_, _, _, made, hbetween, List.cons_ne_nil _ _, made.leaves h, _, rfl, rfl, ?_⟩
  rintro ⟨⟩

end

/-- The last of the nodes that have been made covers all of them. -/
theorem ParseState.Roots.getLast?_eq {root : Node} (h : final.Roots s.nodes.size root)
    (made : Makes s front block final) (hne : block ≠ []) :
    block.getLast? = some root ∧ root.size = block.length := by
  obtain ⟨hback, hsize⟩ := h
  have hlength := congrArg List.length made.nodes
  have hpos := List.length_pos_iff.mpr hne
  rw [List.length_append, Array.length_toList, Array.length_toList] at hlength
  refine ⟨?_, by omega⟩
  rwa [← Array.getLast?_toList, made.nodes, List.getLast?_append_of_ne_nil _ hne] at hback

/-- Behind a statement the goals are as before, and the goal of the statement has been paid for with
a token. -/
theorem Completes.left_lt (h : Completes s.nodes.size s.pending above s.step s.step final)
    (sound : Sound s) (among : s.Among choice) (hgoal : choice s.kind s.following = some goal) :
    final.left < s.left := by
  have hprice := h.leads.price_le sound.step
  have hcosts := totalCost_eq_of_frames h.frames
  have hstep := among.step_of_chosen hgoal
  obtain ⟨top, others, hs, htop⟩ := among
  have hcost := (Goal.chosen htop hgoal).2.2
  have hbegun : (s.pushGoal goal).price = 16 * s.left + (goal.cost + totalCost s.pending) := rfl
  rw [hstep, hbegun, price, hcosts] at hprice
  omega

/-- The next statement is read to its end. It becomes one node, and if that is unmarked, it is read
in the same way wherever its tokens stand. -/
theorem ParseState.Among.exists_statement (among : s.Among choice) (h : Sound s)
    (reads : s.Reads buffer) (hgoal : choice s.kind s.following = some goal) :
    ∃ final front block, Makes s front block final ∧ final.frames = s.frames ∧ front ≠ [] ∧
      ∃ root, block.getLast? = some root ∧ root.size = block.length ∧
        (root.failed = false → final.pending = s.pending ∧ Carries choice front block) := by
  have hstep := among.step_of_chosen hgoal
  obtain ⟨top, others, hs, htop⟩ := among
  have underway : Underway s.nodes.size (s.pending.map Pending.frame) s.step := by
    rw [hstep]
    exact .waits [] goal rfl (Goal.chosen htop hgoal).2.1 (Goal.isOpen_of_chosen htop hgoal)
  have hpending : s.step.pending = [⟨goal, s.cursor.origin, s.nodes.size, false⟩] ++ s.pending := by
    rw [hstep]
    rfl
  obtain ⟨final, hfinal⟩ :=
    underway.completes h.step hpending ⟨top, others, hs, Goal.awaits_of_choice htop⟩
  obtain ⟨front, block, made⟩ := h.exists_makes (.of_step hfinal.leads)
  have hleft := hfinal.left_lt h ⟨top, others, hs, htop⟩ hgoal
  have hfront : front ≠ [] := by
    rintro rfl
    rw [left, left, made.rest] at hleft
    exact Nat.lt_irrefl _ hleft
  have hblock : block ≠ [] := by
    rintro rfl
    exact hfront (List.map_eq_nil_iff.mp (made.leaves h).symm)
  obtain ⟨root, hroots, clean⟩ := hfinal.root
  obtain ⟨hlast, hsize⟩ := hroots.getLast?_eq made hblock
  refine ⟨final, front, block, made, hfinal.frames, hfront, root, hlast, hsize, fun unmarked => ?_⟩
  obtain ⟨through, -, passage⟩ := clean unmarked
  refine ⟨passage.pending_eq, passage.carries h reads ⟨top, others, hs, htop⟩ hgoal made ?_⟩
  refine through.mono ?_
  rw [hstep]
  exact List.suffix_refl _

theorem ParseState.Between.advances_of_topLevel? (between : s.Between) (h : Sound s)
    (reads : s.Reads buffer) (hgoal : topLevel? s.kind = some goal) : s.Advances := by
  obtain ⟨final, front, block, made, hframes, hfront, root, hlast, hsize, carries⟩ :=
    between.among.exists_statement h reads hgoal
  obtain ⟨bottom, hs, hbottom⟩ := between
  have hbetween : final.Between := by
    rw [frames, frames, hs] at hframes
    obtain ⟨entry, below, hpending, hentry, hbelow⟩ := List.map_eq_cons_iff.mp hframes
    obtain rfl := List.map_eq_nil_iff.mp hbelow
    exact ⟨entry, hpending, (Prod.mk.inj hentry).1.trans hbottom⟩
  exact ⟨final, front, block, made, hbetween, hfront, made.leaves h, root, hlast, hsize,
    fun unmarked => (carries unmarked).2⟩

/-- The next statement of a file is read to its end. -/
theorem ParseState.Between.advances (between : s.Between) (h : Sound s) (reads : s.Reads buffer)
    (there : s.cursor.rest ≠ []) : s.Advances := by
  obtain ⟨next, rest, hrest⟩ := List.exists_cons_of_ne_nil there
  rcases hgoal : topLevel? s.kind with _ | goal
  · by_cases hkind : s.kind = .semicolon
    · exact between.advances_of_semicolon h hrest hkind
    · have hlexeme := TokenBuffer.kind_ne_eof (reads.rest.subset (by rw [hrest]; exact .head rest))
      exact between.advances_of_junk h hrest hgoal hkind (by rwa [kind_of_rest hrest])
  · exact between.advances_of_topLevel? h reads hgoal

/-- Tokens that are cut into statements, and nodes that are cut into the trees of these. -/
inductive Blocks : List Lexeme → List Node → Prop
  | nil : Blocks [] []
  | cons {front rest : List Lexeme} {block nodes : List Node} : Block front block →
      Blocks rest nodes → Blocks (front ++ rest) (block ++ nodes)

/-- The rest of a file is read statement by statement. -/
theorem Sound.exists_blocks (h : Sound s) (reads : s.Reads buffer) (between : s.Between) :
    ∃ final nodes, s.Leads final ∧ final.pending = [] ∧
      final.nodes.toList = s.nodes.toList ++ nodes ∧ Blocks s.cursor.rest nodes := by
  induction hleft : s.left using Nat.strongRecOn generalizing s with
  | _ left ih =>
    by_cases there : s.cursor.rest = []
    · refine ⟨s.step, [], .step s, ?_, ?_, ?_⟩
      · rw [between.step_of_end there]
      · rw [between.step_of_end there, List.append_nil]
      · rw [there]
        exact .nil
    · obtain ⟨next, front, block, made, hbetween, hne, hblock⟩ := between.advances h reads there
      have hlt : next.left < left := by
        rw [← hleft, ParseState.left, ParseState.left, made.rest, List.length_append]
        have hpos := List.length_pos_iff.mpr hne
        omega
      obtain ⟨final, nodes, leads, ended, hnodes, blocks⟩ :=
        ih _ hlt (made.leads.sound h) (made.leads.reads h reads) hbetween rfl
      refine ⟨final, block ++ nodes, made.leads.trans leads, ended, ?_, ?_⟩
      · rw [hnodes, made.nodes, List.append_assoc]
      · rw [made.rest]
        exact .cons hblock blocks

theorem between_initial (cursor : Cursor) (syncLimit : Nat) :
    (initial cursor .file syncLimit).Between := ⟨_, rfl, rfl⟩

/-- A file is the sequence of its statements. -/
theorem TokenBuffer.blocks_parseTokens (buffer : TokenBuffer) (syncLimit : Nat) :
    Blocks buffer.significant (buffer.parseTokens .file syncLimit).tree.nodes.toList := by
  obtain ⟨final, nodes, leads, ended, hnodes, blocks⟩ := (buffer.sound_initial .file syncLimit)
    |>.exists_blocks ⟨List.suffix_refl _, rfl⟩ (between_initial _ _)
  rw [parseTokens_eq_of_leads leads ended]
  dsimp only
  rw [hnodes]
  exact blocks

/-- Statements of which none is marked are read in the same way wherever their tokens stand. -/
theorem Blocks.carries {nodes : List Node} (h : Blocks front nodes)
    (clean : ∀ node ∈ nodes, node.failed = false) : Carries atTopLevel front nodes := by
  induction h with
  | nil => exact carries_nil
  | cons block _ ih =>
    obtain ⟨root, hlast, -, carries⟩ := block.root
    have hroot := clean root (List.mem_append_left _ (List.mem_of_getLast? hlast))
    exact (carries hroot).append (ih fun node hnode => clean node (List.mem_append_right _ hnode))

/-- Where nothing is reported, no node is marked. -/
theorem TokenBuffer.unmarked_of_clean {fragment : Fragment} {syncLimit : Nat}
    (clean : (buffer.parseTokens fragment syncLimit).diagnostics = []) :
    ∀ node ∈ (buffer.parseTokens fragment syncLimit).tree.nodes.toList, node.failed = false := by
  refine fun node hnode => Bool.eq_false_iff.mpr fun hfailed => ?_
  refine (buffer.marked_parseTokens fragment syncLimit).2 ?_ clean
  exact ParseTree.failsFrom_zero_iff.mpr ⟨node, Array.mem_toList_iff.mp hnode, hfailed⟩

/-- A file about which nothing is reported is read in the same way wherever its tokens stand. -/
theorem TokenBuffer.carries_of_clean {syncLimit : Nat}
    (clean : (buffer.parseTokens .file syncLimit).diagnostics = []) :
    Carries atTopLevel buffer.significant (buffer.parseTokens .file syncLimit).tree.nodes.toList :=
  (buffer.blocks_parseTokens syncLimit).carries (buffer.unmarked_of_clean clean)

end ProtoFront
