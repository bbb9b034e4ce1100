import ProtoFront.Proofs.Parse.Frames
import ProtoFront.Proofs.Parse.Marks
import ProtoFront.Proofs.Recovery.Confinement

/-!
# Recovery inside a message stays inside it

A file that begins with a message is read in three stages: the parser is inside the message, then
the body of the message has been closed by its brace, and then the message is the first root of the
tree and stays so. Whatever is wrong inside the message, as long as brackets are properly nested
there, the brace that closes it is the one that follows, unless the name of a text field in square
brackets lacks its closing bracket.
-/

namespace ProtoFront

open ParseState

variable {entry now : Pending} {s t final : ParseState} {before message : Nat}
variable {tree : ParseTree} {node leaf : Node} {close : Lexeme} {after : List Lexeme}

/-! ## A message at the beginning of a tree -/

namespace ParseTree

/-- The node `message` is a message over all nodes before it, `leaf` is its last child, and no node
behind it reaches back to it. -/
structure BeginsWith (tree : ParseTree) (message : Nat) (leaf : Node) : Prop where
  last : ∃ before, message = before + 1 ∧ tree.node? before = some leaf
  covers : tree.sizeAt message = message + 1
  kind : tree.kind? message = some (.declaration (.scope .message))
  apart : ∀ id, message < id → id < tree.size → message < tree.firstOf id

/-- A message over all nodes before it. -/
theorem beginsWith_push (hlast : ∃ nodes : Array Node, tree.nodes = nodes.push leaf)
    (hsize : node.size = tree.size + 1)
    (hkind : node.kind? = some (.declaration (.scope .message))) :
    (tree.push node).BeginsWith tree.size leaf := by
  obtain ⟨nodes, hnodes⟩ := hlast
  have hcount : tree.size = nodes.size + 1 := by rw [size, hnodes, Array.size_push]
  have hnode : (tree.push node).node? tree.size = some node := by rw [node?_push, if_pos rfl]
  refine ⟨⟨nodes.size, hcount, ?_⟩, ?_, ?_, fun id hid hlt => ?_⟩
  · rw [node?_push, if_neg (by omega), node?, hnodes, Array.getElem?_push_size]
  · rw [sizeAt, hnode, Option.map_some, Option.getD_some, hsize]
  · rw [ParseTree.kind?, hnode, Option.bind_some, hkind]
  · rw [size_push] at hlt
    omega

namespace BeginsWith

theorem lt_size (h : tree.BeginsWith message leaf) : message < tree.size := lt_size_of_kind h.kind

/-- A node over later nodes only comes behind the message. -/
theorem push (h : tree.BeginsWith message leaf) (behind : message < tree.size + 1 - node.size) :
    (tree.push node).BeginsWith message leaf := by
  have hlt := h.lt_size
  have kept {id : Nat} (hid : id < tree.size) : (tree.push node).node? id = tree.node? id := by
    rw [node?_push, if_neg (Nat.ne_of_lt hid)]
  obtain ⟨previous, hmessage, hleaf⟩ := h.last
  refine ⟨⟨previous, hmessage, ?_⟩, ?_, ?_, fun id hid hsize => ?_⟩
  · rw [kept (by omega), hleaf]
  · rw [sizeAt, kept hlt]
    exact h.covers
  · rw [kind?, kept hlt]
    exact h.kind
  · rw [size_push] at hsize
    rw [firstOf, sizeAt]
    rcases Nat.lt_or_ge id tree.size with hold | hnew
    · rw [kept hold]
      exact h.apart id hid hold
    · obtain rfl : id = tree.size := by omega
      rw [node?_push, if_pos rfl]
      exact behind

theorem leaf_push (h : tree.BeginsWith message leaf) (hsize : node.size = 1) :
    (tree.push node).BeginsWith message leaf := by
  have hlt := h.lt_size
  exact h.push (by omega)

/-- Walking back from the end, the message is met last. -/
theorem getLast?_siblings (h : tree.BeginsWith message leaf) {cursor : Nat}
    (above : message < cursor) (upper : cursor ≤ tree.size) :
    (tree.siblings 0 cursor).getLast? = some message := by
  induction cursor using Nat.strong_induction_on with
  | _ cursor ih =>
    rw [siblings, if_pos (Nat.zero_lt_of_lt above)]
    rcases Nat.lt_or_ge message (cursor - 1) with hbehind | hhere
    · have hapart := h.apart (cursor - 1) hbehind (by omega)
      rw [firstOf] at hapart
      have hnext := ih (max 0 (cursor - max 1 (tree.sizeAt (cursor - 1)))) (by omega) (by omega)
        (by omega)
      rw [List.getLast?_cons, hnext]
      rfl
    · obtain rfl : cursor = message + 1 := by omega
      have hzero : max 0 (message + 1 - max 1 (message + 1)) = 0 := by omega
      rw [Nat.add_sub_cancel, h.covers, hzero, siblings, if_neg (Nat.lt_irrefl _)]
      rfl

theorem getLast?_roots (h : tree.BeginsWith message leaf) : tree.roots.getLast? = some message :=
  h.getLast?_siblings h.lt_size (Nat.le_refl _)

/-- The leaf in front of the message is its last child. -/
theorem head?_children (h : tree.BeginsWith message leaf) :
    ∃ last, (tree.children message).head? = some last ∧ tree.node? last = some leaf := by
  obtain ⟨before, rfl, hleaf⟩ := h.last
  refine ⟨before, ?_, hleaf⟩
  rw [children, firstOf, h.covers, Nat.sub_self, siblings, if_pos (Nat.succ_pos _)]
  rfl

end BeginsWith

end ParseTree

/-! ## Behind the message -/

theorem beginsWith_addLeaf (h : s.made.BeginsWith message leaf) (tag? : Option NodeKind)
    (failed : Bool) : (s.addLeaf tag? failed).made.BeginsWith message leaf := by
  rcases hrest : s.cursor.rest with _ | ⟨next, rest⟩
  · rwa [s.addLeaf_of_rest_eq_nil _ _ hrest]
  · rw [made_addLeaf _ _ hrest]
    exact h.leaf_push rfl

theorem Moves.beginsWith (h : Moves entry s now t) (hs : s.made.BeginsWith message leaf) :
    t.made.BeginsWith message leaf := by
  induction h with
  | start => exact hs
  | leaf tag? _ _ _ ih => exact beginsWith_addLeaf (ih hs) tag? false
  | discard _ _ _ ih => exact beginsWith_addLeaf (ih hs) none true
  | report expected _ ih => exact ih hs
  | breaks _ _ ih => exact ih hs
  | resync start _ _ ih => exact ih hs
  | @range _ _ _ t u _ _ _ _ grown ih ih' =>
    -- a range begins where the nodes of `t` end
    have hlt : message < t.nodes.size := (ih hs).lt_size
    refine (ih' (ih hs)).push ?_
    show message < u.nodes.size + 1 - (u.nodes.size - t.nodes.size + 1)
    omega

theorem beginsWith_close (h : s.made.BeginsWith message leaf) (tag? : Option NodeKind)
    (start : message < entry.start) : (s.close entry tag?).made.BeginsWith message leaf := by
  rw [close_eq, made, nodes_letGo]
  refine h.push ?_
  have hlt : message < s.nodes.size := h.lt_size
  show message < s.nodes.size + 1 - (s.nodes.size - entry.start + 1)
  omega

theorem Ends.beginsWith (h : Ends before now t final) (ht : t.made.BeginsWith message leaf)
    (start : now.goal.part ≠ .document → message < now.start) :
    final.made.BeginsWith message leaf := by
  cases h with
  | finish | goOn | delegate | enter | replace | parenthesize => exact ht
  | pass =>
    rw [made, nodes_letGo]
    exact ht
  | close tag? inner => exact beginsWith_close ht tag? (start inner)
  | separate goal =>
    exact beginsWith_addLeaf (beginsWith_close ht _ (start (by rw [goal]; simp [Goal.part]))) _ _
  | terminate goal =>
    exact (beginsWith_close ht _ (start (by rw [goal]; simp [Goal.part]))).leaf_push rfl
  | closeScope kind goal =>
    have hleaf : (t.addSynthetic .scopeClose true).made.BeginsWith message leaf := ht.leaf_push rfl
    exact beginsWith_close hleaf _ (start (by rw [goal]; simp [Goal.part]))
  | closeBody kind =>
    rw [made, nodes_letGo]
    exact beginsWith_addLeaf ht _ _
  | cutBody kind =>
    rw [made, nodes_letGo]
    split
    · exact ht.leaf_push rfl
    · exact ht
  | junk => exact beginsWith_addLeaf ht none true

/-! ## The course of a parse -/

/-- The stages of a parse of a file that begins with a message. -/
inductive Stage (close : Lexeme) (after : List Lexeme) (s : ParseState) : Prop
  | inside (confined : Confined (close :: after) aroundMessage s)
      (starts : [0, 0] <:+ s.frames.map Prod.snd)
  | lost (lost : Lost close s)
  | closed (closed : ClosedBy close s) (starts : s.frames.map Prod.snd = [0, 0])
  | behind (message : Nat)
      (begins : s.made.BeginsWith message ⟨some close.index, 1, false, some .scopeClose⟩)
      (starts : ∀ frame ∈ s.frames, frame.1.part ≠ .document → message < frame.2)

theorem Confined.exists_between {tail : List Lexeme} {outer : List Goal}
    (h : Confined tail outer s) : ∃ goal below, s.goals = goal :: below ++ outer := by
  obtain ⟨goals, opened, hgoals, fits, -⟩ := h
  cases fits with
  | statements _ braces =>
    cases goals with
    | nil => cases braces
    | cons goal below => exact ⟨goal, below, hgoals⟩
  | @text goal below _ _ _ => exact ⟨goal, below, hgoals⟩

theorem Confined.running {tail : List Lexeme} {outer : List Goal} (h : Confined tail outer s) :
    s.pending ≠ [] := by
  obtain ⟨goal, below, hgoals⟩ := h.exists_between
  intro hnone
  rw [goals, hnone] at hgoals
  cases hgoals

theorem ClosedBy.running (h : ClosedBy close s) : s.pending ≠ [] := by
  intro hnone
  have hgoals := h.1
  rw [goals, hnone] at hgoals
  cases hgoals

/-- The frames around the body of the message stay below the goals of the message. -/
theorem Sound.starts_step (h : Sound s) (confined : Confined (close :: after) aroundMessage s)
    (starts : [0, 0] <:+ s.frames.map Prod.snd) : [0, 0] <:+ s.step.frames.map Prod.snd := by
  obtain ⟨goal, below, hgoals⟩ := confined.exists_between
  obtain ⟨top, t, -, -, -, rfl, now, u, moves, ends⟩ := h.handled confined.running
  obtain ⟨new, hframes, -⟩ := ends.exists_frames
  have hkept : u.frames = t.frames := by rw [frames, moves.pending_eq, frames]
  rw [hframes, hkept, List.map_append]
  refine List.IsSuffix.trans ?_ (List.suffix_append _ _)
  have hlength : t.pending.length = below.length + 2 := by
    rw [← List.length_map Pending.goal]
    exact (congrArg List.length (List.cons.inj hgoals).2).trans List.length_append
  -- the goal on top of the stack lies above the two frames, so it is none of them
  refine (List.suffix_cons_iff.mp starts).resolve_left fun hall => ?_
  have hshort : t.pending.length = 1 := by simpa using congrArg List.length hall
  omega

/-- The step behind the brace makes the node of the message. -/
theorem ClosedBy.beginsWith_step (closed : ClosedBy close s)
    (starts : s.frames.map Prod.snd = [0, 0]) :
    s.step.made.BeginsWith s.nodes.size ⟨some close.index, 1, false, some .scopeClose⟩ ∧
      ∀ frame ∈ s.step.frames, frame.1.part = .document := by
  obtain ⟨hgoals, hnodes⟩ := closed
  obtain ⟨inner, others, hpending, hinner, hothers⟩ := List.map_eq_cons_iff.mp hgoals
  obtain ⟨outer, none, rfl, houter, hnone⟩ := List.map_eq_cons_iff.mp hothers
  obtain rfl := List.map_eq_nil_iff.mp hnone
  have hstart : inner.start = 0 := by
    rw [frames, hpending] at starts
    exact (List.cons.inj starts).1
  have hstep : s.step = ({ s with pending := [outer] } : ParseState).close inner
      (some (.declaration (.scope .message))) := by
    rw [step_of_pending hpending, pursue, hinner]
  rw [hstep]
  refine ⟨?_, fun frame hframe => ?_⟩
  · rw [close_eq, made, nodes_letGo]
    refine ParseTree.beginsWith_push hnodes ?_ rfl
    show s.nodes.size - inner.start + 1 = s.nodes.size + 1
    rw [hstart, Nat.sub_zero]
  · rw [frames_close] at hframe
    rw [List.mem_singleton.mp hframe]
    show outer.goal.part = .document
    rw [houter]
    rfl

theorem Sound.stage_step {buffer : TokenBuffer} (h : Sound s) (reads : s.Reads buffer)
    (stage : Stage close after s) : Stage close after s.step := by
  cases stage with
  | inside confined starts =>
    have hstarts := h.starts_step confined starts
    rcases h.confined_step reads confined rfl with hinside | hlost | hclosed
    · exact .inside hinside hstarts
    · exact .lost hlost
    · refine .closed hclosed (hstarts.eq_of_length ?_).symm
      have hlength := congrArg List.length hclosed.1
      rw [List.length_map, frames, List.length_map, ← List.length_map Pending.goal]
      exact hlength.symm
  | lost lost =>
    obtain ⟨diagnostic, hdiagnostic, hlost⟩ := lost
    exact .lost ⟨diagnostic, h.mem_diagnostics_step hdiagnostic, hlost⟩
  | closed closed starts =>
    obtain ⟨begins, hframes⟩ := closed.beginsWith_step starts
    exact .behind s.nodes.size begins fun frame hframe inner =>
      absurd (hframes frame hframe) inner
  | behind message begins starts =>
    by_cases running : s.pending = []
    · refine .behind message ?_ ?_
      · rwa [ParseState.step, running]
      · rwa [ParseState.step, running]
    · obtain ⟨top, t, -, -, -, rfl, now, u, moves, ends⟩ := h.handled running
      have hu := moves.beginsWith begins
      have htop : top.goal.part ≠ .document → message < top.start :=
        starts (top.goal, top.start) List.mem_cons_self
      rw [← moves.goal_eq, ← moves.start_eq] at htop
      refine .behind message (ends.beginsWith hu htop) fun frame hframe hpart => ?_
      obtain ⟨new, hframes, hnew⟩ := ends.exists_frames
      rw [hframes, List.mem_append] at hframe
      rcases hframe with hframe | hbelow
      · rcases hnew frame hframe with hsize | ⟨hstart, hdocument⟩
        · rw [hsize]
          exact hu.lt_size
        · rw [hstart]
          exact htop (hdocument hpart)
      · rw [frames, moves.pending_eq] at hbelow
        exact starts frame (List.mem_cons_of_mem _ hbelow) hpart

theorem Sound.stage_run {buffer : TokenBuffer} (h : Sound s) (reads : s.Reads buffer)
    (stage : Stage close after s) (fuel : Nat) : Stage close after (s.run fuel) :=
  h.run_keeps_reading (Stage close after) reads stage
    (fun _ sound hreads staged => sound.stage_step hreads staged) fuel

/-! ## The first steps -/

/-- The brace behind the name of the message begins its body. -/
theorem frames_opening (cursor : Cursor) {word name brace : Lexeme} {lexemes : List Lexeme}
    (rest : cursor.rest = word :: name :: brace :: lexemes)
    (hword : word.kind = .keyword .kwMessage) (hname : name.kind.isIdentifierLike = true)
    (hbrace : brace.kind = .opener .brace) (syncLimit : Nat) :
    (initial cursor .file syncLimit).step.step.frames = [(.body (.scope .message), 0),
        (.declarationEnd (.scope .message), 0), (.file, 0)] ∧
      (initial cursor .file syncLimit).step.step.cursor.rest = lexemes := by
  rw [step_step_initial .message cursor rest hword rfl hname hbrace]
  exact ⟨rfl, rfl⟩

section

variable {buffer : TokenBuffer} {name : TokenKind} {inside rest : List TokenKind}

/-- The lexemes of a message at the beginning of a buffer. -/
theorem TokenBuffer.significant_message (tokens : buffer.tokens.toList.map Token.kind =
      .keyword .kwMessage :: name :: .opener .brace :: inside ++ .closer .brace :: rest)
    (hname : name.isIdentifierLike = true) (balanced : Balanced inside) :
    ∃ word id brace close held after,
      buffer.significant = word :: id :: brace :: (held ++ close :: after) ∧
        word.kind = .keyword .kwMessage ∧ id.kind = name ∧ brace.kind = .opener .brace ∧
        held.map Lexeme.kind = inside.filter (fun kind => !kind.isComment) ∧
        close.kind = .closer .brace ∧ close.index = inside.length + 3 := by
  obtain ⟨front, others, htokens, hfront, hothers⟩ := List.map_eq_append_iff.mp tokens
  obtain ⟨last, behind, rfl, hlast, -⟩ := List.map_eq_cons_iff.mp hothers
  have there : ∀ token ∈ front, token.kind ≠ .eof := by
    intro token htoken
    have hkind : token.kind ∈ front.map Token.kind := List.mem_map_of_mem htoken
    rw [hfront] at hkind
    simp only [List.mem_cons] at hkind
    rcases hkind with h | h | h | hinside
    · rw [h]; simp
    · rw [h]; rintro rfl; cases hname
    · rw [h]; simp
    · exact balanced.ne_eof _ hinside
  obtain ⟨read, after, hsignificant, hread⟩ := significant_eq_append htokens there
    (by rw [hlast]; simp) (by rw [hlast]; rfl)
  have hplain : (!name.isComment) = true := by
    rw [TokenKind.isComment_of_isIdentifierLike hname]
    rfl
  rw [hfront, List.filter_cons_of_pos rfl, List.filter_cons, if_pos hplain,
    List.filter_cons_of_pos rfl] at hread
  obtain ⟨word, read', rfl, hword, hread'⟩ := List.map_eq_cons_iff.mp hread
  obtain ⟨id, read'', rfl, hid, hread''⟩ := List.map_eq_cons_iff.mp hread'
  obtain ⟨brace, held, rfl, hbrace, hheld⟩ := List.map_eq_cons_iff.mp hread''
  have hlength : front.length = inside.length + 3 := by
    rw [← List.length_map Token.kind, hfront]
    rfl
  exact ⟨word, id, brace, buffer.lexeme last front.length, held, after, hsignificant, hword, hid,
    hbrace, hheld, hlast, hlength⟩

/-- Two steps lead into the message. -/
theorem TokenBuffer.stage_opening (tokens : buffer.tokens.toList.map Token.kind =
      .keyword .kwMessage :: name :: .opener .brace :: inside ++ .closer .brace :: rest)
    (hname : name.isIdentifierLike = true) (balanced : Balanced inside) (syncLimit : Nat) :
    ∃ close after, close.index = inside.length + 3 ∧
      Stage close after (initial buffer.cursor .file syncLimit).step.step := by
  obtain ⟨word, id, brace, close, held, after, hsignificant, hword, rfl, hbrace, hheld, hclose,
    hindex⟩ := significant_message tokens hname balanced
  obtain ⟨hframes, hrest⟩ := frames_opening buffer.cursor hsignificant hword hname hbrace syncLimit
  refine ⟨close, after, hindex, .inside ⟨[.body (.scope .message)], [], ?_, ?_, ?_⟩ ?_⟩
  · have hgoals := congrArg (List.map Prod.fst) hframes
    rw [frames, List.map_map] at hgoals
    exact hgoals
  · refine .statements (fun goal hgoal => ?_) rfl
    rw [List.mem_singleton.mp hgoal]
    rfl
  · rw [hrest]
    exact balanced.filter_comments.closes hheld (.done rfl hclose)
  · rw [hframes]
    exact List.suffix_cons _ _

end

/-! ## The message -/

/-- The first root of the tree is a message, and its last child is the brace with this number. -/
def ParseTree.ClosesAt (tree : ParseTree) (token : Nat) : Prop :=
  ∃ message close, tree.roots.getLast? = some message ∧
    tree.kind? message = some (.declaration (.scope .message)) ∧
    (tree.children message).head? = some close ∧
    tree.node? close = some ⟨some token, 1, false, some .scopeClose⟩

/-- There is one such brace at most. -/
theorem ParseTree.ClosesAt.token_eq {token other : Nat} (h : tree.ClosesAt token)
    (h' : tree.ClosesAt other) : token = other := by
  obtain ⟨message, close, hroot, -, hlast, hclose⟩ := h
  obtain ⟨message', close', hroot', -, hlast', hclose'⟩ := h'
  obtain rfl := Option.some.inj (hroot.symm.trans hroot')
  obtain rfl := Option.some.inj (hlast.symm.trans hlast')
  cases hclose.symm.trans hclose'
  rfl

/-- Recovery inside a message stays inside it. Whatever is wrong there, and whatever follows, as
long as brackets are properly nested in the message, the brace behind it closes it. The exception
is a report in front of that brace that the name of a text field in square brackets is not
closed. -/
theorem message_closes_at_brace (buffer : TokenBuffer) (syncLimit : Nat) {name : TokenKind}
    {inside rest : List TokenKind} (tokens : buffer.tokens.toList.map Token.kind =
      .keyword .kwMessage :: name :: .opener .brace :: inside ++ .closer .brace :: rest)
    (hname : name.isIdentifierLike = true) (balanced : Balanced inside) :
    ∃ parsed, buffer.parse .file syncLimit = .ok parsed ∧
      ((∀ diagnostic ∈ parsed.diagnostics, diagnostic.token < inside.length + 3 →
          diagnostic.expected ≠ [.token (.closer .square)]) →
        parsed.tree.ClosesAt (inside.length + 3)) := by
  have sound := buffer.sound_initial .file syncLimit
  have reads : (initial buffer.cursor .file syncLimit).Reads buffer := ⟨List.suffix_refl _, rfl⟩
  have ended := sound.pending_run _ (price_initial_le buffer.cursor .file syncLimit)
  obtain ⟨close, after, hindex, opening⟩ := buffer.stage_opening tokens hname balanced syncLimit
  refine ⟨buffer.parseTokens .file syncLimit, ?_, fun closed => ?_⟩
  · rw [TokenBuffer.parse, if_neg]
    intro hnone
    rw [Array.isEmpty_iff.mp hnone] at tokens
    cases tokens
  · have final := sound.step.step.stage_run ((reads.step sound).step sound.step) opening
      (16 * buffer.cursor.rest.length + 14)
    rw [← run_succ, ← run_succ] at final
    rw [← hindex] at closed ⊢
    cases final with
    | inside confined => exact absurd ended confined.running
    | lost lost =>
      obtain ⟨diagnostic, hdiagnostic, hexpected, hbefore⟩ := lost
      exact absurd hexpected (closed diagnostic (Array.mem_toList_iff.mpr hdiagnostic) hbefore)
    | closed closed => exact absurd ended closed.running
    | behind message begins =>
      obtain ⟨last, hlast, hleaf⟩ := begins.head?_children
      exact ⟨message, last, begins.getLast?_roots, begins.kind, hlast, hleaf⟩

/-- A message in which an equals sign and a group begin no statement. -/
def TokenBuffer.strayGroup : TokenBuffer :=
  ⟨"message M \x7b = ( \x7b \x7d ) ; \x7d", #[⟨.keyword .kwMessage, 0, 0, 7⟩,
    ⟨.identifier, 0, 8, 1⟩, ⟨.opener .brace, 0, 10, 1⟩, ⟨.equals, 0, 12, 1⟩,
    ⟨.opener .paren, 0, 14, 1⟩, ⟨.opener .brace, 0, 16, 1⟩, ⟨.closer .brace, 0, 18, 1⟩,
    ⟨.closer .paren, 0, 20, 1⟩, ⟨.semicolon, 0, 22, 1⟩, ⟨.closer .brace, 0, 24, 1⟩,
    ⟨.eof, 0, 25, 0⟩], #[⟨0, 25⟩]⟩

/-- What stands between the braces of `strayGroup`. -/
def TokenBuffer.insideStrayGroup : List TokenKind :=
  [.equals, .opener .paren, .opener .brace, .closer .brace, .closer .paren, .semicolon]

theorem message_closes_at_brace_strayGroup :
    TokenBuffer.strayGroup.tokens.toList.map Token.kind = .keyword .kwMessage :: .identifier ::
        .opener .brace :: TokenBuffer.insideStrayGroup ++ .closer .brace :: [.eof] ∧
      Balanced TokenBuffer.insideStrayGroup ∧
      ∃ parsed, TokenBuffer.strayGroup.parse .file 10 = .ok parsed ∧
        parsed.diagnostics.length = 1 ∧ parsed.tree.ClosesAt 9 := by
  have tokens : TokenBuffer.strayGroup.tokens.toList.map Token.kind = .keyword .kwMessage ::
      .identifier :: .opener .brace :: TokenBuffer.insideStrayGroup ++ .closer .brace :: [.eof] :=
    rfl
  have balanced : Balanced TokenBuffer.insideStrayGroup :=
    .plain rfl rfl (by simp) (.group .paren (.group .brace .nil .nil)
      (.plain rfl rfl (by simp) .nil))
  obtain ⟨parsed, hparsed, hcloses⟩ :=
    message_closes_at_brace TokenBuffer.strayGroup 10 tokens rfl balanced
  obtain rfl : TokenBuffer.strayGroup.parseTokens .file 10 = parsed := Except.ok.inj hparsed
  have significant : TokenBuffer.strayGroup.significant = [⟨0, .keyword .kwMessage, 0, 0, none⟩,
      ⟨1, .identifier, 0, 8, none⟩, ⟨2, .opener .brace, 0, 10, none⟩, ⟨3, .equals, 0, 12, none⟩,
      ⟨4, .opener .paren, 0, 14, none⟩, ⟨5, .opener .brace, 0, 16, none⟩,
      ⟨6, .closer .brace, 0, 18, none⟩, ⟨7, .closer .paren, 0, 20, none⟩,
      ⟨8, .semicolon, 0, 22, none⟩, ⟨9, .closer .brace, 0, 24, none⟩] := by
    decide +kernel
  have hdiagnostics : (TokenBuffer.strayGroup.parseTokens .file 10).diagnostics = [⟨[.token
      (.keyword .kwOption), .token (.keyword .kwReserved), .fieldStart], .equals, 3⟩] := by
    rw [TokenBuffer.parseTokens, TokenBuffer.cursor, significant]
    cbv
  refine ⟨tokens, balanced, _, hparsed, by rw [hdiagnostics]; rfl, hcloses ?_⟩
  rw [hdiagnostics]
  simp

/-- A message with an option whose text message has a field with a number for a name. -/
def TokenBuffer.unclosedName : TokenBuffer :=
  ⟨"message N \x7b option x = \x7b [1] \x7d; \x7d", #[⟨.keyword .kwMessage, 0, 0, 7⟩,
    ⟨.identifier, 0, 8, 1⟩, ⟨.opener .brace, 0, 10, 1⟩, ⟨.keyword .kwOption, 0, 12, 6⟩,
    ⟨.identifier, 0, 19, 1⟩, ⟨.equals, 0, 21, 1⟩, ⟨.opener .brace, 0, 23, 1⟩,
    ⟨.opener .square, 0, 25, 1⟩, ⟨.intLiteral, 0, 26, 1⟩, ⟨.closer .square, 0, 27, 1⟩,
    ⟨.closer .brace, 0, 29, 1⟩, ⟨.semicolon, 0, 30, 1⟩, ⟨.closer .brace, 0, 32, 1⟩,
    ⟨.eof, 0, 33, 0⟩], #[⟨0, 33⟩]⟩

/-- What stands between the braces of the message in `unclosedName`. -/
def TokenBuffer.insideUnclosedName : List TokenKind :=
  [.keyword .kwOption, .identifier, .equals, .opener .brace, .opener .square, .intLiteral,
    .closer .square, .closer .brace, .semicolon]

/-- The name of the text field is not closed where it breaks off, its own bracket ends the text
message, and the brace of the text message closes the message. -/
theorem closes_early_unclosedName :
    TokenBuffer.unclosedName.tokens.toList.map Token.kind = .keyword .kwMessage :: .identifier ::
        .opener .brace :: TokenBuffer.insideUnclosedName ++ .closer .brace :: [.eof] ∧
      Balanced TokenBuffer.insideUnclosedName ∧
      ∃ parsed, TokenBuffer.unclosedName.parse .file 10 = .ok parsed ∧
        parsed.tree.ClosesAt 10 ∧ ¬ parsed.tree.ClosesAt 12 := by
  have balanced : Balanced TokenBuffer.insideUnclosedName :=
    .plain rfl rfl (by simp) (.plain rfl rfl (by simp) (.plain rfl rfl (by simp)
      (.group .brace (.group .square (.plain rfl rfl (by simp) .nil) .nil)
        (.plain rfl rfl (by simp) .nil))))
  have significant : TokenBuffer.unclosedName.significant = [⟨0, .keyword .kwMessage, 0, 0, none⟩,
      ⟨1, .identifier, 0, 8, none⟩, ⟨2, .opener .brace, 0, 10, none⟩,
      ⟨3, .keyword .kwOption, 0, 12, none⟩, ⟨4, .identifier, 0, 19, none⟩,
      ⟨5, .equals, 0, 21, none⟩, ⟨6, .opener .brace, 0, 23, none⟩,
      ⟨7, .opener .square, 0, 25, none⟩, ⟨8, .intLiteral, 0, 26, none⟩,
      ⟨9, .closer .square, 0, 27, none⟩, ⟨10, .closer .brace, 0, 29, none⟩,
      ⟨11, .semicolon, 0, 30, none⟩, ⟨12, .closer .brace, 0, 32, none⟩] := by
    decide +kernel
  have closes : (TokenBuffer.unclosedName.parseTokens .file 10).tree.ClosesAt 10 := by
    rw [TokenBuffer.parseTokens, TokenBuffer.cursor, significant]
    exact ⟨15, 14, by cbv, by cbv, by cbv, by cbv⟩
  exact ⟨rfl, balanced, _, rfl, closes, fun brace => absurd (closes.token_eq brace) (by decide)⟩

end ProtoFront
