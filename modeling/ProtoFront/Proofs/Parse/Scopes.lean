import ProtoFront.Proofs.Parse.Growth
import ProtoFront.Proofs.Parse.Termination
import ProtoFront.Proofs.Tree.Scopes

/-!
# Every scope is closed once

A declaration that opens a scope waits for its body with nothing in its piece of the tree that ends
a scope. The body ends with one leaf that does, be it a brace or a node without a token, and the
next step closes the declaration over that leaf. A declaration that never gets to its body makes the
leaf itself.
-/

namespace ProtoFront

open ParseState

variable {entry now : Pending} {s t final : ParseState} {part : Part} {before : Nat}
variable {earlier since : Forest}

/-- Whether the last leaf of the construct, when the goal is pursued, ends its scope. -/
def Goal.sealed : Goal → Bool
  | declarationEnd (.scope _) => true
  | _ => false

/-- Whether reading the part ends the scope of the construct that waits for it. -/
def Part.seals : Part → Bool
  | block (.scope _) => true
  | _ => false

theorem Goal.sealed_eq_seals {goal : Goal} (h : goal.awaits? = some part) :
    goal.sealed = part.seals := by
  cases goal with
  | declarationEnd kind => cases kind <;> cases h <;> rfl
  | listAfterItem list failed => cases list <;> cases h <;> rfl
  | statementEnd kind => cases (Option.ite_none_right_eq_some.mp h).2; rfl
  | qualifiedNameEnd tag? => cases (Option.ite_none_right_eq_some.mp h).2; rfl
  | _ => cases h <;> rfl

theorem Goal.sealed_of_isOpen {goal : Goal} (h : goal.isOpen = true) : goal.sealed = false := by
  cases goal <;> first | rfl | exact absurd h Bool.false_ne_true

theorem Goal.sealed_of_begins {goal : Goal} {kind : TokenKind} (h : goal.Begins kind) :
    goal.sealed = false := by
  have waits := h.waits
  cases goal with
  | declarationEnd kind => cases kind <;> first | rfl | cases waits
  | _ => rfl

theorem Part.seals_of_bare (h : ∀ kind, part ≠ .block kind) : part.seals = false := by
  cases part with
  | block kind => exact absurd rfl (h kind)
  | _ => rfl

/-- The pieces of waiting constructs hold no end of a scope that is not in a scope of the piece. -/
abbrev Nested : List Pending → Forest → Prop := Grown fun _ since => since.Paired false

/-- The tree of a state between two steps: the scopes in it pair up, but for the one that a goal on
top of the stack is about to close. -/
inductive Shaped : ParseState → Prop
  | finished {s : ParseState} (forest : Forest) (pending : s.pending = []) (lays : s.Lays forest)
      (paired : forest.Paired false) : Shaped s
  | going {s : ParseState} {top : Pending} {rest : List Pending} (earlier since : Forest)
      (pending : s.pending = top :: rest) (lays : s.Lays (earlier ++ since))
      (below : Nested rest earlier) (start : top.start = earlier.size)
      (paired : since.Paired top.goal.sealed) : Shaped s

/-- A tree with a plain root is neither a scope nor the end of one. -/
theorem Forest.paired_tree_of_plain {tag? : Option NodeKind} (token? : Option Nat) (failed : Bool)
    (plain : tag?.all NodeKind.isPlain = true) (paired : since.Paired false) :
    (Forest.tree ⟨token?, failed, tag?⟩ since).Paired false := by
  have hopen : (⟨token?, failed, tag?⟩ : Label).opensScope = false := by
    rcases tag? with _ | tag
    · rfl
    · cases tag with
      | declaration kind => cases kind <;> first | rfl | exact absurd plain Bool.false_ne_true
      | _ => rfl
  refine Forest.Paired.tree (by rwa [hopen]) ?_
  rintro ⟨rfl⟩
  exact absurd plain Bool.false_ne_true

/-- A plain leaf ends no scope. -/
theorem Forest.paired_leaf {tag? : Option NodeKind} (token? : Option Nat) (failed : Bool)
    (plain : tag?.all NodeKind.isPlain = true) : (Forest.leaf token? failed tag?).Paired false :=
  paired_tree_of_plain token? failed plain rfl

/-- A leaf that is read is added, unless the input has ended. -/
theorem adds_leaf {forest added : Forest} (tag? : Option NodeKind) (failed : Bool)
    (lays : s.Lays (forest ++ added)) (paired : added.Paired false)
    (plain : tag?.all NodeKind.isPlain = true) :
    ∃ added : Forest, (s.addLeaf tag? failed).Lays (forest ++ added) ∧ added.Paired false := by
  rcases hrest : s.cursor.rest with _ | ⟨next, rest⟩
  · rw [s.addLeaf_of_rest_eq_nil _ _ hrest]
    exact ⟨added, lays, paired⟩
  · refine ⟨added ++ .leaf (some next.index) failed tag?, ?_, ?_⟩
    · rw [← Forest.append_assoc]
      exact lays.addLeaf tag? failed hrest
    · exact paired.append (Forest.paired_leaf _ _ plain)

/-- Reading and skipping add trees without ends of scopes, and none to a construct whose body is
behind it. -/
theorem Moves.adds (h : Moves entry s now t) {forest : Forest} (lays : s.Lays forest) :
    ∃ added : Forest, t.Lays (forest ++ added) ∧ added.Paired false ∧
      (entry.goal.isOpen = false → added = .nil) := by
  -- on the forest, too: the moves of a range begin with the nodes made before it
  induction h generalizing forest with
  | start => exact ⟨.nil, by rwa [Forest.append_nil], rfl, fun _ => rfl⟩
  | leaf tag? h opened plain ih =>
    obtain ⟨added, hlays, paired, -⟩ := ih lays
    obtain ⟨added', hlays', paired'⟩ := adds_leaf tag? false hlays paired plain
    rw [h.goal_eq] at opened
    exact ⟨added', hlays', paired', fun hclosed => absurd opened (by rw [hclosed]; simp)⟩
  | discard h opened _ ih =>
    obtain ⟨added, hlays, paired, -⟩ := ih lays
    obtain ⟨added', hlays', paired'⟩ := adds_leaf none true hlays paired rfl
    rw [h.goal_eq] at opened
    exact ⟨added', hlays', paired', fun hclosed => absurd opened (by rw [hclosed]; simp)⟩
  | report expected _ ih => exact ih lays
  | breaks _ _ ih => exact ih lays
  | resync start _ _ ih => exact ih lays
  | @range _ _ _ t _ h h' opened _ _ ih ih' =>
    obtain ⟨added, hlays, paired, -⟩ := ih lays
    obtain ⟨inner, hlays', paired', -⟩ := ih' hlays
    rw [h.goal_eq] at opened
    refine ⟨added ++ .tree ⟨some t.position, false, some .range⟩ inner, ?_, ?_, ?_⟩
    · rw [← Forest.append_assoc, hlays.size_eq]
      exact hlays'.addParent _ _ _
    · exact paired.append (Forest.paired_tree_of_plain _ _ rfl paired')
    · exact fun hclosed => absurd opened (by rw [hclosed]; simp)

/-! ## Steps -/

/-- The construct around goes on: what has been made becomes part of its piece. -/
theorem Nested.shaped {more : Forest} (below : Nested s.pending earlier)
    (lays : s.Lays (earlier ++ more)) (awaited : Awaited part s.pending) (inner : part ≠ .document)
    (paired : more.Paired part.seals) : Shaped s := by
  rcases hpending : s.pending with _ | ⟨next, rest⟩
  · rw [hpending] at awaited
    exact absurd awaited inner
  · rw [hpending] at below awaited
    cases below with
    | @piece _ _ before since below start fits =>
      rw [Forest.append_assoc] at lays
      have hpaired : (since ++ more).Paired next.goal.sealed := by
        rw [Goal.sealed_eq_seals awaited.1]
        exact fits.append paired
      exact .going before (since ++ more) hpending lays below start hpaired

theorem Nested.letGo (below : Nested s.pending earlier) (now : Pending) :
    Nested (s.letGo now).pending earlier := by
  rw [ParseState.letGo]
  split
  · exact Grown.markEnclosing below id
  · exact below

theorem awaited_letGo (awaited : Awaited part s.pending) (now : Pending) :
    Awaited part (s.letGo now).pending := by
  rw [ParseState.letGo]
  split
  case isFalse => exact awaited
  case isTrue => exact awaited.markEnclosing

/-- The construct ends without a node of its own. -/
theorem Nested.shaped_letGo {more : Forest} (below : Nested s.pending earlier)
    (lays : s.Lays (earlier ++ more)) (awaited : Awaited part s.pending) (inner : part ≠ .document)
    (paired : more.Paired part.seals) (now : Pending) : Shaped (s.letGo now) :=
  (below.letGo now).shaped (lays.letGo now) (awaited_letGo awaited now) inner paired

theorem Nested.close (below : Nested s.pending earlier) (now : Pending) (tag? : Option NodeKind) :
    Nested (s.close now tag?).pending earlier := by
  rw [close_eq]
  rw [← s.pending_addParent _ now.start tag? now.failed] at below
  exact below.letGo now

theorem awaited_close (awaited : Awaited part s.pending) (now : Pending) (tag? : Option NodeKind) :
    Awaited part (s.close now tag?).pending := by
  rw [close_eq]
  rw [← s.pending_addParent _ now.start tag? now.failed] at awaited
  exact awaited_letGo awaited now

/-- A construct that begins has made nothing yet. -/
theorem Nested.shaped_begin {top : Pending} {rest : List Pending} (below : Nested rest earlier)
    (pending : s.pending = top :: rest) (lays : s.Lays earlier) (start : top.start = s.nodes.size)
    (unsealed : top.goal.sealed = false) : Shaped s := by
  refine .going earlier .nil pending ?_ below (start.trans lays.size_eq) ?_
  · rwa [Forest.append_nil]
  · exact unsealed

theorem Nested.extend {pending : List Pending} {more : Forest} (below : Nested pending earlier)
    (inner : pending ≠ []) (paired : more.Paired false) : Nested pending (earlier ++ more) := by
  cases below with
  | bottom => exact absurd rfl inner
  | piece below start fits =>
    rw [Forest.append_assoc]
    exact .piece below start (fits.append paired)

/-- A construct that is closed is one tree of the construct around it. -/
theorem Nested.closes (below : Nested s.pending earlier) (lays : s.Lays (earlier ++ since))
    (start : now.start = earlier.size) (tag? : Option NodeKind)
    (tree : ∀ token?, (Forest.tree ⟨token?, now.failed, tag?⟩ since).Paired false) :
    ∃ more : Forest, (s.close now tag?).Lays (earlier ++ more) ∧ more.Paired false ∧
      Nested (s.close now tag?).pending earlier := by
  obtain ⟨token?, hlays⟩ := lays.close start tag?
  exact ⟨_, hlays, tree token?, below.close now tag?⟩

/-- A goal that reads only a part of the input has a construct around it. -/
theorem Awaited.ne_nil {pending : List Pending} (awaited : Awaited part pending)
    (inner : part ≠ .document) : pending ≠ [] := by
  rintro rfl
  exact inner awaited

theorem Goal.sealed_of_document {goal : Goal} (h : goal.part = .document) :
    goal.sealed = false := by
  rcases goal.cases_of_document h with rfl | ⟨kind, rfl⟩ <;> rfl

theorem Goal.Begins.ne_document {goal : Goal} {kind : TokenKind} (h : goal.Begins kind) :
    goal.part ≠ .document := by
  have waits := h.waits
  cases goal with
  | listAfterItem list failed => cases list <;> rintro ⟨⟩
  | file => cases waits
  | fragmentBody kind => cases waits
  | _ => rintro ⟨⟩

/-- The tree of a construct pairs up when the goal closes it. -/
theorem Forest.paired_of_closes {goal : Goal} {tag? : Option NodeKind} (closes : goal.Closes tag?)
    (paired : since.Paired goal.sealed) (token? : Option Nat) (failed : Bool) :
    (Forest.tree ⟨token?, failed, tag?⟩ since).Paired false := by
  cases goal with
  | declarationEnd kind =>
    cases closes
    refine Forest.Paired.tree ?_ (by simp)
    cases kind <;> exact paired
  | _ => exact paired_tree_of_plain token? failed closes paired

/-- The leaf of a brace that closes a body, or of none, ends the scope if the body is one's. -/
theorem Forest.paired_closeTag (kind : BodyKind) (token? : Option Nat) (failed : Bool) :
    (Forest.leaf token? failed kind.closeTag?).Paired (Part.block kind).seals := by
  cases kind with
  | scope kind => exact paired_scopeClose token? failed
  | _ => exact paired_leaf token? failed rfl

/-- What a construct has made with what the step has added becomes a shaped tree again. -/
theorem Ends.shaped (h : Ends before now t final) (lays : t.Lays (earlier ++ since))
    (below : Nested t.pending earlier) (awaited : Awaited now.goal.part t.pending)
    (start : now.start = earlier.size) (paired : since.Paired now.goal.sealed) : Shaped final := by
  have unsealed (opened : now.goal.isOpen = true) : since.Paired false := by
    rwa [Goal.sealed_of_isOpen opened] at paired
  cases h with
  | finish part rest =>
    rcases hpending : t.pending with _ | ⟨next, rest⟩
    · rw [hpending] at below
      cases below
      exact .finished since hpending lays (Goal.sealed_of_document part ▸ paired)
    · rw [hpending, part] at awaited
      exact absurd awaited.1 next.goal.awaits_ne_document
  | goOn goal opened stays part =>
    have held := unsealed opened
    rw [← Goal.sealed_of_isOpen stays] at held
    exact .going earlier since rfl lays below start held
  | delegate goal next failed opened part awaits begins =>
    have waiting : Nested ({ now with goal, failed } :: t.pending) (earlier ++ since) :=
      .piece below start (unsealed opened)
    exact waiting.shaped_begin rfl lays rfl (Goal.sealed_of_begins begins)
  | enter kind opened part =>
    -- the body begins where the declaration does, which itself has made nothing yet
    have waiting : Nested ({ now with goal := .declarationEnd kind.declaration } :: t.pending)
        (earlier ++ .nil) := .piece below start rfl
    rw [Forest.append_nil] at waiting
    exact .going earlier since rfl lays waiting start (unsealed opened)
  | replace next opened part begins =>
    have inner : now.goal.part ≠ .document := part ▸ begins.ne_document
    have waiting := below.extend (awaited.ne_nil inner) (unsealed opened)
    exact waiting.shaped_begin rfl lays rfl (Goal.sealed_of_begins begins)
  | parenthesize goal unmarked ready =>
    have inner : now.goal.part ≠ .document := by rw [goal]; decide
    have held := below.extend (awaited.ne_nil inner) (unsealed (by rw [goal]; rfl))
    have waiting : Nested (t.pushGoal .optionNameExtensionEnd).pending (earlier ++ since ++ .nil) :=
      .piece held lays.size_eq rfl
    rw [Forest.append_nil] at waiting
    exact waiting.shaped_begin rfl lays rfl rfl
  | pass opened inner bare =>
    have held := unsealed opened
    rw [← Part.seals_of_bare bare] at held
    exact below.shaped_letGo lays awaited inner held now
  | close tag? inner bare closed =>
    obtain ⟨more, hlays, hmore, hbelow⟩ := below.closes lays start tag? fun token? =>
      Forest.paired_of_closes closed paired token? _
    rw [← Part.seals_of_bare bare] at hmore
    exact hbelow.shaped hlays (awaited_close awaited now tag?) inner hmore
  | separate goal =>
    have held := unsealed (by rw [goal]; rfl)
    obtain ⟨more, hlays, hmore, hbelow⟩ := below.closes lays start (some .textField) fun token? =>
      Forest.paired_tree_of_plain token? _ rfl held
    obtain ⟨more', hlays', hmore'⟩ := adds_leaf none false hlays hmore rfl
    have hawaited := awaited_close awaited now (some .textField)
    rw [goal] at hawaited
    refine Nested.shaped ?_ hlays' (?_ : Awaited .textField _) (by simp) hmore'
    · rwa [take, pending_addLeaf]
    · rwa [take, pending_addLeaf]
  | terminate goal =>
    have held := unsealed (by rw [goal]; rfl)
    obtain ⟨more, hlays, hmore, hbelow⟩ := below.closes lays start (some .textField) fun token? =>
      Forest.paired_tree_of_plain token? _ rfl held
    have hlays' := hlays.addSynthetic .terminator false
    rw [Forest.append_assoc] at hlays'
    have hawaited := awaited_close awaited now (some .textField)
    rw [goal] at hawaited
    exact Nested.shaped hbelow hlays' (hawaited : Awaited .textField _) (by decide)
      (hmore.append (Forest.paired_leaf _ _ rfl))
  | closeScope kind goal =>
    -- the scope has had no body, so the leaf that ends it is made here
    have hlays' := lays.addSynthetic .scopeClose true
    rw [Forest.append_assoc] at hlays'
    have held : (since ++ .leaf none true (some .scopeClose)).Paired true :=
      (unsealed (by rw [goal]; rfl)).append (Forest.paired_scopeClose none true)
    have below : Nested (t.addSynthetic .scopeClose true).pending earlier := below
    have awaited : Awaited now.goal.part (t.addSynthetic .scopeClose true).pending := awaited
    obtain ⟨more, hlays, hmore, hbelow⟩ := below.closes hlays' start (some (.scope kind))
      fun token? => Forest.Paired.tree held (by simp)
    have hawaited := awaited_close awaited now (some (.scope kind))
    rw [goal] at hawaited
    exact Nested.shaped hbelow hlays (hawaited : Awaited .statement _) (by rintro ⟨⟩) hmore
  | closeBody kind goal left there =>
    rcases hrest : t.cursor.rest with _ | ⟨next, rest⟩
    · exact absurd (by rw [ParseState.kind, Cursor.kind, hrest]) there
    · have hlays := lays.addLeaf kind.closeTag? false hrest
      rw [Forest.append_assoc] at hlays
      rw [goal] at awaited
      have held := (unsealed (by rw [goal]; rfl)).append
        (Forest.paired_closeTag kind (some next.index) false)
      rw [← pending_addLeaf t kind.closeTag? false] at below awaited
      exact below.shaped_letGo hlays awaited (by rintro ⟨⟩) held now
  | cutBody kind goal =>
    rw [goal] at awaited
    have opened := unsealed (by rw [goal]; rfl)
    split
    case h_1 tag htag =>
      have hlays := lays.addSynthetic tag true
      rw [Forest.append_assoc] at hlays
      have held := opened.append (Forest.paired_closeTag kind none true)
      rw [htag] at held
      have below : Nested (t.addSynthetic tag true).pending earlier := below
      have awaited : Awaited (Part.block kind) (t.addSynthetic tag true).pending := awaited
      exact below.shaped_letGo hlays awaited (by simp) held now
    case h_2 htag =>
      -- only the body of a scope has a tag for its end
      have held : since.Paired (Part.block kind).seals := by
        cases kind with
        | scope kind => cases htag
        | _ => exact opened
      exact below.shaped_letGo lays awaited (by rintro ⟨⟩) held now
  | junk failed goal =>
    obtain ⟨more, hlays, hmore⟩ := adds_leaf none true lays (unsealed (by rw [goal]; rfl)) rfl
    rw [← pending_addLeaf t none true] at below
    exact .going earlier more rfl hlays below start hmore

/-- A step keeps the tree shaped. -/
theorem Shaped.step (h : Shaped s) (sound : Sound s) : Shaped s.step := by
  by_cases running : s.pending = []
  · rwa [ParseState.step, running]
  · obtain ⟨top, t, settled, -, -, hs, now, u, moves, ends⟩ := sound.handled running
    cases h with
    | finished _ pending => exact absurd pending running
    | going earlier since pending lays below start paired =>
      rw [hs] at pending
      obtain ⟨rfl, rfl⟩ := List.cons.inj pending
      have hlays : t.Lays (earlier ++ since) := by
        rw [hs] at lays
        exact lays
      obtain ⟨added, hadded, paired', closed⟩ := moves.adds hlays
      rw [Forest.append_assoc] at hadded
      refine ends.shaped hadded ?_ ?_ (by rw [moves.start_eq, start]) ?_
      · rwa [moves.pending_eq]
      · rw [moves.pending_eq, moves.goal_eq]
        exact settled.awaited
      · rw [moves.goal_eq]
        -- nothing is added behind the leaf that ends a scope
        rcases hopen : top.goal.isOpen with _ | _
        · rwa [closed hopen, Forest.append_nil]
        · rw [Goal.sealed_of_isOpen hopen] at paired ⊢
          exact paired.append paired'

theorem Shaped.run (h : Shaped s) (sound : Sound s) (fuel : Nat) : Shaped (s.run fuel) :=
  sound.run_keeps Shaped h (fun _ sound shaped => shaped.step sound) fuel

theorem shaped_initial (cursor : Cursor) (fragment : Fragment) (syncLimit : Nat) :
    Shaped (initial cursor fragment syncLimit) := by
  refine .going .nil .nil rfl rfl .bottom rfl ?_
  cases fragment <;> rfl

/-- Scopes pair up in the tree of every parse, also of broken input. Every message, enum, service
and oneof has one child that ends its scope, which is its last one, and no other node ends a scope.
A visitor that puts scopes on a stack when it comes to them, and takes them off when they end,
always has the scopes around the node that it visits on its stack, the innermost on top; at the end
of a scope that is the parent. So it never lacks a scope to take off, and has none left at the end.
The scopes around a node are its proper ancestors that open one. -/
theorem scopes_parse (buffer : TokenBuffer) (fragment : Fragment) (syncLimit : Nat)
    (nonempty : buffer.tokens ≠ #[]) :
    ∃ parsed, buffer.parse fragment syncLimit = .ok parsed ∧ parsed.tree.ScopesPair ∧
      visitAll [] parsed.tree.events = some [] ∧
      (∀ before event after, parsed.tree.events = before ++ event :: after →
        visitAll [] before = some (parsed.tree.enclosingScopes event.id) ∧
        ∀ id, event = .scopeClose id → ∃ parent outer,
          parsed.tree.enclosingScopes id = parent :: outer ∧ id ∈ parsed.tree.children parent) ∧
      ∀ scope id, id < parsed.tree.size → (scope ∈ parsed.tree.enclosingScopes id ↔
        Relation.TransGen (fun parent child => child ∈ parsed.tree.children parent) scope id ∧
          (parsed.tree.kind? scope).any NodeKind.opensScope = true) := by
  have sound := buffer.sound_initial fragment syncLimit
  have ended := sound.pending_run _ (price_initial_le buffer.cursor fragment syncLimit)
  have shaped := (shaped_initial buffer.cursor fragment syncLimit).run sound
    (stepBound buffer.cursor.rest.length)
  refine ⟨buffer.parseTokens fragment syncLimit, ?_, ?_⟩
  · rw [TokenBuffer.parse, if_neg (by simpa using nonempty)]
  cases shaped with
  | going _ _ pending => exact absurd ended (by rw [pending]; exact List.cons_ne_nil _ _)
  | finished forest _ lays paired =>
    have hsize : (buffer.parseTokens fragment syncLimit).tree.size = forest.size := lays.size_eq
    have hshows : (buffer.parseTokens fragment syncLimit).tree.Shows 0 forest :=
      ParseTree.shows_of_nodes [] [] (by rw [List.nil_append, List.append_nil]; exact lays)
    have follows := ParseTree.follows_walk hshows hsize 0 hshows (by omega) paired
      (fun id hid => ParseTree.enclosingScopes_root hshows hsize hid) (by simp)
    rw [← hshows.preorder_eq hsize] at follows
    refine ⟨ParseTree.scopesPair_of_paired hshows hsize paired, follows.visitAll_eq, ?_, ?_⟩
    · intro before event after hevents
      have hsplit : (buffer.parseTokens fragment syncLimit).tree.Follows []
          (before ++ event :: after) [] := hevents ▸ follows
      exact hsplit.split
    · intro scope id hid
      rw [ParseTree.mem_enclosingScopes, hshows.encloses_iff hsize hid]

/-- The message that is cut off has its scope ended all the same, by a node that stands for no
token. -/
theorem scopes_cutMessage : TokenBuffer.cutMessage.tokens ≠ #[] ∧
    ∃ parsed, TokenBuffer.cutMessage.parse .file 0 = .ok parsed ∧ parsed.tree.ScopesPair ∧
      visitAll [] parsed.tree.events = some [] ∧
      parsed.tree.events = [.declaration 4 (.scope .message), .scopeClose 3] ∧
      parsed.tree.node? 3 = some ⟨none, 1, true, some .scopeClose⟩ ∧
      parsed.tree.enclosingScopes 3 = [4] ∧
      visitAll [] [.declaration 4 (.scope .message)] = some (parsed.tree.enclosingScopes 3) := by
  obtain ⟨parsed, hparse, hpair, hvisit, along, -⟩ :=
    scopes_parse TokenBuffer.cutMessage .file 0 (by decide)
  obtain rfl := Except.ok.inj (TokenBuffer.parse_cutMessage.symm.trans hparse)
  have events : TokenBuffer.cutMessageParse.tree.events =
      [.declaration 4 (.scope .message)] ++ .scopeClose 3 :: [] := by decide +kernel
  exact ⟨by decide, _, hparse, hpair, hvisit, events, rfl, by decide +kernel,
    (along _ _ _ events).1⟩

end ProtoFront
