import ProtoFront.Proofs.Likeness.Basic
import ProtoFront.Proofs.Parse.Loops

/-!
# Looking, reading and making nodes side by side

Parses that look at corresponding tokens see the same, and what they read and make of it
corresponds. A token that ends a statement may be the last one that the parses share, so the token
behind it is not looked at.
-/

namespace ProtoFront

open ParseState

variable {x : Likeness} {entry other : Pending} {s t : ParseState} {rest rest' : List Lexeme}

namespace Likeness

/-! ## Lexemes -/

theorem Rests.behind_length_le (h : x.Rests rest rest') :
    x.first.behind.length ≤ rest.length := by
  induction h with
  | behind => exact Nat.le_refl _
  | next _ _ _ ih => exact Nat.le_succ_of_le ih

/-- When nothing is left but what is behind, that holds for both parses. -/
theorem Rests.eq_behind (h : x.Rests rest rest') (heq : rest = x.first.behind) :
    rest' = x.second.behind := by
  cases h with
  | behind => rfl
  | next _ _ h =>
    have hle := h.behind_length_le
    rw [← heq, List.length_cons] at hle
    omega

/-- The next lexemes correspond if there are any in front of what is behind. -/
theorem Rests.exists_next (h : x.Rests rest rest') (hne : rest ≠ x.first.behind) :
    ∃ lexeme more lexeme' more', rest = lexeme :: more ∧ rest' = lexeme' :: more' ∧
      x.Lexemes lexeme lexeme' ∧ x.Rests more more' ∧
      (¬x.whole → more = x.first.behind → lexeme.kind.endsStatement = true) := by
  cases h with
  | behind => exact absurd rfl hne
  | next like last h => exact ⟨_, _, _, _, rfl, rfl, like, h, last⟩

/-- Inputs that end together are read to the end together. -/
theorem Rests.cases_whole (h : x.Rests rest rest') (whole : x.whole) :
    (rest = [] ∧ rest' = []) ∨ ∃ lexeme more lexeme' more', rest = lexeme :: more ∧
      rest' = lexeme' :: more' ∧ x.Lexemes lexeme lexeme' ∧ x.Rests more more' := by
  obtain ⟨-, -, -, -, hfirst, hsecond⟩ := x.alone_of_whole whole
  cases h with
  | behind => exact .inl ⟨hfirst, hsecond⟩
  | next like _ h => exact .inr ⟨_, _, _, _, rfl, rfl, like, h⟩

theorem Rests.tail (h : x.Rests rest rest') (ahead : x.whole ∨ rest ≠ x.first.behind) :
    x.Rests rest.tail rest'.tail := by
  by_cases hrest : rest = x.first.behind
  · have whole := ahead.resolve_right (not_not_intro hrest)
    rcases h.cases_whole whole with ⟨rfl, rfl⟩ | ⟨_, _, _, _, rfl, rfl, -, hmore⟩
    · exact h
    · exact hmore
  · obtain ⟨_, _, _, _, rfl, rfl, -, hmore, -⟩ := h.exists_next hrest
    exact hmore

/-! ## Nodes -/

theorem Nodes.size_eq {nodes nodes' : Array Node} (h : x.Nodes nodes nodes') :
    nodes.size + x.second.nodes.size = nodes'.size + x.first.nodes.size := by
  obtain ⟨made, rfl, rfl⟩ := h
  rw [Array.size_append, Array.size_append, Array.size_map]
  omega

theorem Nodes.push {nodes nodes' : Array Node} (h : x.Nodes nodes nodes') {node node' : Node}
    (hnode : node' = node.rename x.token) : x.Nodes (nodes.push node) (nodes'.push node') := by
  obtain ⟨made, rfl, rfl⟩ := h
  subst hnode
  exact ⟨made.push node, Array.push_append .., by rw [Array.map_push, Array.push_append]⟩

/-! ## Goals -/

/-- What holds as long as there is something to skip holds until then. -/
theorem Origins.imp {there later : Prop} (h : x.Origins there entry other)
    (himp : later → there) : x.Origins later entry other :=
  ⟨h.token, fun exact hlater => h.layout exact (himp hlater), h.start⟩

theorem Entries.imp {there later : Prop} (h : x.Entries there entry other)
    (himp : later → there) : x.Entries later entry other :=
  ⟨h.goal, h.failed, h.unflagged, fun inner => (h.origins inner).imp himp⟩

theorem Stacks.imp {there later : Prop} {pending pending' : List Pending}
    (h : x.Stacks there pending pending') (himp : later → there) :
    x.Stacks later pending pending' := by
  induction h with
  | ground => exact .ground
  | cons entries _ ih => exact .cons (entries.imp himp) ih

theorem Stacks.below_length_le {there : Prop} {pending pending' : List Pending}
    (h : x.Stacks there pending pending') : x.first.below.length ≤ pending.length := by
  induction h with
  | ground => exact Nat.le_refl _
  | cons _ _ ih => exact Nat.le_succ_of_le ih

/-- When no goal is left above those below in one parse, none is in the other. -/
theorem Stacks.eq_below {there : Prop} {pending pending' : List Pending}
    (h : x.Stacks there pending pending') (heq : pending = x.first.below) :
    pending' = x.second.below := by
  cases h with
  | ground => rfl
  | cons _ h =>
    have hle := h.below_length_le
    rw [← heq, List.length_cons] at hle
    omega

/-- Parses of whole inputs have nothing below the goals that correspond. -/
theorem Stacks.cases_whole {there : Prop} {pending pending' : List Pending}
    (h : x.Stacks there pending pending') (whole : x.whole) :
    (pending = [] ∧ pending' = []) ∨ ∃ top below top' below', pending = top :: below ∧
      pending' = top' :: below' ∧ x.Entries there top top' ∧ x.Stacks there below below' := by
  obtain ⟨-, -, hfirst, hsecond, -⟩ := x.alone_of_whole whole
  cases h with
  | ground => exact .inl ⟨hfirst, hsecond⟩
  | cons entries hbelow => exact .inr ⟨_, _, _, _, rfl, rfl, entries, hbelow⟩

/-- The goals that correspond are above the goals below. -/
theorem Stacks.exists_cons {there : Prop} {pending pending' : List Pending}
    (h : x.Stacks there pending pending') (hne : pending ≠ x.first.below) :
    ∃ top below top' below', pending = top :: below ∧ pending' = top' :: below' ∧
      x.Entries there top top' ∧ x.Stacks there below below' := by
  cases h with
  | ground => exact absurd rfl hne
  | cons entries hbelow => exact ⟨_, _, _, _, rfl, rfl, entries, hbelow⟩

/-- A goal that a construct goes on with. -/
theorem Entries.resume {there : Prop} (h : x.Entries there entry other) {goal : Goal}
    (carried : ¬x.exact → goal.carried = false)
    (origins : goal.part ≠ .document → x.Origins there entry other) :
    x.Entries there { entry with goal } { other with goal } := by
  refine ⟨rfl, h.failed, fun inexact => ?_, fun inner => ?_⟩
  · have hflagged := h.unflagged inexact
    rw [Pending.flagged, Bool.or_eq_false_iff] at hflagged
    rw [Pending.flagged, hflagged.1, carried inexact]
    rfl
  · obtain ⟨token, layout, start⟩ := origins inner
    exact ⟨token, layout, start⟩

/-- What stands for the whole input goes on wherever it began. -/
theorem Entries.document {there later : Prop} (h : x.Entries there entry other) {goal : Goal}
    (part : goal.part = .document) (carried : goal.carried = false) :
    x.Entries later { entry with goal } { other with goal } := by
  refine ⟨rfl, h.failed, fun inexact => ?_, fun inner => absurd part inner⟩
  have hflagged := h.unflagged inexact
  rw [Pending.flagged, Bool.or_eq_false_iff] at hflagged
  rw [Pending.flagged, hflagged.1, carried]
  rfl

/-- Only parses that are alike through all errors hold a construct that has failed. -/
theorem Entries.mark {there : Prop} (h : x.Entries there entry other) {failed : Bool}
    (clean : ¬x.exact → failed = false) :
    x.Entries there { entry with failed } { other with failed } := by
  refine ⟨h.goal, rfl, fun inexact => ?_, fun inner => ?_⟩
  · have hflagged := h.unflagged inexact
    rw [Pending.flagged, Bool.or_eq_false_iff] at hflagged
    rw [Pending.flagged, clean inexact, hflagged.2]
    rfl
  · obtain ⟨token, layout, start⟩ := h.origins inner
    exact ⟨token, layout, start⟩

theorem Entries.exact_of_failed {there : Prop} (h : x.Entries there entry other)
    (failed : entry.failed = true) : x.exact := by
  by_contra inexact
  have hflagged := h.unflagged inexact
  rw [Pending.flagged, failed] at hflagged
  cases hflagged

theorem Entries.broken {there : Prop} (h : x.Entries there entry other) (exact : x.exact) :
    x.Entries there entry.broken other.broken :=
  h.mark fun inexact => absurd exact inexact

end Likeness

/-! ## Looking -/

/-- The tokens are in order, so a parser that has read something stands at a later one. -/
theorem Alike.kind_eq_of_position {u : ParseState} (h : Alike x s t)
    (suffix : u.cursor.rest <:+ s.cursor.rest) (endIndex : u.cursor.endIndex = s.cursor.endIndex)
    (hposition : u.position = s.position) : u.kind = s.kind := by
  obtain ⟨front, hfront⟩ := suffix
  rcases front with _ | ⟨first, front⟩
  · rw [List.nil_append] at hfront
    rw [kind, Cursor.kind, hfront, kind, Cursor.kind]
  · have ordered := h.ordered
    rw [← hfront, List.cons_append, List.map_cons, List.cons_append, List.pairwise_cons] at ordered
    have later : u.position ∈ (front ++ u.cursor.rest).map Lexeme.index ++ [s.cursor.endIndex] := by
      rw [position, Cursor.position]
      rcases u.cursor.rest with _ | ⟨next, rest⟩ <;> simp [endIndex]
    have hlt := ordered.1 _ later
    rw [hposition, position, Cursor.position, ← hfront] at hlt
    exact absurd hlt (Nat.lt_irrefl _)

/-- Either there is a next token in both inputs, or both have ended. -/
theorem Alike.cases (h : Alike x s t) (ahead : x.whole ∨ s.cursor.rest ≠ x.first.behind) :
    (x.whole ∧ s.cursor.rest = [] ∧ t.cursor.rest = []) ∨
      ∃ lexeme rest lexeme' rest', s.cursor.rest = lexeme :: rest ∧
        t.cursor.rest = lexeme' :: rest' ∧ x.Lexemes lexeme lexeme' ∧ x.Rests rest rest' ∧
        (¬x.whole → rest = x.first.behind → lexeme.kind.endsStatement = true) := by
  by_cases hrest : s.cursor.rest = x.first.behind
  · have whole := ahead.resolve_right (not_not_intro hrest)
    rcases h.rests.cases_whole whole with ⟨hs, ht⟩ | ⟨_, _, _, _, hs, ht, like, hmore⟩
    · exact .inl ⟨whole, hs, ht⟩
    · exact .inr ⟨_, _, _, _, hs, ht, like, hmore, fun part => absurd whole part⟩
  · obtain ⟨_, _, _, _, hs, ht, like, hmore, last⟩ := h.rests.exists_next hrest
    exact .inr ⟨_, _, _, _, hs, ht, like, hmore, last⟩

theorem Alike.position_eq (h : Alike x s t) (ahead : x.whole ∨ s.cursor.rest ≠ x.first.behind) :
    t.position = x.token s.position := by
  rw [position, position, Cursor.position, Cursor.position]
  rcases h.cases ahead with ⟨whole, hs, ht⟩ | ⟨_, _, _, _, hs, ht, like, -⟩
  · rw [hs, ht]
    exact h.ends whole
  · rw [hs, ht]
    exact like.index

/-- Constructs that begin now begin at corresponding tokens. -/
theorem Alike.begin (h : Alike x s t) (ahead : x.whole ∨ s.cursor.rest ≠ x.first.behind)
    {goal : Goal} (fresh : goal.carried = false) :
    Abreast x ⟨goal, s.cursor.origin, s.nodes.size, false⟩ s
      ⟨goal, t.cursor.origin, t.nodes.size, false⟩ t := by
  have origins : x.Origins (s.cursor.rest ≠ []) ⟨goal, s.cursor.origin, s.nodes.size, false⟩
      ⟨goal, t.cursor.origin, t.nodes.size, false⟩ := by
    refine ⟨?_, fun exact there => ?_, h.nodes.size_eq.symm⟩
    · rw [Cursor.origin, Cursor.origin]
      rcases h.cases ahead with ⟨whole, hs, ht⟩ | ⟨_, _, _, _, hs, ht, like, -⟩
      · rw [hs, ht]
        exact h.ends whole
      · rw [hs, ht]
        exact like.index
    · rw [Cursor.origin, Cursor.origin]
      rcases h.cases ahead with ⟨-, hs, -⟩ | ⟨_, _, _, _, hs, ht, like, -⟩
      · exact absurd hs there
      · rw [hs, ht]
        exact like.layout exact
  exact ⟨⟨h, ⟨rfl, rfl, fun _ => fresh, fun _ => origins⟩, origins⟩, ahead⟩

namespace Abreast

theorem kind_eq (h : Abreast x entry s other t) : t.kind = s.kind := by
  rw [kind, kind, Cursor.kind, Cursor.kind]
  rcases h.cases h.ahead with ⟨-, hs, ht⟩ | ⟨_, _, _, _, hs, ht, like, -⟩
  · rw [hs, ht]
  · rw [hs, ht]
    exact like.kind

theorem position_eq (h : Abreast x entry s other t) : t.position = x.token s.position :=
  h.toAlike.position_eq h.ahead

theorem atWord_eq (h : Abreast x entry s other t) (word : ContextWord) :
    t.atWord word = s.atWord word := by
  rw [atWord, atWord, Cursor.word?, Cursor.word?]
  rcases h.cases h.ahead with ⟨-, hs, ht⟩ | ⟨_, _, _, _, hs, ht, like, -⟩
  · rw [hs, ht]
  · rw [hs, ht, List.head?_cons, List.head?_cons, Option.bind_some, Option.bind_some, like.word]

/-! ## Reading -/

/-- A token becomes a leaf in both parses. Behind it they may share nothing any more. -/
theorem addLeaf (h : Abreast x entry s other t) (tag? : Option NodeKind) (failed : Bool) :
    Coupled x entry (s.addLeaf tag? failed) other (t.addLeaf tag? failed) := by
  have there : (s.addLeaf tag? failed).cursor.rest ≠ [] → s.cursor.rest ≠ [] := by
    rw [rest_addLeaf]
    intro hrest heq
    rw [heq] at hrest
    exact hrest rfl
  have nodes : x.Nodes (s.addLeaf tag? failed).nodes (t.addLeaf tag? failed).nodes := by
    rcases h.cases h.ahead with ⟨-, hs, ht⟩ | ⟨_, _, _, _, hs, ht, like, -⟩
    · rw [s.addLeaf_of_rest_eq_nil _ _ hs, t.addLeaf_of_rest_eq_nil _ _ ht]
      exact h.nodes
    · rw [s.nodes_addLeaf _ _ hs, t.nodes_addLeaf _ _ ht]
      refine h.nodes.push ?_
      rw [like.index]
      rfl
  refine ⟨⟨?_, ?_, ?_, h.spelled.addLeaf tag? failed, nodes, ?_, ?_⟩, h.entries.imp there,
    h.origins.imp there⟩
  · rw [rest_addLeaf, rest_addLeaf]
    exact h.rests.tail h.ahead
  · rw [endIndex_addLeaf, endIndex_addLeaf]
    exact h.ends
  · rw [rest_addLeaf, endIndex_addLeaf, List.map_tail]
    rcases hrest : s.cursor.rest with _ | ⟨next, rest⟩
    · exact List.pairwise_singleton _ _
    · have ordered := h.ordered
      rw [hrest] at ordered
      exact ordered.tail
  · rw [diagnostics_addLeaf, diagnostics_addLeaf]
    exact h.reports
  · rw [pending_addLeaf, pending_addLeaf]
    exact h.stack.imp there

/-- Behind a token that ends no statement there is another one. -/
theorem ahead_tail (h : Abreast x entry s other t) (goesOn : s.kind.endsStatement = false) :
    x.whole ∨ s.cursor.rest.tail ≠ x.first.behind := by
  rcases h.cases h.ahead with ⟨whole, -⟩ | ⟨_, _, _, _, hs, -, -, -, last⟩
  · exact .inl whole
  · rw [or_iff_not_imp_left]
    intro part hrest
    rw [hs, List.tail_cons] at hrest
    rw [kind_of_rest hs, last part hrest] at goesOn
    cases goesOn

theorem leaf (h : Abreast x entry s other t) (goesOn : s.kind.endsStatement = false)
    (tag? : Option NodeKind) (failed : Bool) :
    Abreast x entry (s.addLeaf tag? failed) other (t.addLeaf tag? failed) := by
  refine ⟨h.addLeaf tag? failed, ?_⟩
  rw [rest_addLeaf]
  exact h.ahead_tail goesOn

theorem take (h : Abreast x entry s other t) (goesOn : s.kind.endsStatement = false) :
    Abreast x entry s.take other t.take :=
  h.leaf goesOn none false

theorem takeAs (h : Abreast x entry s other t) (goesOn : s.kind.endsStatement = false)
    (kind : NodeKind) : Abreast x entry (s.takeAs kind) other (t.takeAs kind) :=
  h.leaf goesOn (some kind) false

theorem takeIf {c d : Prop} [Decidable c] [Decidable d] (h : Abreast x entry s other t)
    (same : d ↔ c) (goesOn : c → s.kind.endsStatement = false) :
    Abreast x entry (if c then s.take else s) other (if d then t.take else t) := by
  split
  case isTrue hc =>
    rw [if_pos (same.mpr hc)]
    exact h.take (goesOn hc)
  case isFalse hc =>
    rw [if_neg fun hd => hc (same.mp hd)]
    exact h

/-- The token behind one that ends no statement. -/
theorem following_eq (h : Abreast x entry s other t)
    (goesOn : x.whole ∨ s.kind.endsStatement = false) : t.following = s.following := by
  rw [← s.kind_addLeaf none false, ← t.kind_addLeaf none false]
  rcases goesOn with whole | goesOn
  · have next : Abreast x entry s.take other t.take := ⟨h.addLeaf none false, .inl whole⟩
    exact next.kind_eq
  · exact (h.take goesOn).kind_eq

/-- A test of a word and of what follows it. -/
theorem and_following_eq (h : Abreast x entry s other t) (test : TokenKind → Bool) {word : Bool}
    (hword : word = true → s.kind.endsStatement = false) :
    (word && test t.following) = (word && test s.following) := by
  cases word with
  | false => rfl
  | true => rw [h.following_eq (.inr (hword rfl))]

end Abreast

/-- A run of tokens is read one by one. -/
theorem ParseState.takeRun_eq {member : TokenKind → Bool} (heof : member .eof = false)
    (s : ParseState) : s.takeRun member = if member s.kind then s.take.takeRun member else s := by
  rcases hrest : s.cursor.rest with _ | ⟨next, rest⟩
  · rw [takeRun, hrest, kind, Cursor.kind, hrest, heof]
    rfl
  · rw [takeRun, kind_of_rest hrest, hrest, List.takeWhile_cons]
    split
    case isTrue => rw [takeRun, take, rest_addLeaf, hrest]; rfl
    case isFalse => rfl

theorem Abreast.takeRun {member : TokenKind → Bool} (h : Abreast x entry s other t)
    (heof : member .eof = false)
    (goesOn : ∀ kind : TokenKind, member kind = true → kind.endsStatement = false) :
    Abreast x entry (s.takeRun member) other (t.takeRun member) := by
  induction hleft : s.left using Nat.strongRecOn generalizing s t with
  | _ left ih =>
    subst hleft
    rw [takeRun_eq heof s, takeRun_eq heof t, h.kind_eq]
    split
    case isFalse => exact h
    case isTrue hmember =>
      have there : s.kind ≠ .eof := by
        intro hkind
        rw [hkind, heof] at hmember
        cases hmember
      have hlt := s.left_take_lt there
      exact ih _ (by omega) (h.take (goesOn _ hmember)) rfl

/-! ## Making nodes -/

namespace Coupled

/-- Corresponding nodes may be made at any time. -/
theorem push (h : Coupled x entry s other t) {node node' : Node}
    (hnode : node' = node.rename x.token) :
    Coupled x entry { s with nodes := s.nodes.push node } other
      { t with nodes := t.nodes.push node' } :=
  ⟨⟨h.rests, h.ends, h.ordered, h.spelled, h.nodes.push hnode, h.reports, h.stack⟩, h.entries,
    h.origins⟩

theorem addSynthetic (h : Coupled x entry s other t) (kind : NodeKind) (failed : Bool) :
    Coupled x entry (s.addSynthetic kind failed) other (t.addSynthetic kind failed) :=
  h.push rfl

/-- A parent over everything since corresponding numbers of nodes. -/
theorem addParent (h : Coupled x entry s other t) (token? : Option Nat) {start start' : Nat}
    (hstart : start' + x.first.nodes.size = start + x.second.nodes.size)
    (tag? : Option NodeKind) (failed : Bool) :
    Coupled x entry (s.addParent token? start tag? failed) other
      (t.addParent (token?.map x.token) start' tag? failed) := by
  refine h.push ?_
  have hsize := h.nodes.size_eq
  have hspan : t.nodes.size - start' = s.nodes.size - start := by omega
  rw [Node.rename, hspan]

end Coupled

/-! ## The stack -/

namespace Coupled

/-- Corresponding goals are put on the stacks. -/
theorem cons (h : Coupled x entry s other t) {top top' : Pending}
    (entries : x.Entries (s.cursor.rest ≠ []) top top') :
    Coupled x entry { s with pending := top :: s.pending } other
      { t with pending := top' :: t.pending } :=
  ⟨⟨h.rests, h.ends, h.ordered, h.spelled, h.nodes, h.reports, .cons entries h.stack⟩, h.entries,
    h.origins⟩

/-- A construct can go on later with corresponding goals. -/
theorem resume (h : Coupled x entry s other t) (goal : Goal)
    (carried : ¬x.exact → goal.carried = false) :
    Coupled x entry (s.resume entry goal) other (t.resume other goal) :=
  h.cons (h.entries.resume carried fun _ => h.origins)

/-- The construct around a failed one, if errors are followed at all. -/
theorem markEnclosing (h : Coupled x entry s other t) (exact : x.exact) :
    Coupled x entry s.markEnclosing other t.markEnclosing := by
  have stack : x.Stacks (s.cursor.rest ≠ []) s.markEnclosing.pending t.markEnclosing.pending := by
    have hstack := h.stack
    rw [ParseState.markEnclosing, ParseState.markEnclosing]
    rcases hstack.cases_whole (x.whole_of_exact exact) with
      ⟨hs, ht⟩ | ⟨top, below, top', below', hs, ht, entries, hbelow⟩
    · rw [hs, ht] at hstack ⊢
      dsimp only
      rwa [hs, ht]
    · rw [hs, ht]
      exact .cons (entries.broken exact) hbelow
  refine ⟨⟨?_, ?_, ?_, ?_, ?_, ?_, ?_⟩, ?_, ?_⟩
  · rw [cursor_markEnclosing, cursor_markEnclosing]
    exact h.rests
  · rw [cursor_markEnclosing, cursor_markEnclosing]
    exact h.ends
  · rw [cursor_markEnclosing]
    exact h.ordered
  · rw [cursor_markEnclosing]
    exact h.spelled
  · rw [nodes_markEnclosing, nodes_markEnclosing]
    exact h.nodes
  · rw [diagnostics_markEnclosing, diagnostics_markEnclosing]
    exact h.reports
  · rw [cursor_markEnclosing]
    exact stack
  · rw [cursor_markEnclosing]
    exact h.entries
  · rw [cursor_markEnclosing]
    exact h.origins

/-- A construct becomes a node, which covers as many nodes in both parses. -/
theorem close (h : Coupled x entry s other t) (tag? : Option NodeKind) :
    Coupled x entry (s.close entry tag?) other (t.close other tag?) := by
  have hsize := h.nodes.size_eq
  have hstart := h.origins.start
  have token : (if other.start = t.nodes.size then none else some other.origin.token) =
      (if entry.start = s.nodes.size then none else some entry.origin.token).map x.token := by
    rw [h.origins.token]
    split
    case isTrue hempty =>
      rw [if_pos (show entry.start = s.nodes.size by omega)]
      rfl
    case isFalse hfull =>
      rw [if_neg (show ¬entry.start = s.nodes.size by omega)]
      rfl
  rw [close_eq, close_eq, token, h.entries.failed]
  have closed := h.addParent
    (if entry.start = s.nodes.size then none else some entry.origin.token) hstart tag? entry.failed
  rw [letGo, letGo, h.entries.failed]
  split
  case isFalse => exact closed
  case isTrue hfailed => exact closed.markEnclosing (h.entries.exact_of_failed hfailed)

end Coupled

namespace Abreast

theorem cons (h : Abreast x entry s other t) {top top' : Pending}
    (entries : x.Entries (s.cursor.rest ≠ []) top top') :
    Abreast x entry { s with pending := top :: s.pending } other
      { t with pending := top' :: t.pending } :=
  ⟨h.toCoupled.cons entries, h.ahead⟩

theorem resume (h : Abreast x entry s other t) (goal : Goal)
    (carried : ¬x.exact → goal.carried = false) :
    Abreast x entry (s.resume entry goal) other (t.resume other goal) :=
  ⟨h.toCoupled.resume goal carried, h.ahead⟩

theorem close (h : Abreast x entry s other t) (tag? : Option NodeKind) :
    Abreast x entry (s.close entry tag?) other (t.close other tag?) := by
  refine ⟨h.toCoupled.close tag?, ?_⟩
  rw [cursor_close]
  exact h.ahead

/-- A construct begins in both parses. -/
theorem pushGoal (h : Abreast x entry s other t) (goal : Goal) (fresh : goal.carried = false) :
    Abreast x entry (s.pushGoal goal) other (t.pushGoal goal) :=
  h.cons (h.toAlike.begin h.ahead fresh).entries

/-- A construct waits for a part of it. -/
theorem wait (h : Abreast x entry s other t) (goal next : Goal)
    (carried : goal.carried = false) (fresh : next.carried = false) :
    Abreast x entry ((s.resume entry goal).pushGoal next) other
      ((t.resume other goal).pushGoal next) :=
  (h.resume goal fun _ => carried).pushGoal next fresh

end Abreast

end ProtoFront
