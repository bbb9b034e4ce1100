import Mathlib.Data.List.Count
import ProtoFront.Proofs.Import.Walk

/-!
# What a walk has found

When a walk through all of a graph has come to an end, every node has been come to on some way, and
the round trips that have been found are those of the edges that go back on the way to their node.
So all of them are round trips (`GraphWalk.Over.isRound`); each has been found as often as there is
an edge like the one that closes it (`GraphWalk.Over.count_found`); and no round trip is left when
the edges that close one are taken away (`GraphWalk.Over.exists_closed`).
-/

namespace ProtoFront

variable {α : Type} {edges : α → Option (List α)} {found : List (List α)} {finished : List α}
  {node target : α}

/-! ## Edges that close nothing -/

/-- Whether an edge between nodes of the graph is not the last one of a round trip that has been
found. -/
def OpenEdge (edges : α → Option (List α)) (found : List (List α)) (node target : α) : Prop :=
  Edge edges node target ∧ edges target ≠ none ∧ ¬∃ trip ∈ found, [node, target] <:+ trip

/-- Such edges lead to nodes that were finished before. -/
theorem Descends.mem_of_openEdge (h : Descends edges found finished) (hnode : node ∈ finished)
    (hopen : OpenEdge edges found node target) : target ∈ finished := by
  induction finished with
  | nil => cases hnode
  | cons first earlier ih =>
    rcases List.mem_cons.mp hnode with rfl | hearlier
    · rcases h.1 target hopen.1 hopen.2.1 with hcloses | hmem
      · exact absurd hcloses hopen.2.2
      · exact List.mem_cons_of_mem _ hmem
    · exact List.mem_cons_of_mem _ (ih h.2 hearlier)

theorem Descends.mem_of_transGen (h : Descends edges found finished) (hnode : node ∈ finished)
    (hpath : Relation.TransGen (OpenEdge edges found) node target) : target ∈ finished := by
  induction hpath with
  | single hopen => exact h.mem_of_openEdge hnode hopen
  | tail _ hopen ih => exact h.mem_of_openEdge ih hopen

/-- Along such edges there is no way back to a node. -/
theorem Descends.not_transGen (h : Descends edges found finished) (once : finished.Nodup)
    (hnode : node ∈ finished) : ¬Relation.TransGen (OpenEdge edges found) node node := by
  induction finished with
  | nil => cases hnode
  | cons first earlier ih =>
    obtain ⟨hfirst, hearlier⟩ := List.nodup_cons.mp once
    rcases List.mem_cons.mp hnode with rfl | hmem
    · intro hpath
      obtain ⟨next, hopen, hback⟩ := Relation.TransGen.head'_iff.mp hpath
      have hnext : next ∈ earlier :=
        (h.1 next hopen.1 hopen.2.1).resolve_left hopen.2.2
      rcases Relation.reflTransGen_iff_eq_or_transGen.mp hback with rfl | hpath
      · exact hfirst hnext
      · exact hfirst (h.2.mem_of_transGen hnext hpath)
    · exact ih h.2 hearlier hmem

/-- What leads back to where it began goes through nodes that have edges, so it uses nothing but
edges between nodes of the graph. -/
theorem transGen_openEdge_of_nil (h : Relation.TransGen (Edge edges) node target)
    (hknown : edges target ≠ none) : Relation.TransGen (OpenEdge edges []) node target := by
  induction h using Relation.TransGen.head_induction_on with
  | single hedge => exact .single ⟨hedge, hknown, by simp⟩
  | head hedge hrest ih =>
    obtain ⟨next, ⟨targets, hnext, -⟩, -⟩ := Relation.TransGen.head'_iff.mp hrest
    exact .head ⟨hedge, by rw [hnext]; exact Option.some_ne_none targets, by simp⟩ ih

/-! ## Round trips -/

theorem transGen_of_isChain {holds : α → α → Prop} {first last : α} {more : List α}
    (h : (first :: more ++ [last]).IsChain holds) : Relation.TransGen holds first last := by
  induction more generalizing first with
  | nil => exact .single (List.isChain_cons_cons.mp h).1
  | cons second more ih =>
    obtain ⟨hfirst, hrest⟩ := List.isChain_cons_cons.mp h
    exact .head hfirst (ih hrest)

/-- Every node of a round trip has an edge. -/
theorem IsRound.known {trip : List α} (h : IsRound edges trip) (hnode : node ∈ trip) :
    edges node ≠ none := by
  obtain ⟨first, more, rfl, -, hchain⟩ := h
  have hround : node ∈ first :: more := by
    rcases List.mem_append.mp hnode with hmem | hmem
    · exact hmem
    · rw [List.mem_singleton.mp hmem]
      exact List.mem_cons_self
  obtain ⟨front, back, hsplit⟩ := List.append_of_mem hround
  rw [List.isChain_iff_forall_rel_of_append_cons_cons] at hchain
  obtain ⟨next, rest, hnext⟩ : ∃ next rest, back ++ [first] = next :: rest :=
    List.exists_cons_of_ne_nil (by simp)
  obtain ⟨targets, hknown, -⟩ := @hchain node next front rest (by rw [hsplit, ← hnext]; simp)
  rw [hknown]
  exact Option.some_ne_none targets

/-- What holds of the edges of a round trip leads round. -/
theorem IsRound.exists_transGen {trip : List α} (h : IsRound edges trip) (holds : α → α → Prop)
    (hholds : ∀ node target, [node, target] <:+: trip → Edge edges node target →
      holds node target) : ∃ node ∈ trip, Relation.TransGen holds node node := by
  obtain ⟨first, more, rfl, -, hchain⟩ := h
  have hround : (first :: more ++ [first]).IsChain holds := by
    rw [List.isChain_iff_forall_rel_of_append_cons_cons] at hchain ⊢
    intro node target front back hsplit
    exact hholds node target ⟨front, back, by rw [hsplit]; simp⟩ (hchain hsplit)
  exact ⟨first, List.mem_cons_self, transGen_of_isChain hround⟩

/-- Lists with the same members that keep the order of one list are equal. -/
theorem eq_of_sublist_of_perm {whole first second : List α} (once : whole.Nodup)
    (hfirst : first.Sublist whole) (hsecond : second.Sublist whole) (hperm : first.Perm second) :
    first = second := by
  induction whole generalizing first second with
  | nil => rw [List.sublist_nil.mp hfirst, List.sublist_nil.mp hsecond]
  | cons head rest ih =>
    obtain ⟨hhead, hrest⟩ := List.nodup_cons.mp once
    cases hfirst with
    | cons _ hfirst =>
      cases hsecond with
      | cons _ hsecond => exact ih hrest hfirst hsecond hperm
      | cons_cons _ hsecond =>
        have hmem := hperm.mem_iff.mpr List.mem_cons_self
        exact absurd (hfirst.subset hmem) hhead
    | cons_cons _ hfirst =>
      cases hsecond with
      | cons _ hsecond =>
        have hmem := hperm.mem_iff.mp List.mem_cons_self
        exact absurd (hsecond.subset hmem) hhead
      | cons_cons _ hsecond =>
        rw [ih hrest hfirst hsecond ((List.perm_cons head).mp hperm)]

/-- A list without repetition has two members in one order only. -/
theorem not_sublist_swap {whole : List α} (once : whole.Nodup)
    (h : [node, target].Sublist whole) : ¬[target, node].Sublist whole := by
  intro hswap
  have hsame := eq_of_sublist_of_perm once h hswap (.swap _ _ _)
  have hpair := h.nodup once
  rw [(List.cons.inj hsame).1] at hpair
  simp at hpair

/-- A trip goes from one node straight to another just when it can begin at the other and end with
the one. -/
theorem pair_infix_iff {first : α} {more : List α} :
    [node, target] <:+: first :: more ++ [first] ↔
      ∃ round, round ~r first :: more ∧ round.head? = some target ∧ round.getLast? = some node := by
  constructor
  · rintro ⟨front, back, htrip⟩
    rcases List.eq_nil_or_concat back with rfl | ⟨back, last, rfl⟩
    · -- the last edge: the trip begins at the other already
      have hsplit : (front ++ [node]) ++ [target] = (first :: more) ++ [first] := by
        rw [← htrip]
        simp
      obtain ⟨hround, hlast⟩ := List.append_inj' hsplit rfl
      obtain rfl := List.singleton_inj.mp hlast
      exact ⟨target :: more, .refl _, rfl, by rw [← hround]; simp⟩
    · have hsplit :
          (front ++ [node] ++ (target :: back)) ++ [last] = (first :: more) ++ [first] := by
        rw [← htrip, List.concat_eq_append]
        simp
      obtain ⟨hround, -⟩ := List.append_inj' hsplit rfl
      refine ⟨(target :: back) ++ (front ++ [node]), ?_, rfl, ?_⟩
      · rw [← hround]
        exact List.isRotated_append
      · rw [← List.append_assoc]
        exact List.getLast?_concat
  · rintro ⟨round, hrotated, hhead, hlast⟩
    obtain ⟨start, stop, rfl, hround⟩ : ∃ start stop, round = start ++ stop ∧
        stop ++ start = first :: more := by
      obtain ⟨n, hn, hrotate⟩ := List.isRotated_iff_mod.mp hrotated
      rw [List.rotate_eq_drop_append_take hn] at hrotate
      exact ⟨round.take n, round.drop n, (List.take_append_drop n round).symm, hrotate⟩
    by_cases hempty : start = [] ∨ stop = []
    · -- nothing is turned round, so the edge is the last one
      have hsame : start ++ stop = first :: more := by
        rcases hempty with rfl | rfl <;> simpa using hround
      rw [hsame, List.head?_cons, Option.some.injEq] at hhead
      rw [hsame] at hlast
      obtain ⟨front, hfront⟩ := List.getLast?_eq_some_iff.mp hlast
      exact ⟨front, [], by rw [hfront, hhead]; simp⟩
    · obtain ⟨hstart, hstop⟩ := not_or.mp hempty
      rw [List.head?_append_of_ne_nil _ hstart] at hhead
      rw [List.getLast?_append_of_ne_nil _ hstop] at hlast
      obtain ⟨back, rfl⟩ := List.head?_eq_some_iff.mp hhead
      obtain ⟨front, rfl⟩ := List.getLast?_eq_some_iff.mp hlast
      exact ⟨front, back ++ [first], by rw [← hround]; simp⟩

/-- Trips through the same nodes in the same order have the same edges, wherever they begin. -/
theorem pair_infix_of_isRotated {first start : α} {more rest : List α}
    (h : first :: more ~r start :: rest) (hpair : [node, target] <:+: first :: more ++ [first]) :
    [node, target] <:+: start :: rest ++ [start] := by
  rw [pair_infix_iff] at hpair ⊢
  obtain ⟨round, hrotated, hends⟩ := hpair
  exact ⟨round, hrotated.trans h, hends⟩

/-- An edge that leads from a node to itself is on no longer round trip. -/
theorem eq_singleton_of_pair_infix {first : α} {more : List α} (once : (first :: more).Nodup)
    (h : [node, node] <:+: first :: more ++ [first]) : first :: more = [node] := by
  obtain ⟨round, hrotated, hhead, hlast⟩ := pair_infix_iff.mp h
  obtain ⟨rest, rfl⟩ := List.head?_eq_some_iff.mp hhead
  have honce := List.nodup_cons.mp (hrotated.nodup_iff.mpr once)
  cases rest with
  | nil => exact List.isRotated_singleton_iff'.mp hrotated |>.symm
  | cons second rest =>
    rw [List.getLast?_cons_cons] at hlast
    exact absurd (List.mem_of_getLast? hlast) honce.1

namespace GraphWalk

variable [DecidableEq α] {walk : GraphWalk α} {trip other : List α}

/-! ## Walks that have come to an end -/

/-- A walk through all of the graph that has come to an end. -/
structure Over (edges : α → Option (List α)) (walk : GraphWalk α) : Prop where
  steps : Relation.ReflTransGen (Step edges) initial walk
  ended : walk.way = []
  all : ∀ node, edges node ≠ none → node ∈ walk.seen

theorem Over.mem_finished (h : walk.Over edges) : node ∈ walk.finished ↔ node ∈ walk.seen := by
  have hparts := (sound_of_steps h.steps).parts
  rw [path, h.ended] at hparts
  exact hparts.mem_iff.symm

/-- The round trips that edges of a node close are those of all its edges that go back on the way on
which the walk came to it. -/
theorem Over.exists_stop (h : walk.Over edges) (hnode : node ∈ walk.seen) :
    ∃ targets before, Stop.Sound edges walk.seen walk.found ⟨node, targets, []⟩ before :=
  (sound_of_steps h.steps).finished node (h.mem_finished.mpr hnode)

/-- What has been found was closed by an edge that goes back. -/
theorem Over.exists_of_mem_found (h : walk.Over edges) (htrip : trip ∈ walk.found) :
    ∃ node targets before target, Stop.Sound edges walk.seen walk.found ⟨node, targets, []⟩ before ∧
      target ∈ targets ∧ target ∈ node :: before ∧ trip = roundTrip (node :: before) target ∧
      closedBy node trip = true := by
  obtain ⟨node, hseen, hcloses⟩ := (sound_of_steps h.steps).closers trip htrip
  obtain ⟨targets, before, hstop⟩ := h.exists_stop hseen
  have hmem : trip ∈ walk.found.filter (closedBy node) := List.mem_filter.mpr ⟨htrip, hcloses⟩
  rw [hstop.tallied] at hmem
  obtain ⟨target, htarget, rfl⟩ := List.mem_map.mp hmem
  obtain ⟨hdone, hback⟩ := List.mem_filter.mp htarget
  exact ⟨node, targets, before, target, hstop, hdone, of_decide_eq_true hback, rfl, hcloses⟩

/-- What has been found are round trips. -/
theorem Over.isRound (h : walk.Over edges) (htrip : trip ∈ walk.found) : IsRound edges trip := by
  obtain ⟨node, targets, before, target, hstop, htarget, hback, rfl, -⟩ :=
    h.exists_of_mem_found htrip
  obtain ⟨after, htrip, hsuffix, hlast⟩ := roundTrip_eq hback
  have hnodup : (node :: before).Nodup := hstop.came.nodup (sound_of_steps h.steps).once
  have hchain : (node :: before).reverse.IsChain (Edge edges) :=
    List.isChain_reverse.mpr hstop.leads
  refine ⟨target, after, htrip, hsuffix.sublist.nodup (List.nodup_reverse.mpr hnodup), ?_⟩
  rw [htrip, List.isChain_append]
  refine ⟨hchain.suffix hsuffix, List.isChain_singleton _, ?_⟩
  intro last hmem first hfirst
  rw [hlast, Option.mem_some_iff] at hmem
  rw [List.head?_cons, Option.mem_some_iff] at hfirst
  exact ⟨targets, by rw [← hmem, hstop.known, List.append_nil], hfirst ▸ htarget⟩

/-- A round trip without its end goes through nodes in the order in which the walk came to them. -/
theorem Over.sublist_seen (h : walk.Over edges) (htrip : trip ∈ walk.found) :
    trip.dropLast.Sublist walk.seen.reverse := by
  obtain ⟨node, targets, before, target, hstop, -, hback, rfl, -⟩ := h.exists_of_mem_found htrip
  obtain ⟨after, htripeq, hsuffix, -⟩ := roundTrip_eq hback
  rw [htripeq, List.dropLast_concat]
  exact hsuffix.sublist.trans hstop.came.reverse

/-- Two round trips that have been found are one if they go through the same nodes in the same
order, wherever they begin. -/
theorem Over.eq_of_isRotated (h : walk.Over edges) (htrip : trip ∈ walk.found)
    (hother : other ∈ walk.found) (hrotated : trip.dropLast ~r other.dropLast) : trip = other := by
  have hsame := eq_of_sublist_of_perm (List.nodup_reverse.mpr (sound_of_steps h.steps).once)
    (h.sublist_seen htrip) (h.sublist_seen hother) hrotated.perm
  obtain ⟨first, more, rfl, -, -⟩ := h.isRound htrip
  obtain ⟨first', more', rfl, -, -⟩ := h.isRound hother
  rw [List.dropLast_concat, List.dropLast_concat, List.cons.injEq] at hsame
  rw [hsame.1, hsame.2]

theorem roundTrip_injective (path : List α) : Function.Injective (roundTrip path) := by
  intro target other h
  exact List.singleton_inj.mp (List.append_inj' h rfl).2

theorem closedBy_of_suffix (h : [node, target] <:+ trip) : closedBy node trip = true := by
  obtain ⟨front, rfl⟩ := h
  rw [closedBy, List.dropLast_append_cons]
  simp

/-- What an edge of a node closes is the round trip to its end, on the way to the node. -/
theorem eq_roundTrip_of_suffix {targets before : List α}
    (hstop : Stop.Sound edges walk.seen walk.found ⟨node, targets, []⟩ before)
    (htrip : trip ∈ walk.found) (hcloses : [node, target] <:+ trip) :
    target ∈ node :: before ∧ trip = roundTrip (node :: before) target := by
  have hmem : trip ∈ walk.found.filter (closedBy node) :=
    List.mem_filter.mpr ⟨htrip, closedBy_of_suffix hcloses⟩
  rw [hstop.tallied] at hmem
  obtain ⟨last, hlast, rfl⟩ := List.mem_map.mp hmem
  obtain ⟨front, hfront⟩ := hcloses
  have hends : front ++ [node] ++ [target] = roundTrip (node :: before) last := by
    rw [← hfront, List.append_assoc, List.singleton_append]
  rw [List.singleton_inj.mp (List.append_inj' hends rfl).2]
  exact ⟨of_decide_eq_true (List.mem_filter.mp hlast).2, rfl⟩

theorem Over.mem_seen_of_suffix (h : walk.Over edges) (htrip : trip ∈ walk.found)
    (hcloses : [node, target] <:+ trip) : node ∈ walk.seen := by
  have hlast := closedBy_of_suffix hcloses
  rw [closedBy, beq_iff_eq] at hlast
  exact List.mem_reverse.mp ((h.sublist_seen htrip).subset (List.mem_of_getLast? hlast))

/-- A round trip has been found as often as there is an edge like the one that closes it. -/
theorem Over.count_found {targets : List α} (h : walk.Over edges) (htrip : trip ∈ walk.found)
    (hcloses : [node, target] <:+ trip) (hknown : edges node = some targets) :
    (walk.found.countP fun other => decide (other = trip)) =
      targets.countP fun other => decide (other = target) := by
  obtain ⟨done, before, hstop⟩ := h.exists_stop (h.mem_seen_of_suffix htrip hcloses)
  have hdone := hstop.known
  rw [List.append_nil] at hdone
  obtain rfl : done = targets := Option.some.inj (hdone.symm.trans hknown)
  obtain ⟨hback, rfl⟩ := eq_roundTrip_of_suffix hstop htrip hcloses
  have hpasses : (fun other => decide (other ∈ node :: before)) target = true :=
    decide_eq_true hback
  have hcount : walk.found.count (roundTrip (node :: before) target) = done.count target := by
    rw [← List.count_filter (closedBy_of_suffix hcloses), hstop.tallied, roundTrips,
      List.count_map_of_injective _ _ (roundTrip_injective _)]
    exact List.count_filter hpasses
  simpa only [List.count, beq_eq_decide] using hcount

/-- An edge closes no more than one round trip. -/
theorem Over.eq_of_suffix (h : walk.Over edges) (htrip : trip ∈ walk.found)
    (hother : other ∈ walk.found) (hcloses : [node, target] <:+ trip)
    (hclosed : [node, target] <:+ other) : trip = other := by
  obtain ⟨targets, before, hstop⟩ := h.exists_stop (h.mem_seen_of_suffix htrip hcloses)
  rw [(eq_roundTrip_of_suffix hstop htrip hcloses).2,
    (eq_roundTrip_of_suffix hstop hother hclosed).2]

/-- An edge that closes a round trip goes back: the walk came to its end first. -/
theorem Over.sublist_seen_of_suffix (h : walk.Over edges) (htrip : trip ∈ walk.found)
    (hcloses : [node, target] <:+ trip) (hne : node ≠ target) :
    [target, node].Sublist walk.seen.reverse := by
  have hway := h.sublist_seen htrip
  obtain ⟨first, more, rfl, -, -⟩ := h.isRound htrip
  obtain ⟨front, hfront⟩ := hcloses
  have hends : front ++ [node] ++ [target] = first :: more ++ [first] := by
    rw [← hfront, List.append_assoc, List.singleton_append]
  obtain ⟨hround, hlast⟩ := List.append_inj' hends rfl
  rw [List.dropLast_concat, ← hround] at hway
  cases front with
  | nil =>
    rw [List.nil_append, List.cons.injEq] at hround
    exact absurd (hround.1.trans (List.singleton_inj.mp hlast).symm) hne
  | cons second front =>
    rw [List.cons_append, List.cons.injEq] at hround
    rw [List.singleton_inj.mp hlast, ← hround.1]
    refine List.Sublist.trans ?_ hway
    simp

/-- An edge that closes a round trip is on no other that has been found, since it goes back and the
others go on there. -/
theorem Over.eq_of_infix_of_suffix (h : walk.Over edges) (htrip : trip ∈ walk.found)
    (hother : other ∈ walk.found) (hpair : [node, target] <:+: trip)
    (hcloses : [node, target] <:+ other) : trip = other := by
  obtain ⟨front, back, htripeq⟩ := hpair
  rcases List.eq_nil_or_concat back with rfl | ⟨back, last, rfl⟩
  · exact h.eq_of_suffix htrip hother ⟨front, by simpa using htripeq⟩ hcloses
  · have once : walk.seen.reverse.Nodup := List.nodup_reverse.mpr (sound_of_steps h.steps).once
    have hforth : [node, target].Sublist walk.seen.reverse := by
      refine List.Sublist.trans ?_ (h.sublist_seen htrip)
      rw [← htripeq, List.concat_eq_append, ← List.append_assoc, List.dropLast_concat]
      exact List.IsInfix.sublist ⟨front, back, rfl⟩
    have hne : node ≠ target := by
      rintro rfl
      simpa using hforth.nodup once
    exact absurd (h.sublist_seen_of_suffix hother hcloses hne) (not_sublist_swap once hforth)

/-- Every round trip has an edge that closes one that has been found. -/
theorem Over.exists_closed (h : walk.Over edges) (htrip : IsRound edges trip) :
    ∃ node target, [node, target] <:+: trip ∧ ∃ other ∈ walk.found, [node, target] <:+ other := by
  by_contra hnone
  obtain ⟨node, hnode, hpath⟩ := htrip.exists_transGen (OpenEdge edges walk.found) (by
    intro node target hpair hedge
    refine ⟨hedge, htrip.known (hpair.subset (by simp)), ?_⟩
    rintro ⟨other, hother, hcloses⟩
    exact hnone ⟨node, target, hpair, other, hother, hcloses⟩)
  have sound := sound_of_steps h.steps
  have hfinished := h.mem_finished.mpr (h.all node (htrip.known hnode))
  exact sound.descends.not_transGen (List.nodup_append.mp sound.nodup_path).2.1 hfinished hpath

/-- Nothing is found just when no way leads back to where it began. -/
theorem Over.found_eq_nil_iff (h : walk.Over edges) :
    walk.found = [] ↔ ¬∃ node, Relation.TransGen (Edge edges) node node := by
  constructor
  · rintro hnone ⟨node, hpath⟩
    have sound := sound_of_steps h.steps
    obtain ⟨next, ⟨targets, hknown, -⟩, -⟩ := Relation.TransGen.head'_iff.mp hpath
    have hgraph : edges node ≠ none := by
      rw [hknown]
      exact Option.some_ne_none targets
    have hdescends := sound.descends
    rw [hnone] at hdescends
    exact hdescends.not_transGen (List.nodup_append.mp sound.nodup_path).2.1
      (h.mem_finished.mpr (h.all node hgraph)) (transGen_openEdge_of_nil hpath hgraph)
  · intro hacyclic
    by_contra hfound
    obtain ⟨trip, htrip⟩ := List.exists_mem_of_ne_nil _ hfound
    obtain ⟨node, -, hpath⟩ := (h.isRound htrip).exists_transGen (Edge edges)
      fun _ _ _ hedge => hedge
    exact hacyclic ⟨node, hpath⟩

end GraphWalk

end ProtoFront
