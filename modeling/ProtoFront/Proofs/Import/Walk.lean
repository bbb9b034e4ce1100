import Mathlib.Data.List.Chain
import Mathlib.Data.List.Nodup
import Mathlib.Data.List.Rotate
import Mathlib.Data.List.TakeWhile
import Mathlib.Logic.Relation

/-!
# Walking a graph depth first

A walk follows the edges of a graph one by one (`GraphWalk.Step`). An edge that goes back to a node
on the way closes a round trip, which the walk writes down; an edge to a node that it has come to
before is passed; any other edge is followed.

What holds of a walk at all times (`GraphWalk.Sound`) tells what it has found in the end. Every node
has a way that leads to it, along which it was come to first, and the round trips that end in an
edge of the node are those of its edges that go back on that way, one for each (`Stop.Sound`). And
every other edge of a node leads to a node that was finished before it (`Descends`), so that going
round needs an edge that closes a round trip.
-/

namespace ProtoFront

variable {α : Type}

/-! ## Graphs and round trips -/

/-- Whether an edge leads from one node to another. Nodes that are not in the graph have none. -/
def Edge (edges : α → Option (List α)) (node target : α) : Prop :=
  ∃ targets, edges node = some targets ∧ target ∈ targets

/-- A trip along edges that ends where it began, and is nowhere else twice. -/
def IsRound (edges : α → Option (List α)) (trip : List α) : Prop :=
  ∃ first more, trip = first :: more ++ [first] ∧ (first :: more).Nodup ∧ trip.IsChain (Edge edges)

/-- What holds of the nodes that a walk is done with, last first: every edge to a node of the graph
closes a round trip that has been found, or leads to a node that was finished before. -/
def Descends (edges : α → Option (List α)) (found : List (List α)) : List α → Prop
  | [] => True
  | node :: earlier => (∀ target, Edge edges node target → edges target ≠ none →
      (∃ trip ∈ found, [node, target] <:+ trip) ∨ target ∈ earlier) ∧
        Descends edges found earlier

theorem Descends.mono {edges : α → Option (List α)} {finished : List α}
    {found later : List (List α)}
    (h : Descends edges found finished) (hfound : found ⊆ later) :
    Descends edges later finished := by
  induction finished with
  | nil => trivial
  | cons node earlier ih =>
    refine ⟨?_, ih h.2⟩
    intro target hedge hknown
    rcases h.1 target hedge hknown with ⟨trip, htrip, hends⟩ | hearlier
    · exact .inl ⟨trip, hfound htrip, hends⟩
    · exact .inr hearlier

variable [DecidableEq α]

/-- The trip from a node on a way, given last node first, to the end of the way and back. -/
def roundTrip (path : List α) (target : α) : List α :=
  path.reverse.dropWhile (fun other => decide (other ≠ target)) ++ [target]

/-- The round trips that edges of the last node on a way close: one for each that goes back. -/
def roundTrips (path targets : List α) : List (List α) :=
  (targets.filter (· ∈ path)).map (roundTrip path)

/-- Whether the last edge of a round trip is one of a node. -/
def closedBy (node : α) (trip : List α) : Bool := trip.dropLast.getLast? == some node

variable {route before targets : List α} {node target : α}

/-- A round trip goes along the way, from the node that it goes back to. -/
theorem roundTrip_eq (h : target ∈ node :: route) : ∃ after,
    roundTrip (node :: route) target = target :: after ++ [target] ∧
      target :: after <:+ (node :: route).reverse ∧ (target :: after).getLast? = some node := by
  rw [roundTrip]
  have hsuffix := List.dropWhile_suffix (l := (node :: route).reverse)
    fun other => decide (other ≠ target)
  have hhead := List.head?_dropWhile_not (fun other => decide (other ≠ target))
    (node :: route).reverse
  cases hdrop : (node :: route).reverse.dropWhile fun other => decide (other ≠ target) with
  | nil =>
    rw [List.dropWhile_eq_nil_iff] at hdrop
    have hnot := hdrop target (List.mem_reverse.mpr h)
    simp at hnot
  | cons first after =>
    rw [hdrop] at hsuffix hhead
    obtain rfl : first = target := by simpa using hhead
    refine ⟨after, rfl, hsuffix, ?_⟩
    obtain ⟨front, hfront⟩ := hsuffix
    have hlast := congrArg List.getLast? hfront
    rw [List.getLast?_append_cons, List.getLast?_reverse, List.head?_cons] at hlast
    exact hlast

theorem closedBy_roundTrip (h : target ∈ node :: route) (other : α) :
    closedBy other (roundTrip (node :: route) target) = decide (node = other) := by
  obtain ⟨after, htrip, -, hlast⟩ := roundTrip_eq h
  rw [htrip, closedBy, List.dropLast_concat, hlast]
  by_cases hsame : node = other <;> simp [hsame]

theorem roundTrips_append (route targets : List α) (target : α) :
    roundTrips route (targets ++ [target]) =
      roundTrips route targets ++ if target ∈ route then [roundTrip route target] else [] := by
  rw [roundTrips, roundTrips, List.filter_append, List.map_append]
  by_cases h : target ∈ route <;> simp [h]

/-! ## The state of a walk -/

/-- A node on the way of a walk, with the ends of its edges that have been followed and those that
have not. -/
structure Stop (α : Type) where
  node : α
  done : List α
  left : List α

/-- The state of a walk: the nodes that it has come to and those that it is done with, each last
first; the round trips that it has found; and the way to where it is, last stop first. -/
structure GraphWalk (α : Type) where
  seen : List α
  finished : List α
  found : List (List α)
  way : List (Stop α)

namespace GraphWalk

/-- A walk that has not begun. -/
def initial : GraphWalk α := ⟨[], [], [], []⟩

/-- The nodes on the way, last first. -/
def path (walk : GraphWalk α) : List α := walk.way.map Stop.node

/-- What a walk does next. -/
inductive Step (edges : α → Option (List α)) : GraphWalk α → GraphWalk α → Prop where
  | starts {seen finished found node targets} (known : edges node = some targets)
      (fresh : node ∉ seen) :
      Step edges ⟨seen, finished, found, []⟩ ⟨node :: seen, finished, found, [⟨node, [], targets⟩]⟩
  | leaves {seen finished found node done way} :
      Step edges ⟨seen, finished, found, ⟨node, done, []⟩ :: way⟩
        ⟨seen, node :: finished, found, way⟩
  | closes {seen finished found node done target left way}
      (back : target ∈ node :: way.map Stop.node) :
      Step edges ⟨seen, finished, found, ⟨node, done, target :: left⟩ :: way⟩
        ⟨seen, finished, found ++ [roundTrip (node :: way.map Stop.node) target],
          ⟨node, done ++ [target], left⟩ :: way⟩
  | passes {seen finished found node done target left way}
      (ahead : target ∉ node :: way.map Stop.node) (known : edges target ≠ none → target ∈ seen) :
      Step edges ⟨seen, finished, found, ⟨node, done, target :: left⟩ :: way⟩
        ⟨seen, finished, found, ⟨node, done ++ [target], left⟩ :: way⟩
  | enters {seen finished found node done target left way targets}
      (known : edges target = some targets) (fresh : target ∉ seen) :
      Step edges ⟨seen, finished, found, ⟨node, done, target :: left⟩ :: way⟩
        ⟨target :: seen, finished, found,
          ⟨target, [], targets⟩ :: ⟨node, done ++ [target], left⟩ :: way⟩

end GraphWalk

/-! ## What holds at every stop -/

/-- What holds at a stop, given the way to it: the way goes along edges, and through nodes in the
order in which the walk came to them; what has been followed has been come to; and the round trips
that edges of the node have closed are those of the edges followed so far that go back. -/
structure Stop.Sound (edges : α → Option (List α)) (seen : List α) (found : List (List α))
    (stop : Stop α) (before : List α) : Prop where
  known : edges stop.node = some (stop.done ++ stop.left)
  leads : (stop.node :: before).IsChain fun later earlier => Edge edges earlier later
  came : (stop.node :: before).Sublist seen
  looked : ∀ target ∈ stop.done, edges target ≠ none → target ∈ seen
  tallied : found.filter (closedBy stop.node) = roundTrips (stop.node :: before) stop.done

namespace Stop.Sound

variable {edges : α → Option (List α)} {seen more done left : List α} {found later : List (List α)}
  {stop : Stop α}

theorem mono (h : stop.Sound edges seen found before) (hseen : seen.Sublist more)
    (hfound : later.filter (closedBy stop.node) = found.filter (closedBy stop.node)) :
    stop.Sound edges more later before where
  known := h.known
  leads := h.leads
  came := h.came.trans hseen
  looked := fun target htarget hknown => hseen.subset (h.looked target htarget hknown)
  tallied := hfound.trans h.tallied

/-- Following one more edge keeps the stop sound if a round trip is written down just when the edge
goes back. -/
theorem follow (h : Stop.Sound edges seen found ⟨node, done, target :: left⟩ before)
    (hseen : seen.Sublist more) (hlooked : edges target ≠ none → target ∈ more)
    (hfound : later.filter (closedBy node) = found.filter (closedBy node) ++
      if target ∈ node :: before then [roundTrip (node :: before) target] else []) :
    Stop.Sound edges more later ⟨node, done ++ [target], left⟩ before where
  known := by rw [h.known, List.append_assoc, List.singleton_append]
  leads := h.leads
  came := h.came.trans hseen
  looked := by
    intro other hother hknown
    rcases List.mem_append.mp hother with hdone | hlast
    · exact hseen.subset (h.looked other hdone hknown)
    · obtain rfl := List.mem_singleton.mp hlast
      exact hlooked hknown
  tallied := by rw [hfound, h.tallied, roundTrips_append]

end Stop.Sound

/-- What holds at all stops of a way, last stop first. -/
def WaySound (edges : α → Option (List α)) (seen : List α) (found : List (List α)) :
    List (Stop α) → Prop
  | [] => True
  | stop :: way => stop.Sound edges seen found (way.map Stop.node) ∧ WaySound edges seen found way

section Changes

variable {edges : α → Option (List α)} {seen more finished : List α} {found later : List (List α)}
  {way : List (Stop α)}

theorem WaySound.mono (h : WaySound edges seen found way) (hseen : seen.Sublist more)
    (hfound : ∀ node ∈ way.map Stop.node,
      later.filter (closedBy node) = found.filter (closedBy node)) :
    WaySound edges more later way := by
  induction way with
  | nil => trivial
  | cons stop way ih =>
    obtain ⟨hstop, hway⟩ := h
    exact ⟨hstop.mono hseen (hfound _ List.mem_cons_self),
      ih hway fun node hnode => hfound node (List.mem_cons_of_mem _ hnode)⟩

end Changes

/-! ## What holds of a walk -/

namespace GraphWalk

/-- What holds of a walk at all times: it has come to what is on the way and what it is done with,
to each once; the stops on the way are sound, and so was the last stop at every node that it is done
with; and all round trips have been closed by edges of nodes that it has come to. -/
structure Sound (edges : α → Option (List α)) (walk : GraphWalk α) : Prop where
  once : walk.seen.Nodup
  parts : walk.seen.Perm (walk.path ++ walk.finished)
  way : WaySound edges walk.seen walk.found walk.way
  finished : ∀ node ∈ walk.finished, ∃ targets before,
    Stop.Sound edges walk.seen walk.found ⟨node, targets, []⟩ before
  closers : ∀ trip ∈ walk.found, ∃ node ∈ walk.seen, closedBy node trip = true
  descends : Descends edges walk.found walk.finished

variable {edges : α → Option (List α)} {walk next : GraphWalk α}
  {seen finished done left : List α} {found : List (List α)} {way : List (Stop α)}

theorem sound_initial (edges : α → Option (List α)) : (initial : GraphWalk α).Sound edges where
  once := List.nodup_nil
  parts := List.Perm.refl _
  way := trivial
  finished := by simp [initial]
  closers := by simp [initial]
  descends := trivial

/-- A round trip that an edge of a node closes does not count for other nodes. -/
theorem filter_closedBy_append {other : α} (hback : target ∈ node :: before) (hne : node ≠ other) :
    (found ++ [roundTrip (node :: before) target]).filter (closedBy other) =
      found.filter (closedBy other) := by
  rw [List.filter_append, List.filter_cons, closedBy_roundTrip hback]
  simp [hne]

theorem Sound.nodup_path (h : walk.Sound edges) : (walk.path ++ walk.finished).Nodup :=
  h.parts.nodup_iff.mp h.once

/-- A new stop begins with nothing done, at a node that closes no round trip yet. -/
theorem Sound.stop (h : Sound edges ⟨seen, finished, found, way⟩)
    (known : edges node = some targets)
    (fresh : node ∉ seen) (came : (way.map Stop.node).Sublist seen)
    (leads : (node :: way.map Stop.node).IsChain fun later earlier => Edge edges earlier later) :
    Stop.Sound edges (node :: seen) found ⟨node, [], targets⟩ (way.map Stop.node) where
  known := known
  leads := leads
  came := came.cons_cons node
  looked := by simp
  tallied := by
    rw [roundTrips, List.filter_nil, List.map_nil, List.filter_eq_nil_iff]
    intro trip htrip hclosed
    obtain ⟨other, hother, hcloses⟩ := h.closers trip htrip
    simp only [closedBy, beq_iff_eq] at hcloses hclosed
    rw [hclosed, Option.some.injEq] at hcloses
    exact fresh (hcloses ▸ hother)

theorem Sound.starts (h : Sound edges ⟨seen, finished, found, []⟩)
    (known : edges node = some targets) (fresh : node ∉ seen) :
    Sound edges ⟨node :: seen, finished, found, [⟨node, [], targets⟩]⟩ where
  once := List.nodup_cons.mpr ⟨fresh, h.once⟩
  parts := h.parts.cons node
  way := ⟨h.stop known fresh (List.nil_sublist _) (List.isChain_singleton _), trivial⟩
  finished := by
    intro other hother
    obtain ⟨targets, before, hstop⟩ := h.finished other hother
    exact ⟨targets, before, hstop.mono (List.sublist_cons_self _ _) rfl⟩
  closers := by
    intro trip htrip
    obtain ⟨other, hother, hcloses⟩ := h.closers trip htrip
    exact ⟨other, List.mem_cons_of_mem _ hother, hcloses⟩
  descends := h.descends

theorem Sound.leaves (h : Sound edges ⟨seen, finished, found, ⟨node, done, []⟩ :: way⟩) :
    Sound edges ⟨seen, node :: finished, found, way⟩ where
  once := h.once
  parts := h.parts.trans List.perm_middle.symm
  way := h.way.2
  finished := by
    intro other hother
    rcases List.mem_cons.mp hother with rfl | hother
    · exact ⟨done, way.map Stop.node, h.way.1⟩
    · exact h.finished other hother
  closers := h.closers
  descends := by
    refine ⟨?_, h.descends⟩
    rintro target ⟨targets, hknown, htarget⟩ hgraph
    have hall := h.way.1.known
    rw [List.append_nil] at hall
    obtain rfl : targets = done := Option.some.inj (hknown.symm.trans hall)
    have hseen := h.way.1.looked target htarget hgraph
    rcases List.mem_append.mp (h.parts.mem_iff.mp hseen) with hback | hfinished
    · -- the edge went back on the way, so its round trip has been written down
      left
      have htrip : roundTrip (node :: way.map Stop.node) target ∈
          found.filter (closedBy node) := by
        rw [h.way.1.tallied]
        exact List.mem_map_of_mem (List.mem_filter.mpr ⟨htarget, decide_eq_true hback⟩)
      obtain ⟨after, htripeq, -, hlast⟩ := roundTrip_eq hback
      refine ⟨_, (List.mem_filter.mp htrip).1, ?_⟩
      obtain ⟨front, hfront⟩ := List.getLast?_eq_some_iff.mp hlast
      rw [htripeq, hfront]
      exact ⟨front, by simp⟩
    · exact .inr hfinished

theorem Sound.closes (h : Sound edges ⟨seen, finished, found, ⟨node, done, target :: left⟩ :: way⟩)
    (hback : target ∈ node :: way.map Stop.node) :
    Sound edges ⟨seen, finished, found ++ [roundTrip (node :: way.map Stop.node) target],
      ⟨node, done ++ [target], left⟩ :: way⟩ := by
  -- the node is on the way once, and the walk is not done with it
  have hnodup := List.nodup_cons.mp h.nodup_path
  have others (other : α) (hother : other ∈ way.map Stop.node ++ finished) :
      (found ++ [roundTrip (node :: way.map Stop.node) target]).filter (closedBy other) =
        found.filter (closedBy other) :=
    filter_closedBy_append hback fun hsame => hnodup.1 (hsame ▸ hother)
  have hseen (other : α) (hother : other ∈ node :: way.map Stop.node) : other ∈ seen :=
    h.way.1.came.subset hother
  constructor
  case once => exact h.once
  case parts => exact h.parts
  case way =>
    refine ⟨h.way.1.follow (List.Sublist.refl _) (fun _ => hseen target hback) ?_, ?_⟩
    · rw [List.filter_append, List.filter_cons, closedBy_roundTrip hback]
      simp [hback]
    · exact h.way.2.mono (List.Sublist.refl _) fun other hother =>
        others other (List.mem_append_left _ hother)
  case finished =>
    intro other hother
    obtain ⟨targets, before, hstop⟩ := h.finished other hother
    exact ⟨targets, before, hstop.mono (List.Sublist.refl _)
      (others other (List.mem_append_right _ hother))⟩
  case closers =>
    intro trip htrip
    rcases List.mem_append.mp htrip with hbefore | hnew
    · exact h.closers trip hbefore
    · rw [List.mem_singleton.mp hnew]
      exact ⟨node, hseen node List.mem_cons_self, by simp [closedBy_roundTrip hback]⟩
  case descends => exact h.descends.mono (List.subset_append_left _ _)

theorem Sound.passes (h : Sound edges ⟨seen, finished, found, ⟨node, done, target :: left⟩ :: way⟩)
    (hahead : target ∉ node :: way.map Stop.node) (hknown : edges target ≠ none → target ∈ seen) :
    Sound edges ⟨seen, finished, found, ⟨node, done ++ [target], left⟩ :: way⟩ where
  once := h.once
  parts := h.parts
  way := ⟨h.way.1.follow (List.Sublist.refl _) hknown (by simp [hahead]), h.way.2⟩
  finished := h.finished
  closers := h.closers
  descends := h.descends

theorem Sound.enters (h : Sound edges ⟨seen, finished, found, ⟨node, done, target :: left⟩ :: way⟩)
    (known : edges target = some targets) (fresh : target ∉ seen) :
    Sound edges ⟨target :: seen, finished, found,
      ⟨target, [], targets⟩ :: ⟨node, done ++ [target], left⟩ :: way⟩ := by
  have hgrows : seen.Sublist (target :: seen) := List.sublist_cons_self _ _
  have hahead : target ∉ node :: way.map Stop.node := fun hback =>
    fresh (h.way.1.came.subset hback)
  have hedge : Edge edges node target :=
    ⟨done ++ target :: left, h.way.1.known, by simp⟩
  have hpassed : Stop.Sound edges (target :: seen) found ⟨node, done ++ [target], left⟩
      (way.map Stop.node) :=
    h.way.1.follow hgrows (fun _ => List.mem_cons_self) (by simp [hahead])
  constructor
  case once => exact List.nodup_cons.mpr ⟨fresh, h.once⟩
  case parts => exact h.parts.cons target
  case way =>
    refine ⟨h.stop known fresh h.way.1.came ?_, hpassed, h.way.2.mono hgrows fun _ _ => rfl⟩
    exact List.isChain_cons_cons.mpr ⟨hedge, h.way.1.leads⟩
  case finished =>
    intro other hother
    obtain ⟨targets, before, hstop⟩ := h.finished other hother
    exact ⟨targets, before, hstop.mono hgrows rfl⟩
  case closers =>
    intro trip htrip
    obtain ⟨other, hother, hcloses⟩ := h.closers trip htrip
    exact ⟨other, List.mem_cons_of_mem _ hother, hcloses⟩
  case descends => exact h.descends

/-- A walk stays sound, whatever it does next. -/
theorem Sound.step (h : walk.Sound edges) (step : Step edges walk next) : next.Sound edges := by
  cases step with
  | starts known fresh => exact h.starts known fresh
  | leaves => exact h.leaves
  | closes hback => exact h.closes hback
  | passes hahead known => exact h.passes hahead known
  | enters known fresh => exact h.enters known fresh

/-- Every walk is sound. -/
theorem sound_of_steps (h : Relation.ReflTransGen (Step edges) initial walk) :
    walk.Sound edges := by
  induction h with
  | refl => exact sound_initial edges
  | tail _ step ih => exact ih.step step

theorem Step.seen_subset (h : Step edges walk next) : walk.seen ⊆ next.seen := by
  cases h with
  | starts => exact List.subset_cons_self _ _
  | leaves => exact List.Subset.refl _
  | closes => exact List.Subset.refl _
  | passes => exact List.Subset.refl _
  | enters => exact List.subset_cons_self _ _

theorem seen_subset_of_steps (h : Relation.ReflTransGen (Step edges) walk next) :
    walk.seen ⊆ next.seen := by
  induction h with
  | refl => exact List.Subset.refl _
  | tail _ step ih => exact List.Subset.trans ih step.seen_subset

end GraphWalk

end ProtoFront
