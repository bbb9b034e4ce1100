import Mathlib.Data.List.Perm.Basic
import ProtoFront.Proofs.Tree.Scopes

/-!
# The order of a walk

A walk through a tree comes to every node once (`perm_walk`), to a node before everything below it,
and to all of a subtree before anything that is behind it (`pairwise_walk`). What is asked of
the roots alone is found at the same places of the walk (`filterMap_walk`).
-/

namespace ProtoFront

namespace Forest

/-- The numbers of a forest are those below its first root, the root, and those beside it. -/
theorem range'_cons (label : Label) (children rest : Forest) (start : Nat) :
    List.range' start (cons label children rest).size = List.range' start children.size ++
      (start + children.size) :: List.range' (start + children.size + 1) rest.size := by
  rw [size, ← List.range'_append_1, ← List.range'_append_1, List.append_assoc]
  rfl

/-- A walk comes to every node once. -/
theorem perm_walk (forest : Forest) (start depth : Nat) :
    ((forest.walk start depth).map Prod.fst).Perm (List.range' start forest.size) := by
  induction forest generalizing start depth with
  | nil => exact .refl _
  | cons label children rest ihc ihr =>
    rw [walk, List.map_cons, List.map_append, range'_cons]
    refine List.Perm.trans (List.Perm.cons _ ?_) List.perm_middle.symm
    exact (ihc start (depth + 1)).append (ihr (start + children.size + 1) depth)

theorem mem_walk {forest : Forest} {start depth id : Nat} :
    id ∈ (forest.walk start depth).map Prod.fst ↔ start ≤ id ∧ id < start + forest.size := by
  rw [(perm_walk forest start depth).mem_iff, List.mem_range'_1]

/-- What only roots have is found in a walk in the order of the roots. -/
theorem filterMap_walk {α : Type} {forest : Forest} {start depth : Nat} (f : Nat → Option α)
    (only : ∀ id ∈ (forest.walk start depth).map Prod.fst, f id ≠ none →
      id ∈ forest.rootIds start) :
    ((forest.walk start depth).map Prod.fst).filterMap f = (forest.rootIds start).filterMap f := by
  induction forest generalizing start with
  | nil => rfl
  | cons label children rest _ ih =>
    rw [walk, List.map_cons, List.map_append] at only ⊢
    have hbelow : ((children.walk start (depth + 1)).map Prod.fst).filterMap f = [] := by
      rw [List.filterMap_eq_nil_iff]
      intro id hid
      by_contra hsome
      have hroot := only id (List.mem_cons_of_mem _ (List.mem_append_left _ hid)) hsome
      have hinner := mem_walk.mp hid
      rw [rootIds] at hroot
      rcases List.mem_cons.mp hroot with rfl | hlater
      · omega
      · have := le_of_mem_rootIds hlater
        omega
    have hbeside : ((rest.walk (start + children.size + 1) depth).map Prod.fst).filterMap f =
        (rest.rootIds (start + children.size + 1)).filterMap f := by
      refine ih fun id hid hsome => ?_
      have hroot := only id (List.mem_cons_of_mem _ (List.mem_append_right _ hid)) hsome
      have hbehind := mem_walk.mp hid
      rw [rootIds] at hroot
      rcases List.mem_cons.mp hroot with rfl | hlater
      · omega
      · exact hlater
    rw [rootIds, List.filterMap_cons, List.filterMap_cons, List.filterMap_append, hbelow,
      List.nil_append, hbeside]

end Forest

namespace ParseTree

variable {tree : ParseTree} {forest : Forest} {start depth id : Nat}

/-- The nodes in the order of a walk. -/
def walkOrder (tree : ParseTree) : List Nat := tree.preorder.map Prod.fst

/-- Whether a walk comes to one node before another: it is above it, or all of it is in front. -/
def Precedes (tree : ParseTree) (earlier later : Nat) : Prop :=
  tree.Encloses earlier later ∨ earlier < tree.firstOf later

theorem Shows.pairwise_walk (h : tree.Shows start forest) (within : start + forest.size ≤ tree.size)
    (depth : Nat) : ((forest.walk start depth).map Prod.fst).Pairwise tree.Precedes := by
  induction forest generalizing start depth with
  | nil => exact .nil
  | cons label children rest ihc ihr =>
    obtain ⟨hchildren, hnode, hrest⟩ := h
    rw [Forest.size] at within
    have hfirst := firstOf_of_node hnode
    have behind {id : Nat} (hid : id ∈ (rest.walk (start + children.size + 1) depth).map Prod.fst) :
        start + children.size < tree.firstOf id := by
      obtain ⟨hlower, hupper⟩ := Forest.mem_walk.mp hid
      have := (hrest.le_firstOf hlower hupper).1
      omega
    rw [Forest.walk, List.map_cons, List.map_append]
    refine .cons (fun id hid => ?_) (List.pairwise_append.mpr
      ⟨ihc hchildren (by omega) _, ihr hrest (by omega) _, fun id hid other hother => ?_⟩)
    · rcases List.mem_append.mp hid with hbelow | hbeside
      · have := Forest.mem_walk.mp hbelow
        have hspan : tree.firstOf (start + children.size) ≤ id := by omega
        exact .inl ⟨by omega, hspan, by omega⟩
      · exact .inr (behind hbeside)
    · have hbelow := Forest.mem_walk.mp hid
      have hbehind := behind hother
      exact .inr (by omega)

/-! ## Whole trees -/

theorem Shows.walkOrder_eq (h : tree.Shows 0 forest) (hsize : tree.size = forest.size) :
    tree.walkOrder = (forest.walk 0 0).map Prod.fst := by
  rw [walkOrder, h.preorder_eq hsize]

/-- A walk through a tree comes to every node once. -/
theorem Shows.perm_walkOrder (h : tree.Shows 0 forest) (hsize : tree.size = forest.size) :
    tree.walkOrder.Perm (List.range tree.size) := by
  rw [h.walkOrder_eq hsize, hsize, List.range_eq_range']
  exact forest.perm_walk 0 0

theorem Shows.pairwise_walkOrder (h : tree.Shows 0 forest) (hsize : tree.size = forest.size) :
    tree.walkOrder.Pairwise tree.Precedes := by
  rw [h.walkOrder_eq hsize]
  exact h.pairwise_walk (by omega) 0

theorem events_eq (tree : ParseTree) : tree.events = tree.walkOrder.filterMap tree.event? := by
  rw [events, walkOrder, List.filterMap_map]
  rfl

/-- The node of an event. -/
theorem event?_id {event : TreeEvent} (h : tree.event? id = some event) :
    event.id = id := by
  rw [event?] at h
  split at h <;> cases h <;> rfl

/-- What has happened before an event is what comes of the nodes in front of its node. -/
theorem exists_walkOrder_of_events {before after : List TreeEvent} {event : TreeEvent}
    (h : tree.events = before ++ event :: after) : ∃ front behind,
      tree.walkOrder = front ++ event.id :: behind ∧ before = front.filterMap tree.event? ∧
        tree.event? event.id = some event := by
  rw [events_eq, List.filterMap_eq_append_iff] at h
  obtain ⟨front, rest, horder, hbefore, hrest⟩ := h
  obtain ⟨silent, id, behind, rfl, hsilent, hevent, -⟩ := List.filterMap_eq_cons_iff.mp hrest
  obtain rfl := event?_id hevent
  refine ⟨front ++ silent, behind, ?_, ?_, hevent⟩
  · rw [horder, List.append_assoc]
  · rw [List.filterMap_append, List.filterMap_eq_nil_iff.mpr hsilent, List.append_nil, hbefore]

end ParseTree

end ProtoFront
