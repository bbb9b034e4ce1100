import ProtoFront.Tree.Basic

/-!
# Walks through any array

A preorder walk may be taken through any array of nodes, also one whose sizes fit no tree. It keeps
a list of visits still to be paid, and what it has visited is closed under children in the end
(`ParseTree.preorderFrom_closed`). A walk over siblings jumps over a stretch of nodes only if the
sibling behind them claims them, so whatever a node that is visited claims is visited as well
(`ParseTree.mem_preorder_iff`). As for the end of it, each node weighs more than its children do
together, so a walk pays no more visits than its roots weigh (`ParseTree.length_preorder_lt`).
-/

namespace ProtoFront

namespace ParseTree

variable {tree : ParseTree} {lower cursor id : Nat} {visit : Nat × Nat}
variable {visited : Array (Nat × Nat)} {pending : List (Nat × Nat)}

/-! ## Visits -/

/-- What has been visited stays visited, and what is to be visited will be. -/
theorem mem_preorderFrom (h : visit ∈ visited ∨ visit ∈ pending) :
    visit ∈ tree.preorderFrom visited pending := by
  fun_induction preorderFrom tree visited pending with
  | case1 visited => exact h.resolve_right List.not_mem_nil
  | case2 visited id depth rest below ih =>
    apply ih
    rcases h with hvisited | hpending
    · exact .inl (Array.mem_push_of_mem _ hvisited)
    · rcases List.mem_cons.mp hpending with rfl | hrest
      · exact .inl Array.mem_push_self
      · exact .inr (List.mem_append_right _ hrest)

/-- A walk comes to the children of every node that it visits, one level further down. -/
theorem preorderFrom_closed (h : visit ∈ tree.preorderFrom visited pending) :
    visit ∈ visited ∨ ∀ child ∈ tree.children visit.1,
      (child, visit.2 + 1) ∈ tree.preorderFrom visited pending := by
  fun_induction preorderFrom tree visited pending with
  | case1 visited => exact .inl h
  | case2 visited id depth rest below ih =>
    rcases ih h with hvisited | hclosed
    · rcases Array.mem_push.mp hvisited with hearlier | rfl
      · exact .inl hearlier
      · refine .inr fun child hchild => mem_preorderFrom (.inr (List.mem_append_left _ ?_))
        exact List.mem_map.mpr ⟨child, List.mem_reverse.mpr hchild, rfl⟩
    · exact .inr hclosed

/-- A walk does not go behind the nodes from which it starts. -/
theorem le_of_mem_preorderFrom (h : visit ∈ tree.preorderFrom visited pending) :
    visit ∈ visited ∨ ∃ start ∈ pending, visit.1 ≤ start.1 := by
  fun_induction preorderFrom tree visited pending with
  | case1 visited => exact .inl h
  | case2 visited id depth rest below ih =>
    rcases ih h with hvisited | ⟨start, hstart, hle⟩
    · rcases Array.mem_push.mp hvisited with hearlier | rfl
      · exact .inl hearlier
      · exact .inr ⟨_, List.mem_cons_self, Nat.le_refl _⟩
    · rcases List.mem_append.mp hstart with hbelow | hrest
      · obtain ⟨child, hchild, rfl⟩ := List.mem_map.mp hbelow
        have hlt := tree.siblings_lt (List.mem_reverse.mp hchild)
        exact .inr ⟨_, List.mem_cons_self, Nat.le_trans hle (Nat.le_of_lt hlt)⟩
      · exact .inr ⟨start, List.mem_cons_of_mem _ hrest, hle⟩

/-- A walk pays at most as many visits as the nodes from which it starts weigh. -/
theorem size_preorderFrom_le (visited : Array (Nat × Nat)) (pending : List (Nat × Nat)) :
    (tree.preorderFrom visited pending).size ≤ visited.size + weight pending := by
  fun_induction preorderFrom tree visited pending with
  | case1 visited => exact Nat.le_add_right _ _
  | case2 visited id depth rest below ih =>
    have smaller : total nodeWeight (tree.children id) < nodeWeight id := tree.total_siblings_lt _ _
    have hweight : weight (below ++ rest) = total nodeWeight (tree.children id) + weight rest := by
      simp only [below, weight, total_append, total_map, total_reverse]
    rw [Array.size_push, hweight] at ih
    have hcons : weight ((id, depth) :: rest) = nodeWeight id + weight rest := total_cons _ _ _
    omega

/-! ## Stretches of nodes -/

/-- Every node in the stretch over which a walk over siblings goes is one of them, or lies in what
one of them claims. -/
theorem exists_sibling (hlower : lower ≤ id) (hcursor : id < cursor) :
    ∃ sibling ∈ tree.siblings lower cursor,
      id = sibling ∨ tree.firstOf sibling ≤ id ∧ id < sibling := by
  induction cursor using Nat.strongRecOn with
  | _ cursor ih =>
    rw [siblings, if_pos (Nat.lt_of_le_of_lt hlower hcursor)]
    by_cases hjump : id < max lower (cursor - max 1 (tree.sizeAt (cursor - 1)))
    · obtain ⟨sibling, hsibling, hspan⟩ := ih _ (by omega) hjump
      exact ⟨sibling, List.mem_cons_of_mem _ hsibling, hspan⟩
    · refine ⟨cursor - 1, List.mem_cons_self, ?_⟩
      rw [firstOf]
      omega

/-- With a node a walk visits all that the node claims. -/
theorem mem_walk_of_firstOf {depth other : Nat}
    (closed : ∀ visit ∈ tree.preorder, ∀ child ∈ tree.children visit.1,
      (child, visit.2 + 1) ∈ tree.preorder)
    (h : (id, depth) ∈ tree.preorder) (hfirst : tree.firstOf id ≤ other) (hbelow : other < id) :
    ∃ depth, (other, depth) ∈ tree.preorder := by
  induction id using Nat.strongRecOn generalizing depth with
  | _ id ih =>
    obtain ⟨child, hchild, hspan⟩ := exists_sibling hfirst hbelow
    have hvisit := closed _ h child hchild
    rcases hspan with rfl | ⟨hstart, hlt⟩
    · exact ⟨_, hvisit⟩
    · exact ih child (tree.siblings_lt hchild) hvisit hstart hlt

/-- A walk through any array comes to all nodes of it, and to nothing else. -/
theorem mem_preorder_iff (tree : ParseTree) (id : Nat) :
    (∃ depth, (id, depth) ∈ tree.preorder) ↔ id < tree.size := by
  constructor
  · rintro ⟨depth, hvisit⟩
    rw [preorder, Array.mem_toList_iff] at hvisit
    rcases le_of_mem_preorderFrom hvisit with hnone | ⟨start, hstart, hle⟩
    · exact absurd hnone (Array.not_mem_empty _)
    · obtain ⟨root, hroot, rfl⟩ := List.mem_map.mp hstart
      have hlt := tree.siblings_lt (List.mem_reverse.mp hroot)
      exact Nat.lt_of_le_of_lt hle hlt
  · intro hid
    have closed : ∀ visit ∈ tree.preorder, ∀ child ∈ tree.children visit.1,
        (child, visit.2 + 1) ∈ tree.preorder := by
      intro visit hvisit
      rw [preorder, Array.mem_toList_iff] at hvisit
      simp only [preorder, Array.mem_toList_iff]
      exact (preorderFrom_closed hvisit).resolve_left (Array.not_mem_empty _)
    obtain ⟨root, hroot, hspan⟩ : ∃ root ∈ tree.roots,
        id = root ∨ tree.firstOf root ≤ id ∧ id < root := exists_sibling (Nat.zero_le id) hid
    have hvisit : (root, 0) ∈ tree.preorder := by
      rw [preorder, Array.mem_toList_iff]
      exact mem_preorderFrom (.inr (List.mem_map.mpr ⟨root, List.mem_reverse.mpr hroot, rfl⟩))
    rcases hspan with rfl | ⟨hfirst, hbelow⟩
    · exact ⟨0, hvisit⟩
    · exact mem_walk_of_firstOf closed hvisit hfirst hbelow

/-- A walk through any array comes to an end. -/
theorem length_preorder_lt (tree : ParseTree) : tree.preorder.length < nodeWeight tree.size := by
  have bound := tree.size_preorderFrom_le #[] (tree.roots.reverse.map fun id => (id, 0))
  have roots : weight (tree.roots.reverse.map fun id => (id, 0)) =
      total nodeWeight tree.roots := by
    simp only [weight, total_map, total_reverse]
  have light : total nodeWeight tree.roots < nodeWeight tree.size := tree.total_siblings_lt _ _
  rw [roots] at bound
  rw [preorder, Array.length_toList]
  exact Nat.lt_of_le_of_lt (by simpa using bound) light

end ParseTree

end ProtoFront
