import ProtoFront.Proofs.Parse.Packages
import ProtoFront.Proofs.Symbol.Names
import ProtoFront.Proofs.Tree.Walks

/-!
# The scopes of a walk

A walk through a file keeps a stack of scopes and a package, and changes them as it goes. In the
tree of a parse they can be read off the tree at every node instead (`ParseTree.scopeAt`): the
scopes are the declarations around the node, and the package is the one of the last package
statement in front of it.
-/

namespace ProtoFront

namespace ParseTree

section
variable (tree : ParseTree) (buffer : TokenBuffer)

/-- The text of the name of a declaration, if it has one. -/
def nameText? (id : Nat) : Option String :=
  (tree.findChild? id .name).map (tree.subtreeText buffer)

/-- The package that a node is in: that of the last package statement that has a name and begins in
front of the node. Roots are listed last first. -/
def packageBefore? (id : Nat) : Option String :=
  tree.roots.findSome? fun root =>
    if tree.kind? root = some (.declaration .package) ∧ tree.firstOf root ≤ id ∧ root ≠ id then
      tree.nameText? buffer root
    else none

/-- The package that a root sets for a node: a package statement does if it has a name and begins in
front of the node. -/
def packageFrom? (id root : Nat) : Option String :=
  if tree.kind? root = some (.declaration .package) ∧ tree.firstOf root ≤ id ∧ root ≠ id then
    tree.nameText? buffer root
  else none

/-- The frame of a declaration that opens a scope. -/
def frameAt (id : Nat) : ScopeFrame :=
  ⟨tree.declaredName? buffer id, (tree.kind? id).any ScopeStack.isTransparent⟩

/-- The scope that a node is in. -/
def scopeAt (id : Nat) : ScopeStack :=
  ⟨(tree.packageBefore? buffer id).getD "", (tree.enclosingScopes id).map (tree.frameAt buffer)⟩

/-- The package that an event sets. -/
def packageSet? : TreeEvent → Option String
  | .declaration id .package => (tree.packageAt? buffer id).map Prod.fst
  | _ => none

end

variable {tree : ParseTree} {buffer : TokenBuffer} {forest : Forest} {id : Nat}
variable {events before after : List TreeEvent} {event : TreeEvent} {scopes : ScopeStack}

theorem kind_of_findChild? {name : Nat} {kind : NodeKind}
    (h : tree.findChild? id kind = some name) :
    name ∈ tree.children id ∧ tree.kind? name = some kind := by
  obtain ⟨hchild, hkind⟩ := List.mem_filter.mp (List.mem_of_getLast? h)
  exact ⟨hchild, beq_iff_eq.mp hkind⟩

/-! ## The package -/

theorem package_moveScope (scopes : ScopeStack) (event : TreeEvent) :
    (tree.moveScope buffer scopes event).package =
      (tree.packageSet? buffer event).getD scopes.package := by
  rcases event with ⟨id, kind⟩ | ⟨id, kind⟩ | id
  · cases kind with
    | package =>
      rw [moveScope, packageSet?]
      rcases tree.packageAt? buffer id with _ | ⟨package, token⟩ <;> rfl
    | _ => rfl
  · rfl
  · rfl

/-- The last package that is set stays. -/
theorem package_moveScopes (scopes : ScopeStack) (events : List TreeEvent) :
    (events.foldl (tree.moveScope buffer) scopes).package =
      (events.filterMap (tree.packageSet? buffer)).getLast?.getD scopes.package := by
  induction events using List.reverseRecOn with
  | nil => rfl
  | append_singleton events event ih =>
    rw [List.foldl_append, List.foldl_cons, List.foldl_nil, package_moveScope, ih,
      List.filterMap_append, List.filterMap_cons]
    rcases tree.packageSet? buffer event with _ | package
    · simp
    · simp

/-- A package statement sets the package if it has a name. -/
theorem packageSet?_eq (tidy : tree.Tidy) (id : Nat) :
    (tree.event? id).bind (tree.packageSet? buffer) =
      if tree.kind? id = some (.declaration .package) then tree.nameText? buffer id else none := by
  split
  case isTrue hkind =>
    rw [event?, hkind, Option.bind_some, packageSet?, packageAt?, nameText?]
    rcases hname : tree.findChild? id .name with _ | name
    · rfl
    · obtain ⟨token, htoken⟩ := tidy.named (kind_of_findChild? hname).2
      rw [Option.bind_eq_bind, Option.bind_some, htoken]
      rfl
  case isFalse hkind =>
    rw [event?]
    split
    case h_1 kind hdeclaration =>
      cases kind with
      | package => exact absurd hdeclaration hkind
      | _ => rfl
    all_goals rfl

/-- A package statement that a walk comes to before a node sets the package for the node. -/
theorem Shows.packageFrom?_of_precedes (shows : tree.Shows 0 forest)
    (hsize : tree.size = forest.size) (tidy : tree.Tidy) {earlier : Nat} (hid : id < tree.size)
    (hearlier : earlier < tree.size) (h : tree.Precedes earlier id) :
    tree.packageFrom? buffer id earlier = (tree.event? earlier).bind (tree.packageSet? buffer) := by
  have below := (shows.le_firstOf (Nat.zero_le id) (by omega)).2
  have span := (shows.le_firstOf (Nat.zero_le earlier) (by omega)).2
  have inFront : tree.firstOf earlier ≤ id ∧ earlier ≠ id := by
    rcases h with ⟨-, hfirst, habove⟩ | hbefore
    · exact ⟨hfirst, habove.ne'⟩
    · exact ⟨by omega, by omega⟩
  rw [packageSet?_eq tidy]
  exact if_congr (and_iff_left inFront) rfl rfl

/-- A package statement that a walk comes to after a node sets no package for the node. -/
theorem Shows.packageFrom?_of_follows (shows : tree.Shows 0 forest)
    (hsize : tree.size = forest.size) (tidy : tree.Tidy) {later : Nat}
    (h : tree.Precedes id later) : tree.packageFrom? buffer id later = none := by
  refine if_neg fun ⟨hkind, hfirst, _⟩ => ?_
  rcases h with hencloses | hbefore
  · have hroot := tidy.roots hkind
    rw [shows.roots_eq hsize, List.mem_reverse] at hroot
    exact shows.not_encloses_root hsize hroot hencloses
  · omega

/-- The package that a node is in can be looked for in a walk through all nodes. -/
theorem Shows.packageBefore?_eq (shows : tree.Shows 0 forest) (hsize : tree.size = forest.size)
    (tidy : tree.Tidy) : tree.packageBefore? buffer id =
      (tree.walkOrder.filterMap (tree.packageFrom? buffer id)).getLast? := by
  change tree.roots.findSome? (tree.packageFrom? buffer id) = _
  rw [shows.roots_eq hsize, ← List.getLast?_filterMap, shows.walkOrder_eq hsize,
    Forest.filterMap_walk _ fun root _ hsome => ?_]
  have hroot := tidy.roots (ite_ne_right_iff.mp hsome).1.1
  rwa [shows.roots_eq hsize, List.mem_reverse] at hroot

/-- The package behind everything in front of a node is that of the last statement in front. -/
theorem package_eq (tidy : tree.Tidy) (shows : tree.Shows 0 forest)
    (hsize : tree.size = forest.size) (h : tree.events = before ++ event :: after) :
    (before.foldl (tree.moveScope buffer) .empty).package =
      (tree.packageBefore? buffer event.id).getD "" := by
  obtain ⟨front, behind, horder, rfl, -⟩ := exists_walkOrder_of_events h
  have ordered := shows.pairwise_walkOrder hsize
  rw [horder, List.pairwise_append, List.pairwise_cons] at ordered
  obtain ⟨-, ⟨later, -⟩, earlier⟩ := ordered
  have within {id : Nat} (hid : id ∈ tree.walkOrder) : id < tree.size :=
    List.mem_range.mp ((shows.perm_walkOrder hsize).mem_iff.mp hid)
  have hfront : front.filterMap (tree.packageFrom? buffer event.id) =
      front.filterMap fun id => (tree.event? id).bind (tree.packageSet? buffer) := by
    refine List.filterMap_congr fun id hid => ?_
    exact shows.packageFrom?_of_precedes hsize tidy (within (by simp [horder]))
      (within (by simp [horder, hid])) (earlier id hid event.id List.mem_cons_self)
  have hbehind : behind.filterMap (tree.packageFrom? buffer event.id) = [] :=
    List.filterMap_eq_nil_iff.mpr fun id hid =>
      shows.packageFrom?_of_follows hsize tidy (later id hid)
  have hhere : tree.packageFrom? buffer event.id event.id = none :=
    if_neg fun ⟨_, _, hother⟩ => hother rfl
  rw [package_moveScopes, shows.packageBefore?_eq hsize tidy, horder, List.filterMap_append,
    List.filterMap_cons, hhere, hbehind, List.append_nil, hfront, List.filterMap_filterMap]
  rfl

/-! ## The scopes that have been entered -/

/-- What happened at a node is an event of the tree. -/
theorem kind_of_event? {kind : DeclarationKind} (h : tree.event? id = some (.declaration id kind)) :
    tree.kind? id = some (.declaration kind) := by
  rw [event?] at h
  split at h
  case h_1 other hkind =>
    cases h
    exact hkind
  all_goals cases h

/-- A frame is put on the stack and taken off it when a visitor does so with its node. -/
theorem frames_moveScope {stack next : List Nat} (happened : tree.event? event.id = some event)
    (visited : event.visit stack = some next)
    (frames : scopes.frames = stack.map (tree.frameAt buffer)) :
    (tree.moveScope buffer scopes event).frames = next.map (tree.frameAt buffer) := by
  rcases event with ⟨id, kind⟩ | ⟨id, kind⟩ | id
  · cases kind with
    | package =>
      obtain rfl := Option.some.inj visited
      rw [moveScope]
      split
      · exact frames
      · exact frames
    | scope scope =>
      obtain rfl := Option.some.inj visited
      have hkind : tree.kind? id = some (.scope scope) := kind_of_event? happened
      rw [moveScope, ScopeStack.enter, List.map_cons, frameAt, hkind, frames]
      rfl
    | _ =>
      obtain rfl := Option.some.inj visited
      exact frames
  · obtain rfl := Option.some.inj visited
    exact frames
  · obtain ⟨top, rfl⟩ : ∃ top, stack = top :: next := by
      cases stack with
      | nil => cases visited
      | cons top rest => exact ⟨top, congrArg _ (Option.some.inj visited)⟩
    rw [moveScope, ScopeStack.exit, frames]
    rfl

/-- The frames are those of the declarations that a visitor has on its stack. -/
theorem frames_moveScopes {stack last : List Nat}
    (happened : ∀ event ∈ events, tree.event? event.id = some event)
    (visited : visitAll stack events = some last)
    (frames : scopes.frames = stack.map (tree.frameAt buffer)) :
    (events.foldl (tree.moveScope buffer) scopes).frames = last.map (tree.frameAt buffer) := by
  induction events generalizing stack scopes with
  | nil =>
    obtain rfl := Option.some.inj visited
    exact frames
  | cons event rest ih =>
    obtain ⟨hevent, hrest⟩ := List.forall_mem_cons.mp happened
    rw [visitAll, List.foldlM_cons] at visited
    obtain ⟨next, hnext, hlast⟩ := Option.bind_eq_some_iff.mp visited
    exact ih hrest hlast (frames_moveScope hevent hnext frames)

/-- The scopes of a walk are those that the tree shows around the node where the walk is. -/
theorem scopes_eq (tidy : tree.Tidy) (shows : tree.Shows 0 forest)
    (hsize : tree.size = forest.size) (follows : tree.Follows [] tree.events [])
    (h : tree.events = before ++ event :: after) :
    before.foldl (tree.moveScope buffer) .empty = tree.scopeAt buffer event.id := by
  have hpackage : (before.foldl (tree.moveScope buffer) .empty).package =
      (tree.packageBefore? buffer event.id).getD "" := package_eq tidy shows hsize h
  have hframes : (before.foldl (tree.moveScope buffer) .empty).frames =
      (tree.enclosingScopes event.id).map (tree.frameAt buffer) := by
    have hfollows : tree.Follows [] (before ++ event :: after) [] := h ▸ follows
    refine frames_moveScopes (fun earlier hearlier => ?_) hfollows.split.1 rfl
    obtain ⟨front, behind, horder, rfl, -⟩ := exists_walkOrder_of_events h
    obtain ⟨id, -, hevent⟩ := List.mem_filterMap.mp hearlier
    rwa [event?_id hevent]
  rw [scopeAt, ← hpackage, ← hframes]

end ParseTree

end ProtoFront
