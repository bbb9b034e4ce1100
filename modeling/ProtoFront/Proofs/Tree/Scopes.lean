import ProtoFront.Proofs.Tree.Forest
import ProtoFront.Tree.Walk

/-!
# Scopes and their ends

In a forest whose scopes pair up (`Forest.Paired`) every declaration that opens a scope has one
child that ends it, the last one, and no other node ends a scope. A visitor of the laid out tree
that puts a scope on a stack when it comes to the declaration, and takes one off when it comes to
the end of a scope, then always has the scopes around the node that it visits on its stack.
-/

namespace ProtoFront

theorem NodeKind.eq_scope_of_opensScope {kind : NodeKind} (h : kind.opensScope = true) :
    ∃ scope, some kind = some (.scope scope) := by
  cases kind with
  | declaration kind =>
    cases kind with
    | scope scope => exact ⟨scope, rfl⟩
    | _ => exact absurd h Bool.false_ne_true
  | _ => exact absurd h Bool.false_ne_true

/-- Whether a label is that of a declaration that opens a scope. -/
def Label.opensScope (label : Label) : Bool := label.kind?.any NodeKind.opensScope

/-- The scopes of a forest pair up. With `closed` the last root ends a scope, the one around the
forest; else no root ends one. -/
def Forest.Paired (closed : Bool) : Forest → Prop
  | nil => closed = false
  | cons label children rest =>
    if label.kind? = some .scopeClose then closed = true ∧ children = nil ∧ rest = nil
    else children.Paired label.opensScope ∧ rest.Paired closed

namespace Forest

variable {forest children : Forest} {label : Label} {closed : Bool} {start : Nat}

theorem Paired.append {other : Forest} (h : forest.Paired false) (h' : other.Paired closed) :
    (forest ++ other).Paired closed := by
  induction forest with
  | nil => exact h'
  | cons label children rest _ ih =>
    rw [Paired] at h
    rw [cons_append, Paired]
    split at h
    case isTrue => exact absurd h.1 Bool.false_ne_true
    case isFalse hkind =>
      rw [if_neg hkind]
      exact ⟨h.1, ih h.2⟩

/-- A tree whose root ends no scope. -/
theorem Paired.tree (h : children.Paired label.opensScope)
    (hkind : label.kind? ≠ some .scopeClose) :
    (Forest.tree label children).Paired false := by
  rw [Forest.tree, Paired, if_neg hkind]
  exact ⟨h, rfl⟩

theorem paired_scopeClose (token? : Option Nat) (failed : Bool) :
    (Forest.tree ⟨token?, failed, some .scopeClose⟩ nil).Paired true :=
  ⟨rfl, rfl, rfl⟩

theorem Paired.of_contains (h : forest.Paired closed) (hcontains : forest.Contains label children) :
    if label.kind? = some .scopeClose then children = nil
    else children.Paired label.opensScope := by
  induction forest generalizing closed with
  | nil => exact hcontains.elim
  | cons label' children' rest ihc ihr =>
    rw [Paired] at h
    split at h
    case isTrue hkind =>
      obtain ⟨-, rfl, rfl⟩ := h
      rcases hcontains with ⟨rfl, rfl⟩ | hnil | hnil
      · rw [if_pos hkind]
      · exact hnil.elim
      · exact hnil.elim
    case isFalse hkind =>
      rcases hcontains with ⟨rfl, rfl⟩ | hchildren | hrest
      · rw [if_neg hkind]
        exact h.1
      · exact ihc h.1 hchildren
      · exact ihr h.2 hrest

end Forest

/-! ## A visitor with a stack -/

/-- The number of the node that an event is about. -/
def TreeEvent.id : TreeEvent → Nat
  | declaration id _ | reference id _ | scopeClose id => id

/-- What a visitor does with its stack. It puts a scope on it and takes one off, and it cannot go on
if a scope ends while none is open. -/
def TreeEvent.visit (stack : List Nat) : TreeEvent → Option (List Nat)
  | declaration id (.scope _) => some (id :: stack)
  | scopeClose _ => stack.tail?
  | _ => some stack

/-- The stack after some events. -/
def visitAll (stack : List Nat) (events : List TreeEvent) : Option (List Nat) :=
  events.foldlM TreeEvent.visit stack

namespace ParseTree

/-- The scopes around a node, the innermost first: the declarations that open a scope and have the
node in their subtree, themselves left out. -/
def enclosingScopes (tree : ParseTree) (id : Nat) : List Nat :=
  (List.range tree.size).filter fun scope =>
    decide (tree.firstOf scope ≤ id ∧ id < scope) && (tree.kind? scope).any NodeKind.opensScope

variable {tree : ParseTree} {forest children : Forest} {label : Label} {id scope start : Nat}

theorem mem_enclosingScopes : scope ∈ tree.enclosingScopes id ↔
    tree.Encloses scope id ∧ (tree.kind? scope).any NodeKind.opensScope = true := by
  rw [enclosingScopes, List.mem_filter, List.mem_range, Bool.and_eq_true, decide_eq_true_iff,
    Encloses, and_assoc, and_assoc, and_assoc]

theorem pairwise_enclosingScopes (tree : ParseTree) (id : Nat) :
    (tree.enclosingScopes id).Pairwise (· < ·) :=
  List.pairwise_lt_range.filter _

/-- No scope is around a root. -/
theorem enclosingScopes_root (h : tree.Shows 0 forest) (hsize : tree.size = forest.size)
    (hroot : id ∈ forest.rootIds 0) : tree.enclosingScopes id = [] := by
  refine List.eq_nil_iff_forall_not_mem.mpr fun scope hscope => ?_
  exact h.not_encloses_root hsize hroot (mem_enclosingScopes.mp hscope).1

/-- Around a child there are the scopes that are around its parent, and the parent if it is one. -/
theorem enclosingScopes_child {parent : Nat} (h : tree.Shows 0 forest)
    (hsize : tree.size = forest.size) (hchild : id ∈ tree.children parent) :
    tree.enclosingScopes id =
      if (tree.kind? parent).any NodeKind.opensScope then parent :: tree.enclosingScopes parent
      else tree.enclosingScopes parent := by
  have hmem : ∀ scope, scope ∈ tree.enclosingScopes id ↔
      (scope = parent ∧ (tree.kind? parent).any NodeKind.opensScope = true) ∨
        scope ∈ tree.enclosingScopes parent := by
    intro scope
    rw [mem_enclosingScopes, mem_enclosingScopes, h.encloses_child hsize hchild]
    constructor
    · rintro ⟨rfl | hencloses, hopens⟩
      · exact .inl ⟨rfl, hopens⟩
      · exact .inr ⟨hencloses, hopens⟩
    · rintro (⟨rfl, hopens⟩ | ⟨hencloses, hopens⟩)
      · exact ⟨.inl rfl, hopens⟩
      · exact ⟨.inr hencloses, hopens⟩
  -- both lists are in ascending order, so they are equal if they have the same members
  split
  case isTrue hopens =>
    have hsorted : (parent :: tree.enclosingScopes parent).Pairwise (· < ·) :=
      List.pairwise_cons.mpr ⟨fun scope hscope => (mem_enclosingScopes.mp hscope).1.2.2,
        tree.pairwise_enclosingScopes parent⟩
    refine (tree.pairwise_enclosingScopes id).eq_of_mem_iff hsorted fun scope => ?_
    rw [hmem, List.mem_cons, and_iff_left hopens]
  case isFalse hopens =>
    refine (tree.pairwise_enclosingScopes id).eq_of_mem_iff
      (tree.pairwise_enclosingScopes parent) fun scope => ?_
    rw [hmem, or_iff_right fun h => hopens h.2]

/-! ## The visitor and the scopes -/

/-- `Follows tree stack events last`: from `stack` on, the stack holds at each event the scopes
around the node of the event, the scope that ends is on top of it when it ends, and it is `last` at
the end. -/
inductive Follows (tree : ParseTree) : List Nat → List TreeEvent → List Nat → Prop
  | done {stack : List Nat} : Follows tree stack [] stack
  | visit {stack next last : List Nat} {event : TreeEvent} {events : List TreeEvent}
      (around : stack = tree.enclosingScopes event.id) (visited : event.visit stack = some next)
      (ended : ∀ id, event = .scopeClose id →
        ∃ parent outer, stack = parent :: outer ∧ id ∈ tree.children parent) :
      Follows tree next events last → Follows tree stack (event :: events) last

namespace Follows

variable {stack middle last : List Nat} {events later : List TreeEvent}

theorem append (h : Follows tree stack events middle) (h' : Follows tree middle later last) :
    Follows tree stack (events ++ later) last := by
  induction h with
  | done => exact h'
  | visit around visited ended _ ih => exact .visit around visited ended (ih h')

theorem visitAll_eq (h : Follows tree stack events last) : visitAll stack events = some last := by
  induction h with
  | done => rfl
  | visit _ visited _ _ ih =>
    rw [visitAll, List.foldlM_cons, visited]
    exact ih

/-- Where the visitor is at an event. -/
theorem split {event : TreeEvent} (h : Follows tree stack (events ++ event :: later) last) :
    visitAll stack events = some (tree.enclosingScopes event.id) ∧
      ∀ id, event = .scopeClose id →
        ∃ parent outer, tree.enclosingScopes id = parent :: outer ∧ id ∈ tree.children parent := by
  induction events generalizing stack with
  | nil =>
    cases h with
    | visit around _ ended _ =>
      refine ⟨congrArg some around, fun id hid => ?_⟩
      obtain ⟨parent, outer, hstack, hchild⟩ := ended id hid
      rw [hid] at around
      exact ⟨parent, outer, around.symm.trans hstack, hchild⟩
  | cons first events ih =>
    cases h with
    | visit _ visited _ hrest =>
      rw [visitAll, List.foldlM_cons, visited]
      exact ih hrest

end Follows

/-- The events of some visits. -/
def eventsOf (tree : ParseTree) (visits : List (Nat × Nat)) : List TreeEvent :=
  visits.filterMap fun visit => tree.event? visit.1

/-- An event that ends no scope leaves the stack as it is, or puts its node on it. -/
theorem visit_of_event (hkind : tree.kind? id ≠ some .scopeClose) (stack : List Nat) :
    tree.event? id = none ∧ (tree.kind? id).any NodeKind.opensScope = false ∨
      ∃ event, tree.event? id = some event ∧ event.id = id ∧ (∀ id', event ≠ .scopeClose id') ∧
        event.visit stack =
          some (if (tree.kind? id).any NodeKind.opensScope then id :: stack else stack) := by
  rw [event?]
  rcases hfound : tree.kind? id with _ | kind
  · exact .inl ⟨rfl, rfl⟩
  · cases kind with
    | declaration kind => cases kind <;> exact .inr ⟨_, rfl, rfl, by simp, rfl⟩
    | reference kind => exact .inr ⟨_, rfl, rfl, by simp, rfl⟩
    | scopeClose => exact absurd hfound hkind
    | _ => exact .inl ⟨rfl, rfl⟩

/-- The visitor walks through a part of the tree whose roots all have the scopes on the stack around
them. If the part is closed, its last root takes the innermost of them off the stack. -/
theorem follows_walk {whole : Forest} (hwhole : tree.Shows 0 whole) (hsize : tree.size = whole.size)
    {closed : Bool} {stack : List Nat} (depth : Nat) (h : tree.Shows start forest)
    (within : start + forest.size ≤ tree.size) (paired : forest.Paired closed)
    (around : ∀ id ∈ forest.rootIds start, tree.enclosingScopes id = stack)
    (parents : closed = true → ∃ parent outer, stack = parent :: outer ∧
      ∀ id ∈ forest.rootIds start, id ∈ tree.children parent) :
    Follows tree stack (tree.eventsOf (forest.walk start depth))
      (if closed then stack.tail else stack) := by
  induction forest generalizing start depth closed stack with
  | nil =>
    rw [show closed = false from paired]
    exact .done
  | cons label children rest ihc ihr =>
    obtain ⟨hchildren, hnode, hrest⟩ := h
    rw [Forest.size] at within
    have hroot : start + children.size ∈ (Forest.cons label children rest).rootIds start :=
      List.mem_cons_self
    have hkind := kind_of_node hnode
    have hstack := around _ hroot
    rw [Forest.Paired] at paired
    split at paired
    case isTrue hclose =>
      -- the root ends the scope of its parent, so it is the last one and has nothing below it
      obtain ⟨rfl, rfl, rfl⟩ := paired
      obtain ⟨parent, outer, rfl, hparent⟩ := parents rfl
      have hevent : tree.event? (start + Forest.nil.size) =
          some (.scopeClose (start + Forest.nil.size)) := by
        rw [event?, hkind, hclose]
      rw [eventsOf, Forest.walk, List.filterMap_cons, hevent]
      refine .visit hstack.symm rfl ?_ .done
      rintro id ⟨rfl⟩
      exact ⟨parent, outer, rfl, hparent _ hroot⟩
    case isFalse hopen =>
      obtain ⟨hbelow, hbeside⟩ := paired
      -- the stack while the children are visited
      generalize hnext :
        (if label.opensScope then (start + children.size) :: stack else stack) = next
      have hbelowFollows :
          Follows tree next (tree.eventsOf (children.walk start (depth + 1))) stack := by
        have hfollows := ihc (depth + 1) hchildren (by omega) hbelow
          (by
            intro id hid
            have hchild : id ∈ tree.children (start + children.size) := by
              rwa [hchildren.children_eq hnode, List.mem_reverse]
            have haround := enclosingScopes_child hwhole hsize hchild
            rw [hkind, hstack] at haround
            exact haround.trans hnext)
          (by
            intro hopens
            refine ⟨start + children.size, stack, ?_, fun id hid => ?_⟩
            · rw [← hnext, if_pos hopens]
            · rwa [hchildren.children_eq hnode, List.mem_reverse])
        have hback : (if label.opensScope then next.tail else next) = stack := by
          rw [← hnext]
          split <;> rfl
        rwa [hback] at hfollows
      have hrestFollows := ihr depth hrest (by omega) hbeside
        (fun id hid => around id (List.mem_cons_of_mem _ hid))
        (fun hclosed => by
          obtain ⟨parent, outer, hstack', hparents⟩ := parents hclosed
          exact ⟨parent, outer, hstack', fun id hid => hparents id (List.mem_cons_of_mem _ hid)⟩)
      -- the event of the root comes before those of its children and of its siblings
      have hboth := hbelowFollows.append hrestFollows
      rw [eventsOf, Forest.walk, List.filterMap_cons, List.filterMap_append]
      rcases visit_of_event (by rwa [hkind]) stack with
        ⟨hevent, hopens⟩ | ⟨event, hevent, hid, hends, hvisit⟩
      · have hsame : next = stack := by
          rw [hkind] at hopens
          rw [← hnext, if_neg (by rw [Label.opensScope, hopens]; exact Bool.false_ne_true)]
        rw [hevent, ← hsame]
        rw [hsame] at hboth
        rwa [hsame]
      · rw [hevent]
        refine .visit (by rw [hid, hstack]) ?_ (fun id hclose => absurd hclose (hends id)) hboth
        rw [hvisit, hkind, ← hnext]
        rfl

/-! ## Trees whose scopes pair up -/

/-- Every declaration that opens a scope has one child that ends it, which is its last one, and no
other node ends a scope. Children are listed last first. -/
structure ScopesPair (tree : ParseTree) : Prop where
  closed : ∀ id kind, tree.kind? id = some (.scope kind) →
    ∃ close before, tree.children id = close :: before ∧
      tree.kind? close = some .scopeClose ∧ ∀ child ∈ before, tree.kind? child ≠ some .scopeClose
  owned : ∀ id, tree.kind? id = some .scopeClose →
    id ∉ tree.roots ∧ (∃ parent, id ∈ tree.children parent) ∧
      ∀ parent, id ∈ tree.children parent → ∃ kind, tree.kind? parent = some (.scope kind)

/-- The roots of a part of the tree: if it is closed, the last one ends a scope, no other does. -/
theorem Shows.kind_rootIds {closed : Bool} (h : tree.Shows start forest)
    (paired : forest.Paired closed) : ∃ before last, forest.rootIds start = before ++ last ∧
      (∀ id ∈ before, tree.kind? id ≠ some .scopeClose) ∧
      if closed then ∃ close, last = [close] ∧ tree.kind? close = some .scopeClose
      else last = [] := by
  induction forest generalizing start with
  | nil => exact ⟨[], [], rfl, by simp, by rw [show closed = false from paired]; rfl⟩
  | cons label children rest _ ihr =>
    obtain ⟨-, hnode, hrest⟩ := h
    have hkind := kind_of_node hnode
    rw [Forest.Paired] at paired
    split at paired
    case isTrue hclose =>
      obtain ⟨rfl, rfl, rfl⟩ := paired
      exact ⟨[], _, rfl, by simp, _, rfl, hkind.trans hclose⟩
    case isFalse hopen =>
      obtain ⟨before, last, hroots, hbefore, hlast⟩ := ihr hrest paired.2
      refine ⟨(start + children.size) :: before, last, ?_, ?_, hlast⟩
      · rw [Forest.rootIds, hroots, List.cons_append]
      · rintro id (_ | ⟨_, hid⟩)
        · rwa [hkind]
        · exact hbefore id hid

/-- What is below a node. -/
theorem Shows.paired_children {closed : Bool} (h : tree.Shows 0 forest)
    (hsize : tree.size = forest.size) (paired : forest.Paired closed) (hid : id < tree.size) :
    ∃ (label : Label) (children : Forest), tree.kind? id = label.kind? ∧
      tree.Shows (tree.firstOf id) children ∧
      tree.children id = (children.rootIds (tree.firstOf id)).reverse ∧
      if label.kind? = some .scopeClose then children = .nil
      else children.Paired label.opensScope := by
  obtain ⟨label, children, hcontains, hnode, hshows, hspan⟩ :=
    h.exists_contains (Nat.zero_le id) (by omega)
  refine ⟨label, children, kind_of_node hnode, hshows, ?_, paired.of_contains hcontains⟩
  rw [← hspan] at hnode
  have hchildren := hshows.children_eq hnode
  rwa [hspan] at hchildren

theorem scopesPair_of_paired (h : tree.Shows 0 forest) (hsize : tree.size = forest.size)
    (paired : forest.Paired false) : tree.ScopesPair := by
  constructor
  · intro id kind hid
    obtain ⟨label, children, hkind, hshows, hchildren, hpaired⟩ :=
      h.paired_children hsize paired (lt_size_of_kind hid)
    have hlabel : label.kind? = some (.scope kind) := hkind.symm.trans hid
    rw [if_neg (by rw [hlabel]; simp)] at hpaired
    rw [show label.opensScope = true by rw [Label.opensScope, hlabel]; rfl] at hpaired
    obtain ⟨before, last, hroots, hbefore, close, rfl, hclose⟩ := hshows.kind_rootIds hpaired
    refine ⟨close, before.reverse, ?_, hclose, fun child hchild => ?_⟩
    · rw [hchildren, hroots, List.reverse_append]
      rfl
    · exact hbefore child (List.mem_reverse.mp hchild)
  · intro id hid
    have hroots : id ∉ forest.rootIds 0 := by
      obtain ⟨before, last, hroots, hbefore, rfl⟩ := h.kind_rootIds paired
      rw [hroots, List.append_nil]
      exact fun hmem => hbefore id hmem hid
    refine ⟨?_, ?_, fun parent hparent => ?_⟩
    · rwa [h.roots_eq hsize, List.mem_reverse]
    · have hplace := h.root_or_child (Nat.zero_le id) (by have := lt_size_of_kind hid; omega)
      obtain ⟨parent, -, hchild⟩ := hplace.resolve_left hroots
      exact ⟨parent, hchild⟩
    · obtain ⟨label, children, hkind, hshows, hchildren, hpaired⟩ :=
        h.paired_children hsize paired (lt_size_of_child hparent)
      rw [hchildren, List.mem_reverse] at hparent
      rw [hkind]
      split at hpaired
      case isTrue =>
        rw [hpaired] at hparent
        exact absurd hparent List.not_mem_nil
      case isFalse =>
        obtain ⟨before, last, hroots', hbefore, hlast⟩ := hshows.kind_rootIds hpaired
        split at hlast
        case isTrue hopens =>
          rcases hlabel : label.kind? with _ | kind
          · rw [Label.opensScope, hlabel] at hopens
            exact absurd hopens Bool.false_ne_true
          · rw [Label.opensScope, hlabel] at hopens
            exact NodeKind.eq_scope_of_opensScope hopens
        case isFalse =>
          rw [hroots', hlast, List.append_nil] at hparent
          exact absurd hid (hbefore id hparent)

end ParseTree

end ProtoFront
