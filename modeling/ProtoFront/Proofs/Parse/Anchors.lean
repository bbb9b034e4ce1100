import ProtoFront.Proofs.Parse.Leads
import ProtoFront.Proofs.Parse.Marks

/-!
# The tokens that nodes stand for

A node with others below it stands for the first of its tokens: the first node of its subtree is the
leaf of that token (`ParseTree.Anchored`). The token is noted when a construct begins, in front of
it, and the node is made when the construct ends. So it matters that what is made in between begins
with the leaf of that token, and not with a node that stands for none.

Most constructs begin only in front of a token that they are sure to read. What may begin and read
nothing is the name of an option. Its empty node stands for no token. Behind the word `option` that
does no harm, but an option in a list begins with its name: if that is missing, the option stands
for the next token, which a later leaf owns (`ParseTree.LacksName`).
-/

namespace ProtoFront

open ParseState

variable {entry now : Pending} {s t u final : ParseState} {before : Nat}
variable {tree : ParseTree} {node : Node} {id : Nat} {pending : List Pending}

namespace ParseTree

/-- The token that a node stands for, if the node exists and stands for one. -/
def tokenAt? (tree : ParseTree) (id : Nat) : Option Nat := (tree.node? id).bind Node.token?

/-- The node of the name of an option that is not there. -/
def missingName : Node := ⟨none, 1, true, some .optionName⟩

/-- An option of which there is nothing, not even a name. -/
structure LacksName (tree : ParseTree) (id : Nat) : Prop where
  kind : tree.kind? id = some (.declaration .option)
  size : tree.sizeAt id = 2
  failed : tree.isFailed id = true
  name : tree.node? (id - 1) = some missingName

/-- A node with others below it stands for the token of the first leaf of its subtree, if for any,
except for an option without a name. -/
def Anchored (tree : ParseTree) : Prop := ∀ id token, 1 < tree.sizeAt id →
  tree.tokenAt? id = some token →
    tree.tokenAt? (tree.firstOf id) = some token ∨ tree.LacksName id

theorem node?_push_of_lt (h : id < tree.size) : (tree.push node).node? id = tree.node? id := by
  rw [node?_push, if_neg (Nat.ne_of_lt h)]

theorem node?_push_self : (tree.push node).node? tree.size = some node := by
  rw [node?_push, if_pos rfl]

theorem lt_size_of_tokenAt? {token : Nat} (h : tree.tokenAt? id = some token) : id < tree.size := by
  by_contra hpast
  rw [tokenAt?, node?, Array.getElem?_eq_none (Nat.not_lt.mp hpast)] at h
  cases h

theorem tokenAt?_push {token : Nat} (h : tree.tokenAt? id = some token) :
    (tree.push node).tokenAt? id = some token := by
  rwa [tokenAt?, node?_push_of_lt (lt_size_of_tokenAt? h)]

namespace Anchored

theorem push (h : tree.Anchored)
    (first : ∀ token, node.token? = some token → 1 < node.size →
      tree.tokenAt? (tree.size + 1 - node.size) = some token ∨
        (tree.push node).LacksName tree.size) : (tree.push node).Anchored := by
  intro id token inner htoken
  have hid : id < tree.size ∨ id = tree.size := by
    have hlt := lt_size_of_tokenAt? htoken
    rw [size_push] at hlt
    omega
  rcases hid with hid | rfl
  · have same : (tree.push node).node? id = tree.node? id := node?_push_of_lt hid
    have size : (tree.push node).sizeAt id = tree.sizeAt id := by rw [sizeAt, same, sizeAt]
    rw [size] at inner
    rw [tokenAt?, same] at htoken
    rcases h id token inner htoken with hfirst | lacks
    · rw [firstOf, size]
      exact .inl (tokenAt?_push hfirst)
    · refine .inr ⟨?_, size.trans lacks.size, ?_, ?_⟩
      · rw [kind?, same]
        exact lacks.kind
      · rw [isFailed, same]
        exact lacks.failed
      · rw [node?_push_of_lt (by omega)]
        exact lacks.name
  · rw [tokenAt?, node?_push_self] at htoken
    rw [sizeAt, node?_push_self] at inner
    refine (first token htoken inner).imp_left fun hfirst => ?_
    rw [firstOf, sizeAt, node?_push_self]
    exact tokenAt?_push hfirst

/-- A leaf has nothing below it. -/
theorem leaf (h : tree.Anchored) (hsize : node.size = 1) : (tree.push node).Anchored :=
  h.push fun _ _ inner => absurd hsize (Nat.ne_of_gt inner)

/-- A node over everything from some node on stands for the token of that one. -/
theorem parent (h : tree.Anchored) {start token : Nat} (first : tree.tokenAt? start = some token)
    (token? : Option Nat) (failed : Bool) (tag? : Option NodeKind)
    (same : ∀ other, token? = some other → other = token) :
    (tree.push ⟨token?, tree.size - start + 1, failed, tag?⟩).Anchored := by
  have hlt := lt_size_of_tokenAt? first
  refine h.push fun other hother _ => .inl ?_
  rw [show tree.size + 1 - (tree.size - start + 1) = start by omega, first, same other hother]

end Anchored

end ParseTree

/-! ## What has been made of a construct -/

namespace ParseState

/-- The first node of a construct is that of its token. -/
def Begun (s : ParseState) (entry : Pending) : Prop :=
  s.made.tokenAt? entry.start = some entry.origin.token

/-- Nothing has been made of a construct. -/
def Untouched (s : ParseState) (entry : Pending) : Prop :=
  entry.start = s.nodes.size ∧ entry.origin.token = s.position

/-- The constructs on a stack have begun. What stands for the whole input becomes no node. -/
def AllBegun (s : ParseState) (pending : List Pending) : Prop :=
  ∀ entry ∈ pending, entry.goal.part ≠ .document → s.Begun entry

theorem tokenAt?_mono {token : Nat} (h : s.made.tokenAt? id = some token)
    (more : s.nodes.toList <+: t.nodes.toList) : t.made.tokenAt? id = some token := by
  have hlt : id < s.nodes.toList.length := ParseTree.lt_size_of_tokenAt? h
  obtain ⟨later, hlater⟩ := more
  rw [ParseTree.tokenAt?, ParseTree.node?, made, ← Array.getElem?_toList, ← hlater,
    List.getElem?_append_left hlt, Array.getElem?_toList]
  exact h

theorem Begun.mono (h : s.Begun entry) (more : s.nodes.toList <+: t.nodes.toList) :
    t.Begun entry :=
  tokenAt?_mono h more

theorem AllBegun.mono (h : s.AllBegun pending) (more : s.nodes.toList <+: t.nodes.toList) :
    t.AllBegun pending :=
  fun entry hentry inner => (h entry hentry inner).mono more

theorem allBegun_cons : s.AllBegun (entry :: pending) ↔
    (entry.goal.part ≠ .document → s.Begun entry) ∧ s.AllBegun pending :=
  List.forall_mem_cons

theorem AllBegun.markEnclosing (h : s.AllBegun s.pending) :
    s.markEnclosing.AllBegun s.markEnclosing.pending := by
  rw [ParseState.markEnclosing]
  split
  case h_1 => exact h
  case h_2 top below hpending =>
    rw [hpending, allBegun_cons] at h
    exact allBegun_cons.mpr ⟨h.1, h.2⟩

theorem AllBegun.letGo (h : s.AllBegun s.pending) (now : Pending) :
    (s.letGo now).AllBegun (s.letGo now).pending := by
  rw [ParseState.letGo]
  split
  · exact h.markEnclosing
  · exact h

/-- What has been made of a construct is closed: the node stands for the first of it, or for
nothing. -/
theorem anchored_close (h : s.made.Anchored) (held : s.Begun now ∨ s.Untouched now)
    (tag? : Option NodeKind) : (s.close now tag?).made.Anchored := by
  rw [made, close_eq, nodes_letGo, nodes_addParent]
  rcases held with begun | untouched
  · refine h.parent begun _ now.failed tag? fun other hother => ?_
    split at hother
    · cases hother
    · exact (Option.some.inj hother).symm
  · refine h.leaf ?_
    rw [untouched.1, Nat.sub_self]

theorem anchored_addLeaf (h : s.made.Anchored) (tag? : Option NodeKind) (failed : Bool) :
    (s.addLeaf tag? failed).made.Anchored := by
  rcases hrest : s.cursor.rest with _ | ⟨next, rest⟩
  · rwa [s.addLeaf_of_rest_eq_nil _ _ hrest]
  · rw [made_addLeaf _ _ hrest]
    exact h.leaf rfl

theorem anchored_addSynthetic (h : s.made.Anchored) (tag : NodeKind) (failed : Bool) :
    (s.addSynthetic tag failed).made.Anchored :=
  ParseTree.Anchored.leaf h rfl

end ParseState

/-! ## Moves -/

/-- Between two states nothing has been read, or what has been read first is the first node. -/
def ParseState.Onward (s t : ParseState) : Prop :=
  (t.nodes = s.nodes ∧ t.cursor = s.cursor) ∨
    (t.left < s.left ∧ t.made.tokenAt? s.nodes.size = some s.position)

namespace ParseState.Onward

theorem addLeaf (h : s.Onward t) (tag? : Option NodeKind) (failed : Bool) :
    s.Onward (t.addLeaf tag? failed) := by
  rcases hrest : t.cursor.rest with _ | ⟨next, rest⟩
  · rwa [t.addLeaf_of_rest_eq_nil _ _ hrest]
  · have hleft : (t.addLeaf tag? failed).left + 1 = t.left := by simp [left, hrest]
    rw [Onward, made_addLeaf _ _ hrest]
    rcases h with ⟨nodes, cursor⟩ | ⟨read, first⟩
    · have hsame : t.left = s.left := by rw [left, left, cursor]
      have hsize : s.nodes.size = t.made.size := by rw [made, ParseTree.size, nodes]
      refine .inr ⟨by omega, ?_⟩
      rw [ParseTree.tokenAt?, hsize, ParseTree.node?_push_self, position, Cursor.position,
        ← cursor, hrest]
      rfl
    · exact .inr ⟨by omega, ParseTree.tokenAt?_push first⟩

theorem trans (h : s.Onward t) (h' : t.Onward u) (more : t.nodes.toList <+: u.nodes.toList) :
    s.Onward u := by
  rcases h with ⟨nodes, cursor⟩ | ⟨read, first⟩
  · simp only [Onward, left, position, ← nodes, ← cursor]
    exact h'
  · refine .inr ⟨?_, tokenAt?_mono first more⟩
    rcases h' with ⟨-, cursor'⟩ | ⟨read', -⟩
    · rwa [left, cursor']
    · exact read'.trans read

/-- What has begun stays so, and of a construct that has not begun something has been made if
anything has been read. -/
theorem begun (h : s.Onward t) (more : s.nodes.toList <+: t.nodes.toList) (read : t.left < s.left)
    (stands : s.Begun entry ∨ s.Untouched entry) : t.Begun entry := by
  rcases stands with begun | untouched
  · exact begun.mono more
  · rcases h with ⟨-, cursor⟩ | ⟨-, first⟩
    · rw [left, left, cursor] at read
      exact absurd read (Nat.lt_irrefl _)
    · rwa [Begun, untouched.1, untouched.2]

end ParseState.Onward

namespace Moves

theorem onward (h : Moves entry s now t) : s.Onward t := by
  induction h with
  | start => exact .inl ⟨rfl, rfl⟩
  | leaf tag? _ _ _ ih => exact ih.addLeaf tag? false
  | discard _ _ _ ih => exact ih.addLeaf none true
  | report expected _ ih => exact ih
  | breaks _ _ ih => exact ih
  | resync start _ _ ih => exact ih
  | @range _ _ _ t u _ h' _ _ grown ih ih' =>
    -- a range is not empty, so something has been read for it
    obtain ⟨read, first⟩ := (ih.trans ih' h'.prefix_nodes).resolve_left fun same => by
      rcases ih with ⟨nodes, -⟩ | ⟨read, -⟩
      · rw [same.1, nodes] at grown
        exact Nat.lt_irrefl _ grown
      · have hle := h'.left_le
        rw [left, left, ← same.2] at read
        exact absurd read (Nat.not_lt.mpr hle)
    exact .inr ⟨read, ParseTree.tokenAt?_push first⟩

theorem anchored (h : Moves entry s now t) (hs : s.made.Anchored) : t.made.Anchored := by
  induction h with
  | start => exact hs
  | leaf tag? _ _ _ ih => exact anchored_addLeaf (ih hs) tag? false
  | discard _ _ _ ih => exact anchored_addLeaf (ih hs) none true
  | report expected _ ih => exact ih hs
  | breaks _ _ ih => exact ih hs
  | resync start _ _ ih => exact ih hs
  | range _ h' _ _ grown ih ih' =>
    obtain ⟨-, first⟩ := h'.onward.resolve_left fun same => by
      rw [same.1] at grown
      exact Nat.lt_irrefl _ grown
    exact (ih' (ih hs)).parent first _ _ _ fun other hother => (Option.some.inj hother).symm

end Moves

/-! ## Ends -/

namespace ParseState

/-- Behind the name of an option everything has begun, except perhaps an option in a list, which
begins with its name. -/
def BehindName (s : ParseState) (below : List Pending) : Prop :=
  s.AllBegun below ∨ ∃ option around, below = option :: around ∧
    option.goal = .listOptionAfterName ∧ s.Untouched option ∧ s.AllBegun around

/-- Which constructs on a stack have not begun. -/
inductive Opening (s : ParseState) : List Pending → Prop
  | begun {pending : List Pending} (all : s.AllBegun pending) : Opening s pending
  /-- a token is read at once -/
  | eager {top : Pending} {below : List Pending} (reads : top.goal.eager = true)
      (stand : ∀ entry ∈ top :: below, entry.goal.part ≠ .document →
        s.Begun entry ∨ s.Untouched entry) : Opening s (top :: below)
  | fresh {top : Pending} {below : List Pending} (untouched : s.Untouched top)
      (all : s.AllBegun below) : Opening s (top :: below)
  | name {name : Pending} {below : List Pending} (goal : name.goal = .optionName)
      (untouched : s.Untouched name) (behind : s.BehindName below) : Opening s (name :: below)
  | part {part name : Pending} {below : List Pending} (goal : part.goal = .optionNamePart)
      (untouched : s.Untouched part) (around : name.goal = .optionNameEnd)
      (unnamed : s.Untouched name) (behind : s.BehindName below) :
      Opening s (part :: name :: below)
  /-- there is no name -/
  | unnamed {name : Pending} {below : List Pending} (goal : name.goal = .optionNameEnd)
      (untouched : s.Untouched name) (failed : name.failed = true) (behind : s.BehindName below) :
      Opening s (name :: below)
  /-- an option in a list has an empty name -/
  | nameless {option : Pending} {below : List Pending} (goal : option.goal = .listOptionAfterName)
      (start : option.start + 1 = s.nodes.size) (failed : option.failed = true)
      (name : s.made.node? option.start = some ParseTree.missingName)
      (all : s.AllBegun below) : Opening s (option :: below)

/-- The nodes stand for their first tokens, and so will those of the constructs on the stack. -/
structure Rooted (s : ParseState) : Prop where
  anchored : s.made.Anchored
  opening : s.Opening s.pending

theorem Rooted.of_allBegun (anchored : s.made.Anchored) (all : s.AllBegun s.pending) : s.Rooted :=
  ⟨anchored, .begun all⟩

theorem untouched_pushGoal (s : ParseState) (goal : Goal) :
    s.Untouched ⟨goal, s.cursor.origin, s.nodes.size, false⟩ := by
  refine ⟨rfl, ?_⟩
  rw [position, Cursor.position, Cursor.origin]
  split <;> rfl

/-- Behind a construct that is closed everything has begun. -/
theorem allBegun_close (all : s.AllBegun s.pending) (tag? : Option NodeKind) :
    (s.close now tag?).AllBegun (s.close now tag?).pending := by
  have parent : (s.addParent (if now.start = s.nodes.size then none else some now.origin.token)
      now.start tag? now.failed).AllBegun s.pending := by
    refine all.mono ?_
    rw [nodes_addParent, Array.toList_push]
    exact List.prefix_append _ _
  exact parent.letGo now

theorem allBegun_addLeaf (all : s.AllBegun s.pending) (tag? : Option NodeKind) (failed : Bool) :
    (s.addLeaf tag? failed).AllBegun (s.addLeaf tag? failed).pending := by
  rw [pending_addLeaf]
  exact all.mono (prefix_nodes_addLeaf tag? failed)

theorem allBegun_addSynthetic (all : s.AllBegun s.pending) (tag : NodeKind) (failed : Bool) :
    (s.addSynthetic tag failed).AllBegun (s.addSynthetic tag failed).pending :=
  all.mono (prefix_nodes_addSynthetic tag failed)

end ParseState

theorem Goal.cost_le_of_eager {goal : Goal} (h : goal.eager = true) : goal.cost ≤ -9 := by
  rw [cost, if_pos h]
  have hsteps : goal.steps ≤ 7 := by
    unfold steps
    split <;> decide
  omega

theorem Goal.eager_of_cost_le {goal : Goal} (h : goal.cost ≤ 0) : goal.eager = true := by
  by_contra hpatient
  have hpos := cost_pos_of_not_eager (Bool.eq_false_iff.mpr hpatient)
  omega

/-- What is held has begun, or nothing has been read in a step that can cause no more of them. -/
def ParseState.Firm (t : ParseState) (before : Nat) (now : Pending) : Prop :=
  (now.goal.part ≠ .document → t.Begun now) ∨
    (t.Untouched now ∧ before = t.left ∧ now.goal.cost ≤ 1)

theorem ParseState.Firm.close (firm : t.Firm before now) (inner : now.goal.part ≠ .document)
    (anchored : t.made.Anchored) (tag? : Option NodeKind) : (t.close now tag?).made.Anchored :=
  anchored_close anchored (firm.imp (fun begun => begun inner) And.left) tag?

/-- Letting go of a construct that has begun, in front of others that have. -/
theorem Ends.rooted (h : Ends before now t final) (anchored : t.made.Anchored)
    (below : t.AllBegun t.pending) (firm : t.Firm before now) : final.Rooted := by
  cases h with
  | finish => exact .of_allBegun anchored below
  | goOn goal opened stays part =>
    refine ⟨anchored, ?_⟩
    rcases firm with begun | ⟨untouched, -⟩
    · exact .begun (allBegun_cons.mpr ⟨part ▸ begun, below⟩)
    · exact .fresh untouched below
  | delegate goal next failed opened part awaits begins kept paid =>
    refine ⟨anchored, ?_⟩
    have fresh := t.untouched_pushGoal next
    rcases firm with begun | ⟨untouched, rfl, cost⟩
    · exact .fresh fresh (allBegun_cons.mpr ⟨part ▸ begun, below⟩)
    · rw [Goal.cost_eq_one awaits] at paid
      have eager : next.eager = true := Goal.eager_of_cost_le (by omega)
      exact .eager eager (List.forall_mem_cons.mpr ⟨fun _ => .inr fresh,
        List.forall_mem_cons.mpr ⟨fun _ => .inr untouched,
          fun entry hentry inner => .inl (below entry hentry inner)⟩⟩)
  | enter kind opened part unmarked carried paid =>
    rcases firm with begun | ⟨-, rfl, cost⟩
    · have inner : now.goal.part ≠ .document := by rw [part]; decide
      have held : ∀ goal : Goal, goal.part ≠ .document → t.Begun { now with goal } :=
        fun _ _ => begun inner
      exact .of_allBegun anchored
        (allBegun_cons.mpr ⟨held _, allBegun_cons.mpr ⟨held _, below⟩⟩)
    · omega
  | replace next => exact ⟨anchored, .fresh (t.untouched_pushGoal next) below⟩
  | parenthesize =>
    have fresh := t.untouched_pushGoal
    exact ⟨anchored, .eager rfl (List.forall_mem_cons.mpr ⟨fun _ => .inr (fresh _),
      List.forall_mem_cons.mpr ⟨fun _ => .inr (fresh _),
        fun entry hentry inner => .inl (below entry hentry inner)⟩⟩)⟩
  | pass =>
    refine .of_allBegun ?_ (below.letGo now)
    rwa [made, nodes_letGo]
  | close tag? inner =>
    exact .of_allBegun (firm.close inner anchored tag?) (allBegun_close below tag?)
  | separate goal =>
    have closed := firm.close (by rw [goal]; decide) anchored (some .textField)
    exact .of_allBegun (anchored_addLeaf closed none false)
      (allBegun_addLeaf (allBegun_close below _) none false)
  | terminate goal =>
    have closed := firm.close (by rw [goal]; decide) anchored (some .textField)
    exact .of_allBegun (anchored_addSynthetic closed _ _)
      (allBegun_addSynthetic (allBegun_close below _) .terminator false)
  | closeScope kind goal marked read =>
    rcases firm with begun | ⟨-, rfl, -⟩
    · have inner : now.goal.part ≠ .document := by rw [goal]; rintro ⟨⟩
      have sealed := allBegun_addSynthetic below .scopeClose true
      have held := (begun inner).mono (prefix_nodes_addSynthetic .scopeClose true)
      exact .of_allBegun (anchored_close (anchored_addSynthetic anchored _ _) (.inl held) _)
        (allBegun_close sealed _)
    · exact absurd read (Nat.lt_irrefl _)
  | closeBody kind =>
    refine .of_allBegun ?_ ((allBegun_addLeaf below kind.closeTag? false).letGo now)
    rw [made, nodes_letGo]
    exact anchored_addLeaf anchored _ _
  | cutBody kind =>
    split
    case h_1 tag _ =>
      refine .of_allBegun ?_ ((allBegun_addSynthetic below tag true).letGo now)
      rw [made, nodes_letGo]
      exact anchored_addSynthetic anchored _ _
    case h_2 =>
      refine .of_allBegun ?_ (below.letGo now)
      rwa [made, nodes_letGo]
  | junk failed goal =>
    have skipped := allBegun_addLeaf below none true
    refine .of_allBegun (anchored_addLeaf anchored none true) ?_
    refine allBegun_cons.mpr ⟨fun inner => absurd rfl inner, ?_⟩
    exact skipped

/-- Nothing has been read of a construct that is sure to read: the next goal will. -/
theorem Ends.rooted_of_eager (h : Ends t.left now t final) (anchored : t.made.Anchored)
    (reads : now.goal.eager = true) (stand : ∀ entry ∈ now :: t.pending,
      entry.goal.part ≠ .document → t.Begun entry ∨ t.Untouched entry) : final.Rooted := by
  have cost := Goal.cost_le_of_eager reads
  obtain ⟨held, below⟩ := List.forall_mem_cons.mp stand
  have fresh := t.untouched_pushGoal
  cases h with
  | finish part => exact absurd (Goal.cost_of_document part) (by omega)
  | goOn goal opened stays part ready unmarked carried paid =>
    have eager : goal.eager = true := Goal.eager_of_cost_le (by omega)
    exact ⟨anchored, .eager eager (List.forall_mem_cons.mpr ⟨part ▸ held, below⟩)⟩
  | delegate goal next failed opened part awaits begins kept paid =>
    rw [Goal.cost_eq_one awaits] at paid
    have eager : next.eager = true := Goal.eager_of_cost_le (by omega)
    exact ⟨anchored, .eager eager (List.forall_mem_cons.mpr ⟨fun _ => .inr (fresh next),
      List.forall_mem_cons.mpr ⟨part ▸ held, below⟩⟩)⟩
  | replace next opened part begins unmarked carried paid =>
    have eager : next.eager = true := Goal.eager_of_cost_le (by omega)
    exact ⟨anchored, .eager eager (List.forall_mem_cons.mpr ⟨fun _ => .inr (fresh next), below⟩)⟩
  | enter | pass | close => omega
  | parenthesize goal | separate goal | terminate goal | closeBody kind goal | cutBody kind goal
  | junk failed goal =>
    rw [goal] at reads
    cases reads
  | closeScope kind goal marked read => exact absurd read (Nat.lt_irrefl _)

/-! ## Options without a name -/

namespace ParseState

variable {top : Pending} {below : List Pending}

/-- An option in a list begins with its name. -/
theorem rooted_listOption (h : s.pending = top :: below) (anchored : s.made.Anchored)
    (goal : top.goal = .listOption) (untouched : s.Untouched top) (all : s.AllBegun below) :
    s.step.Rooted := by
  have step : s.step = (({ s with pending := below }).resume top .listOptionAfterName).pushGoal
      .optionName := by
    rw [step_of_pending h, pursue, goal]
    rfl
  rw [step]
  exact ⟨anchored, .name rfl (untouched_pushGoal _ _) (.inr ⟨_, below, rfl, rfl, untouched, all⟩)⟩

/-- The name of an option begins with its first part. -/
theorem rooted_optionName (h : s.pending = top :: below) (anchored : s.made.Anchored)
    (goal : top.goal = .optionName) (untouched : s.Untouched top) (behind : s.BehindName below) :
    s.step.Rooted := by
  have step : s.step = (({ s with pending := below }).resume top .optionNameEnd).pushGoal
      .optionNamePart := by
    rw [step_of_pending h, pursue, goal]
    rfl
  rw [step]
  exact ⟨anchored, .part rfl (untouched_pushGoal _ _) rfl untouched behind⟩

/-- A part of a name reads a token, or there is no such part. -/
theorem optionNamePart_cases (s : ParseState) : s.optionNamePart.left < s.left ∨
    s.optionNamePart = (s.report [.identifier, .token (.opener .paren)]).markEnclosing := by
  rw [optionNamePart]
  split
  case isTrue hword =>
    have hread := s.left_take_lt (TokenKind.ne_eof_of_isIdentifierLike hword)
    have hle := s.take.left_take_le
    refine .inl ?_
    rw [optionNameDot]
    split
    · exact Nat.lt_of_le_of_lt hle (by omega)
    · omega
  case isFalse =>
    split
    case isTrue hopener =>
      have hread := s.left_take_lt (by rw [hopener]; simp)
      refine .inl ?_
      dsimp only
      split
      · exact Nat.lt_of_lt_of_eq (Nat.lt_succ_self s.take.left) hread
      · rw [left, cursor_markEnclosing]
        exact Nat.lt_of_lt_of_eq (Nat.lt_succ_self s.take.left) hread
    case isFalse => exact .inr rfl

/-- The empty name is closed: a node that stands for no token. -/
theorem rooted_unnamed (h : s.pending = top :: below) (anchored : s.made.Anchored)
    (goal : top.goal = .optionNameEnd) (untouched : s.Untouched top) (failed : top.failed = true)
    (behind : s.BehindName below) : s.step.Rooted := by
  have step : s.step = ({ s with pending := below }).close top (some .optionName) := by
    rw [step_of_pending h, pursue, goal]
  have held : ({ s with pending := below } : ParseState).Untouched top := untouched
  have closed : s.step.made.Anchored := by
    rw [step]
    exact anchored_close
      (show ({ s with pending := below } : ParseState).made.Anchored from anchored)
      (.inr held) _
  rcases behind with all | ⟨option, around, rfl, hoption, hstart, all⟩
  · refine .of_allBegun closed ?_
    rw [step]
    exact allBegun_close all _
  · have made : s.step.made = s.made.push ParseTree.missingName := by
      rw [step, made, close_eq, nodes_letGo, nodes_addParent, if_pos untouched.1, failed,
        untouched.1, Nat.sub_self]
      rfl
    have pending : s.step.pending = option.broken :: around := by
      rw [step, close_eq, letGo, if_pos failed]
      rfl
    have size : s.step.nodes.size = s.nodes.size + 1 :=
      (congrArg ParseTree.size made).trans ParseTree.size_push
    refine ⟨closed, ?_⟩
    rw [pending]
    refine .nameless hoption (by rw [size]; exact congrArg (· + 1) hstart.1) rfl ?_ ?_
    · rw [made, show option.broken.start = s.made.size from hstart.1]
      exact ParseTree.node?_push_self
    · refine all.mono ?_
      rw [step]
      show ({ s with pending := option :: around } : ParseState).nodes.toList <+: _
      exact prefix_nodes_close (some .optionName)

/-- An option whose name is empty stands for the token in front of which it was looked for. -/
theorem rooted_nameless (h : s.pending = top :: below) (anchored : s.made.Anchored)
    (goal : top.goal = .listOptionAfterName) (start : top.start + 1 = s.nodes.size)
    (failed : top.failed = true) (name : s.made.node? top.start = some ParseTree.missingName)
    (all : s.AllBegun below) : s.step.Rooted := by
  have step : s.step = ({ s with pending := below }).close top (some (.declaration .option)) := by
    rw [step_of_pending h, pursue, goal]
    simp only [listOptionAfterName, if_pos failed]
    rfl
  have made : s.step.made = s.made.push ⟨some top.origin.token, 2, true,
      some (.declaration .option)⟩ := by
    rw [step, made, close_eq, nodes_letGo, nodes_addParent, if_neg (by dsimp only; omega), failed,
      show s.nodes.size - top.start + 1 = 2 by omega]
    rfl
  have size : s.made.size = s.nodes.size := rfl
  refine .of_allBegun ?_ ?_
  · rw [made]
    refine anchored.push fun _ _ _ => .inr ⟨?_, ?_, ?_, ?_⟩
    · rw [ParseTree.kind?, ParseTree.node?_push_self]
      rfl
    · rw [ParseTree.sizeAt, ParseTree.node?_push_self]
      rfl
    · rw [ParseTree.isFailed, ParseTree.node?_push_self]
      rfl
    · rw [show s.made.size - 1 = top.start by omega, ParseTree.node?_push_of_lt (by omega), name]
  · rw [step]
    exact allBegun_close all _

end ParseState

/-! ## Steps and runs -/

/-- In a part of the name of an option a token is read or not, but none behind the part. -/
theorem Ends.left_eq (h : Ends before now t final) (part : now.goal.part = .optionNamePart) :
    final.left = t.left := by
  cases h with
  | separate goal | junk failed goal | closeBody kind goal =>
    rw [goal] at part
    cases part
  | cutBody => rw [left, cursor_letGo]; split <;> rfl
  | pass => rw [left, cursor_letGo, left]
  | close | terminate | closeScope => exact congrArg (fun c => c.rest.length) (cursor_close ..)
  | _ => rfl

/-- A goal causes many steps without reading only if it begins with an option or its name. -/
theorem Goal.cost_le_one {goal : Goal} (h : goal ≠ .listOption) (h' : goal ≠ .optionName) :
    goal.cost ≤ 1 := by
  cases goal <;> first | exact absurd rfl h | exact absurd rfl h' | simp [cost, eager, steps]

section

variable {top : Pending} {below : List Pending}

/-- Every construct on the stack has begun, or will have begun when something has been read. -/
def ParseState.Stands (s : ParseState) (pending : List Pending) : Prop :=
  ∀ entry ∈ pending, entry.goal.part ≠ .document → s.Begun entry ∨ s.Untouched entry

theorem ParseState.AllBegun.stands (h : s.AllBegun pending) : s.Stands pending :=
  fun entry hentry inner => .inl (h entry hentry inner)

/-- When something has been read, everything on the stack has begun. -/
theorem Moves.rooted_of_read (moves : Moves entry s now t) (ends : Ends s.left now t final)
    (anchored : s.made.Anchored) (stands : s.Stands (entry :: s.pending))
    (read : t.left < s.left) : final.Rooted := by
  obtain ⟨held, below⟩ := List.forall_mem_cons.mp stands
  have begun {other : Pending} (hother : s.Begun other ∨ s.Untouched other) : t.Begun other :=
    moves.onward.begun moves.prefix_nodes read hother
  refine ends.rooted (moves.anchored anchored) ?_ (.inl fun inner => ?_)
  · rw [moves.pending_eq]
    exact fun other hother inner => begun (below other hother inner)
  · rw [moves.goal_eq] at inner
    rcases moves.entry_eq with rfl | rfl <;> exact begun (held inner)

/-- A step in which everything has begun, or all that is pursued is fresh. -/
theorem Moves.rooted (moves : Moves entry s now t) (ends : Ends s.left now t final)
    (anchored : s.made.Anchored) (below : s.AllBegun s.pending)
    (held : (entry.goal.part ≠ .document → s.Begun entry) ∨
      (s.Untouched entry ∧ entry.goal.cost ≤ 1)) : final.Rooted := by
  have hbelow : t.AllBegun t.pending := by
    rw [moves.pending_eq]
    exact below.mono moves.prefix_nodes
  rcases held with begun | ⟨untouched, cost⟩
  · refine ends.rooted (moves.anchored anchored) hbelow (.inl fun inner => ?_)
    rw [moves.goal_eq] at inner
    rcases moves.entry_eq with rfl | rfl <;> exact (begun inner).mono moves.prefix_nodes
  · rcases moves.onward with ⟨nodes, cursor⟩ | ⟨read, -⟩
    · refine ends.rooted (moves.anchored anchored) hbelow (.inr ⟨?_, ?_, ?_⟩)
      · rw [Untouched, nodes, position, cursor]
        rcases moves.entry_eq with rfl | rfl <;> exact untouched
      · rw [left, left, cursor]
      · rwa [moves.goal_eq]
    · refine moves.rooted_of_read ends anchored ?_ read
      exact List.forall_mem_cons.mpr ⟨fun _ => .inr untouched, below.stands⟩

theorem Moves.rooted_of_eager (moves : Moves entry s now t) (ends : Ends s.left now t final)
    (anchored : s.made.Anchored) (eager : entry.goal.eager = true)
    (stands : s.Stands (entry :: s.pending)) : final.Rooted := by
  rcases moves.onward with ⟨nodes, cursor⟩ | ⟨read, -⟩
  · have hleft : s.left = t.left := by rw [left, left, cursor]
    have same {other : Pending} (hother : s.Begun other ∨ s.Untouched other) :
        t.Begun other ∨ t.Untouched other := by
      rwa [Begun, Untouched, made, nodes, position, cursor]
    rw [hleft] at ends
    refine ends.rooted_of_eager (moves.anchored anchored) (by rwa [moves.goal_eq]) ?_
    obtain ⟨held, below⟩ := List.forall_mem_cons.mp stands
    refine List.forall_mem_cons.mpr ⟨fun inner => ?_, fun other hother inner => ?_⟩
    · rw [moves.goal_eq] at inner
      rcases moves.entry_eq with rfl | rfl <;> exact same (held inner)
    · rw [moves.pending_eq] at hother
      exact same (below other hother inner)
  · exact moves.rooted_of_read ends anchored stands read

namespace ParseState

theorem BehindName.stands (h : s.BehindName below) : s.Stands below := by
  rcases h with all | ⟨option, around, rfl, -, untouched, all⟩
  · exact all.stands
  · exact List.forall_mem_cons.mpr ⟨fun _ => .inr untouched, all.stands⟩

/-- A part of the name of an option reads a token, or the name remains empty. -/
theorem rooted_optionNamePart {name : Pending} (h : s.pending = top :: name :: below)
    (sound : Sound s) (anchored : s.made.Anchored) (goal : top.goal = .optionNamePart)
    (untouched : s.Untouched top) (around : name.goal = .optionNameEnd)
    (unnamed : s.Untouched name) (behind : s.BehindName below) : s.step.Rooted := by
  have stands : s.Stands (top :: name :: below) := List.forall_mem_cons.mpr
    ⟨fun _ => .inr untouched, List.forall_mem_cons.mpr ⟨fun _ => .inr unnamed, behind.stands⟩⟩
  obtain ⟨other, t, -, -, -, hs, now, u, moves, ends⟩ :=
    sound.handled (by rw [h]; exact List.cons_ne_nil _ _)
  have step : s.step = ({ s with pending := name :: below } : ParseState).optionNamePart := by
    rw [step_of_pending h, pursue, goal]
  rcases optionNamePart_cases { s with pending := name :: below } with read | missing
  · rw [hs] at h
    obtain ⟨rfl, hbelow⟩ := List.cons.inj h
    have hleft : s.step.left = u.left := ends.left_eq (by rw [moves.goal_eq, goal]; rfl)
    refine moves.rooted_of_read ends (by rw [hs] at anchored; exact anchored) ?_ ?_
    · rw [hbelow]
      rw [hs] at stands
      exact stands
    · rw [← hleft, step]
      rw [hs] at read ⊢
      exact read
  · rw [step, missing]
    exact ⟨anchored, .unnamed around unnamed rfl behind⟩

/-- A step keeps the nodes at their first tokens. -/
theorem Rooted.step (h : s.Rooted) (sound : Sound s) : s.step.Rooted := by
  by_cases running : s.pending = []
  · rwa [ParseState.step, running]
  · obtain ⟨top, t, -, -, -, hs, now, u, moves, ends⟩ := sound.handled running
    have hpending : s.pending = top :: t.pending := by rw [hs]
    have anchored : t.made.Anchored := by
      have anchored := h.anchored
      rwa [hs] at anchored
    have begun {pending : List Pending} (all : s.AllBegun pending) : t.AllBegun pending := by
      rwa [hs] at all
    have opening := h.opening
    rw [hpending] at opening
    generalize hbelow : t.pending = below at opening hpending
    cases opening with
    | begun all =>
      obtain ⟨held, around⟩ := allBegun_cons.mp (begun all)
      exact moves.rooted ends anchored (hbelow ▸ around) (.inl held)
    | eager reads stand =>
      rw [hs, ← hbelow] at stand
      exact moves.rooted_of_eager ends anchored reads stand
    | fresh untouched all =>
      by_cases listOption : top.goal = .listOption
      · exact rooted_listOption hpending h.anchored listOption untouched all
      · by_cases optionName : top.goal = .optionName
        · exact rooted_optionName hpending h.anchored optionName untouched (.inl all)
        · rw [hs] at untouched
          exact moves.rooted ends anchored (hbelow ▸ begun all)
            (.inr ⟨untouched, Goal.cost_le_one listOption optionName⟩)
    | name goal untouched behind =>
      exact rooted_optionName hpending h.anchored goal untouched behind
    | part goal untouched around unnamed behind =>
      exact rooted_optionNamePart hpending sound h.anchored goal untouched around unnamed behind
    | unnamed goal untouched failed behind =>
      exact rooted_unnamed hpending h.anchored goal untouched failed behind
    | nameless goal start failed name all =>
      exact rooted_nameless hpending h.anchored goal start failed name all

end ParseState

end

theorem ParseState.rooted_initial (cursor : Cursor) (fragment : Fragment) (syncLimit : Nat) :
    (initial cursor fragment syncLimit).Rooted := by
  refine .of_allBegun (fun id token inner htoken => ?_) (allBegun_cons.mpr ⟨?_, by simp [AllBegun]⟩)
  · exact absurd (ParseTree.lt_size_of_tokenAt? htoken) (Nat.not_lt_zero _)
  · cases fragment <;> exact fun inner => absurd rfl inner

/-- In the tree of every parse, a node with others below it stands for the token of the first leaf
of its subtree, if for any: the construct has read that token. The only exception is an option in a
list that has not even a name, which stands for the token in front of which the name is missing. -/
theorem anchored_parse (buffer : TokenBuffer) (fragment : Fragment) (syncLimit : Nat)
    (nonempty : buffer.tokens ≠ #[]) :
    ∃ parsed, buffer.parse fragment syncLimit = .ok parsed ∧
      ∀ id token, 1 < parsed.tree.sizeAt id → parsed.tree.tokenAt? id = some token →
        parsed.tree.tokenAt? (parsed.tree.firstOf id) = some token ∨ parsed.tree.LacksName id := by
  have rooted := (Leads.run _ (stepBound buffer.cursor.rest.length)).keeps_sound Rooted
    (buffer.sound_initial fragment syncLimit) (rooted_initial buffer.cursor fragment syncLimit)
    fun u sound rooted => rooted.step sound
  refine ⟨buffer.parseTokens fragment syncLimit, ?_, rooted.anchored⟩
  rw [TokenBuffer.parse, if_neg (by simpa using nonempty)]

/-- A field with an empty list of options. -/
def TokenBuffer.emptyOptions : TokenBuffer :=
  ⟨"message M \x7b int32 x = 1 []; \x7d",
    #[⟨.keyword .kwMessage, 0, 0, 7⟩, ⟨.identifier, 0, 8, 1⟩, ⟨.opener .brace, 0, 10, 1⟩,
      ⟨.scalar .int32, 0, 12, 5⟩, ⟨.identifier, 0, 18, 1⟩, ⟨.equals, 0, 20, 1⟩,
      ⟨.intLiteral, 0, 22, 1⟩, ⟨.opener .square, 0, 24, 1⟩, ⟨.closer .square, 0, 25, 1⟩,
      ⟨.semicolon, 0, 26, 1⟩, ⟨.closer .brace, 0, 28, 1⟩, ⟨.eof, 0, 29, 0⟩], #[⟨0, 29⟩]⟩

theorem anchored_parse_emptyOptions : TokenBuffer.emptyOptions.tokens ≠ #[] ∧
    ∃ parsed, TokenBuffer.emptyOptions.parse .file 10 = .ok parsed ∧
      ∀ id token, 1 < parsed.tree.sizeAt id → parsed.tree.tokenAt? id = some token →
        parsed.tree.tokenAt? (parsed.tree.firstOf id) = some token ∨ parsed.tree.LacksName id :=
  ⟨by decide, anchored_parse TokenBuffer.emptyOptions .file 10 (by decide)⟩

/-- Between the brackets of an empty list there is an option that stands for the closing bracket,
which is not below it and the token of a later leaf. -/
theorem option_claims_bracket_emptyOptions :
    ∃ parsed, TokenBuffer.emptyOptions.parse .file 10 = .ok parsed ∧
      1 < parsed.tree.sizeAt 9 ∧ parsed.tree.tokenAt? 9 = some 8 ∧
      parsed.tree.tokenAt? (parsed.tree.firstOf 9) = none ∧
      parsed.tree.node? 10 = some ⟨some 8, 1, false, none⟩ := by
  have significant : TokenBuffer.emptyOptions.significant = [⟨0, .keyword .kwMessage, 0, 0, none⟩,
      ⟨1, .identifier, 0, 8, none⟩, ⟨2, .opener .brace, 0, 10, none⟩,
      ⟨3, .scalar .int32, 0, 12, none⟩, ⟨4, .identifier, 0, 18, none⟩,
      ⟨5, .equals, 0, 20, none⟩, ⟨6, .intLiteral, 0, 22, none⟩,
      ⟨7, .opener .square, 0, 24, none⟩, ⟨8, .closer .square, 0, 25, none⟩,
      ⟨9, .semicolon, 0, 26, none⟩, ⟨10, .closer .brace, 0, 28, none⟩] := by
    decide +kernel
  refine ⟨TokenBuffer.emptyOptions.parseTokens .file 10, rfl, ?_⟩
  rw [TokenBuffer.parseTokens, TokenBuffer.cursor, significant]
  exact ⟨by cbv, by cbv, by cbv, by cbv⟩

end ProtoFront
