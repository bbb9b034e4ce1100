import ProtoFront.Proofs.Parse.CommonGoals
import ProtoFront.Proofs.Parse.Tiling

/-!
# Package statements in the tree

A package statement is a root of the tree, whatever the input, because the goal for it lies right
above the goal for a file, and nothing is ever put over what it makes. Names with more than one part
are found under package statements only, so every other declaration is named by one token. And no
name is without a token. All three are kept by every step (`ParseState.Tidy`).
-/

namespace ProtoFront

open ParseState

/-! ## Goals for packages -/

/-- Which goals may lie above which. -/
inductive Goal.Placed : Goal → List Goal → Prop
  | common {goal : Goal} {below : List Goal} : goal.isCommon = true → Placed goal below
  | file : Placed .file []
  | package : Placed .package [.file]
  | packageEnd : Placed .packageEnd [.file]
  | name : Placed (.qualifiedName (some .name)) [.packageEnd, .file]
  | nameEnd : Placed (.qualifiedNameEnd (some .name)) [.packageEnd, .file]

/-- Every goal on the stack lies where it may. -/
def Stacked : List Goal → Prop
  | [] => True
  | goal :: below => goal.Placed below ∧ Stacked below

theorem Goal.part_ne_document {goal : Goal} (common : goal.isCommon = true) :
    goal.part ≠ .document := by
  intro document
  rcases goal.cases_of_document document with rfl | ⟨kind, rfl⟩ <;> cases common

theorem Goal.ne_packageEnd {goal : Goal} (common : goal.isCommon = true) : goal ≠ .packageEnd := by
  rintro rfl
  cases common

theorem Goal.ne_nameEnd {goal : Goal} (common : goal.isCommon = true) :
    goal ≠ .qualifiedNameEnd (some .name) := by
  rintro rfl
  cases common

/-- What begins a statement of a file. -/
theorem Goal.placed_of_topLevel? {kind : TokenKind} {goal : Goal}
    (h : topLevel? kind = some goal) : goal.Placed [.file] := by
  unfold topLevel? at h
  split at h
  case h_4 =>
    cases h
    exact .package
  case h_10 => cases h
  all_goals
    cases h
    exact .common rfl

theorem Stacked.append {new below : List Goal} (h : Stacked below)
    (common : ∀ goal ∈ new, goal.isCommon = true) : Stacked (new ++ below) := by
  induction new with
  | nil => exact h
  | cons goal rest ih =>
    obtain ⟨first, others⟩ := List.forall_mem_cons.mp common
    exact ⟨.common first, ih others⟩

/-! ## Package statements and dotted names so far -/

/-- Whether a node is a package statement. -/
def Node.isPackage (node : Node) : Bool := node.kind? == some (.declaration .package)

/-- Whether a node is a name over its parts. -/
def Node.isDotted (node : Node) : Bool := node.kind? == some .name && !node.isLeaf

theorem Node.not_isPackage {node : Node} (common : node.isCommon = true) :
    node.isPackage = false := by
  rw [isPackage, beq_eq_false_iff_ne]
  intro package
  rw [isCommon, package] at common
  cases common

theorem Node.not_isDotted {node : Node} (common : node.isCommon = true) :
    node.isDotted = false := by
  by_contra dotted
  rw [Bool.not_eq_false, isDotted, Bool.and_eq_true_iff, beq_iff_eq, Bool.not_eq_true'] at dotted
  rw [isCommon, dotted.1, dotted.2] at common
  cases common

namespace ParseState

variable {s t : ParseState} {entry top : Pending} {node : Node} {goal : Goal} {first start : Nat}

theorem goals_eq (s : ParseState) : s.goals = s.frames.map Prod.fst := by
  rw [goals, frames, List.map_map]
  rfl

/-- All nodes of some sort have numbers below `first`. -/
def Before (test : Node → Bool) (s : ParseState) (first : Nat) : Prop :=
  ∀ id node, s.nodes[id]? = some node → test node = true → id < first

theorem before_size (test : Node → Bool) (s : ParseState) : s.Before test s.nodes.size :=
  fun _ _ hnode _ => (Array.getElem?_eq_some_iff.mp hnode).1

theorem Before.mono {later : Nat} (h : s.Before test first) (le : first ≤ later) :
    s.Before test later := fun id node hnode htest => (h id node hnode htest).trans_le le

/-- What is common is of neither sort. -/
theorem Builds.before {floor : Nat} (h : Builds start s t) (before : s.Before test floor)
    (common : ∀ {node : Node}, node.isCommon = true → test node = false) :
    t.Before test floor := by
  intro id node hnode htest
  by_cases hold : id < s.nodes.size
  · rw [h.kept id hold] at hnode
    exact before id node hnode htest
  · have fresh := common (h.made id node (Nat.not_lt.mp hold) hnode).1
    rw [fresh] at htest
    cases htest

/-- No goal waits for what a package statement, or a dotted name, is a part of, except for the
goals that such a part is for. -/
structure Clear (s : ParseState) (frame : Goal × Nat) : Prop where
  made : frame.2 ≤ s.nodes.size
  read : frame.1 = .qualifiedNameEnd (some .name) → frame.2 < s.nodes.size
  packages : frame.1.part ≠ .document → s.Before Node.isPackage frame.2
  dotted : frame.1.part ≠ .document → frame.1 ≠ .packageEnd → s.Before Node.isDotted frame.2

/-- Package statements are roots so far, dotted names are in package statements only, and names have
tokens. -/
structure Tidy (s : ParseState) : Prop where
  stacked : Stacked s.goals
  clear : ∀ frame ∈ s.frames, s.Clear frame
  named : ∀ (id : Nat) (node : Node), s.nodes[id]? = some node → node.kind? = some .name →
    node.token? ≠ none
  roots : ∀ (id : Nat) (node : Node) (outer : Nat) (upper : Node), s.nodes[id]? = some node →
    node.isPackage = true → s.nodes[outer]? = some upper → id < outer → id + upper.size ≤ outer
  within : ∀ (id : Nat) (node : Node) (outer : Nat) (upper : Node), s.nodes[id]? = some node →
    node.isDotted = true → s.nodes[outer]? = some upper → id < outer →
      id + upper.size ≤ outer ∨ upper.isPackage = true

/-! ## Adding nodes -/

theorem Builds.named (h : Builds start s t)
    (named : ∀ (id : Nat) (node : Node), s.nodes[id]? = some node → node.kind? = some .name →
      node.token? ≠ none)
    (id : Nat) (node : Node) (hnode : t.nodes[id]? = some node) (hname : node.kind? = some .name) :
    node.token? ≠ none := by
  by_cases hold : id < s.nodes.size
  · rw [h.kept id hold] at hnode
    exact named id node hnode hname
  · have common := (h.made id node (Nat.not_lt.mp hold) hnode).1
    rw [Node.isCommon, hname] at common
    exact Option.isSome_iff_ne_none.mp (Bool.and_eq_true_iff.mp common).2

/-- When nodes are built behind all that pass a test, those that do were there before, and what is
made now begins behind them. -/
theorem Builds.apart (h : Builds first s t) {test : Node → Bool} (before : s.Before test first)
    (common : ∀ {node : Node}, node.isCommon = true → test node = false) {id outer : Nat}
    {node upper : Node} (hnode : t.nodes[id]? = some node) (htest : test node = true)
    (hover : t.nodes[outer]? = some upper) :
    s.nodes[id]? = some node ∧ (s.nodes[outer]? = some upper ∨ id + upper.size ≤ outer) := by
  have hid : id < first := h.before before common id node hnode htest
  rw [h.kept id (hid.trans_le h.begun)] at hnode
  refine ⟨hnode, ?_⟩
  by_cases hold : outer < s.nodes.size
  · rw [h.kept outer hold] at hover
    exact .inl hover
  · have span := (h.made outer upper (Nat.not_lt.mp hold) hover).2
    exact .inr (by omega)

/-- Nodes over what is behind all package statements and dotted names do no harm. -/
theorem Tidy.builds (h : Tidy s) (builds : Builds first s t)
    (packages : s.Before Node.isPackage first) (dotted : s.Before Node.isDotted first) :
    Tidy t := by
  obtain ⟨new, hnew, hcommon⟩ := builds.frames
  refine ⟨?_, ?_, builds.named h.named, ?_, ?_⟩
  · rw [goals_eq, hnew, List.map_append, ← goals_eq]
    refine h.stacked.append fun goal hgoal => ?_
    obtain ⟨frame, hframe, rfl⟩ := List.mem_map.mp hgoal
    exact (hcommon frame hframe).1
  · intro frame hframe
    rw [hnew, List.mem_append] at hframe
    rcases hframe with hlate | hearly
    · obtain ⟨common, hstart, hsize⟩ := hcommon frame hlate
      refine ⟨hsize, fun name => absurd name (Goal.ne_nameEnd common), fun _ => ?_, fun _ _ => ?_⟩
      · exact (builds.before packages Node.not_isPackage).mono hstart
      · exact (builds.before dotted Node.not_isDotted).mono hstart
    · obtain ⟨made, read, hpackages, hdotted⟩ := h.clear frame hearly
      refine ⟨made.trans builds.grows, fun name => (read name).trans_le builds.grows,
        fun inner => ?_, fun inner other => ?_⟩
      · exact builds.before (hpackages inner) Node.not_isPackage
      · exact builds.before (hdotted inner other) Node.not_isDotted
  · intro id node outer upper hnode package hover hlt
    obtain ⟨hid, hold | hspan⟩ := builds.apart packages Node.not_isPackage hnode package hover
    · exact h.roots id node outer upper hid package hold hlt
    · exact hspan
  · intro id node outer upper hnode isDotted hover hlt
    obtain ⟨hid, hold | hspan⟩ := builds.apart dotted Node.not_isDotted hnode isDotted hover
    · exact h.within id node outer upper hid isDotted hold hlt
    · exact .inl hspan

/-- Leaves, and whatever is over nothing else, do no harm. -/
theorem Tidy.adds (h : Tidy s) (builds : Builds s.nodes.size s t) : Tidy t :=
  h.builds builds (s.before_size _) (s.before_size _)

/-! ## The stack -/

/-- A goal that lies where it may comes on top. -/
theorem Tidy.above (h : Tidy s) (frame : Goal × Nat) (nodes : t.nodes = s.nodes)
    (goals : t.goals = frame.1 :: s.goals) (frames : t.frames = frame :: s.frames)
    (placed : frame.1.Placed s.goals) (clear : s.Clear frame) : Tidy t := by
  have clears (other : Goal × Nat) (hother : s.Clear other) : t.Clear other := by
    obtain ⟨made, read, packages, dotted⟩ := hother
    refine ⟨?_, ?_, ?_, ?_⟩
    · rwa [nodes]
    · rwa [nodes]
    · rwa [Before, nodes]
    · rwa [Before, nodes]
  refine ⟨?_, fun other hother => clears other ?_, ?_, ?_, ?_⟩
  · rw [goals]
    exact ⟨placed, h.stacked⟩
  · rw [frames] at hother
    rcases List.mem_cons.mp hother with rfl | hbelow
    · exact clear
    · exact h.clear other hbelow
  · rw [nodes]
    exact h.named
  · rw [nodes]
    exact h.roots
  · rw [nodes]
    exact h.within

theorem Tidy.pushGoal (h : Tidy s) (placed : goal.Placed s.goals)
    (begins : goal ≠ .qualifiedNameEnd (some .name)) : Tidy (s.pushGoal goal) := by
  refine h.above (goal, s.nodes.size) rfl rfl rfl placed ?_
  exact ⟨le_rfl, fun name => absurd name begins, fun _ => s.before_size _,
    fun _ _ => s.before_size _⟩

theorem Tidy.resume (h : Tidy s) (placed : goal.Placed s.goals)
    (clear : s.Clear (goal, entry.start)) : Tidy (s.resume entry goal) :=
  h.above (goal, entry.start) rfl rfl rfl placed clear

/-! ## Closing a package statement or a name -/

/-- A node of the array with a new one at its end is the new one or was there before. -/
theorem getElem?_nodes_push (nodes : t.nodes = s.nodes.push node) {id : Nat} {other : Node}
    (hother : t.nodes[id]? = some other) :
    id = s.nodes.size ∧ other = node ∨ id < s.nodes.size ∧ s.nodes[id]? = some other := by
  rw [nodes, Array.getElem?_push] at hother
  split at hother
  case isTrue hlast => exact .inl ⟨hlast, (Option.some.inj hother).symm⟩
  case isFalse => exact .inr ⟨(Array.getElem?_eq_some_iff.mp hother).1, hother⟩

/-- What holds of a node and any node behind it holds with a new node at the end too, if it holds of
the new node and those in front of it. -/
theorem forall_behind_push (nodes : t.nodes = s.nodes.push node) {test : Node → Bool}
    {holds : Nat → Nat → Node → Prop}
    (old : ∀ (id : Nat) (other : Node) (outer : Nat) (upper : Node), s.nodes[id]? = some other →
      test other = true → s.nodes[outer]? = some upper → id < outer → holds id outer upper)
    (new : ∀ (id : Nat) (other : Node), s.nodes[id]? = some other → test other = true →
      holds id s.nodes.size node)
    (id : Nat) (other : Node) (outer : Nat) (upper : Node) (hother : t.nodes[id]? = some other)
    (htest : test other = true) (hupper : t.nodes[outer]? = some upper) (hlt : id < outer) :
    holds id outer upper := by
  rcases getElem?_nodes_push nodes hupper with ⟨rfl, rfl⟩ | ⟨hsize, oldUpper⟩
  · rcases getElem?_nodes_push nodes hother with ⟨rfl, -⟩ | ⟨-, oldOther⟩
    · exact absurd hlt (Nat.lt_irrefl _)
    · exact new id other oldOther htest
  · rcases getElem?_nodes_push nodes hother with ⟨rfl, -⟩ | ⟨-, oldOther⟩
    · omega
    · exact old id other outer upper oldOther htest oldUpper hlt

/-- A node over what is behind all package statements. If it is one itself, or a dotted name, no
goal is left but those that it is a part for. -/
theorem Tidy.push (h : Tidy s) (nodes : t.nodes = s.nodes.push node) (frames : t.frames = s.frames)
    (named : node.kind? = some .name → node.token? ≠ none)
    (packages : ∀ id, id < start → id + node.size ≤ s.nodes.size)
    (before : s.Before Node.isPackage start)
    (dotted : node.isPackage = true ∨ s.Before Node.isDotted start)
    (package : node.isPackage = true → ∀ goal ∈ s.goals, goal.part = .document)
    (name : node.isDotted = true → ∀ goal ∈ s.goals, goal.part = .document ∨ goal = .packageEnd) :
    Tidy t := by
  have spared {test : Node → Bool} {floor : Nat} (hbefore : s.Before test floor)
      (hnode : test node = false) : t.Before test floor := by
    intro id other hother htest
    rcases getElem?_nodes_push nodes hother with ⟨-, rfl⟩ | ⟨-, hold⟩
    · rw [hnode] at htest
      cases htest
    · exact hbefore id other hold htest
  refine ⟨?_, fun frame hframe => ?_, fun id other hother hname => ?_, ?_, ?_⟩
  · rw [goals_eq, frames, ← goals_eq]
    exact h.stacked
  · rw [frames] at hframe
    obtain ⟨made, read, hpackages, hdotted⟩ := h.clear frame hframe
    have hgoal : frame.1 ∈ s.goals := by
      rw [goals_eq]
      exact List.mem_map_of_mem hframe
    have grown : t.nodes.size = s.nodes.size + 1 := by rw [nodes, Array.size_push]
    refine ⟨by omega, fun hend => ?_, fun inner => ?_, fun inner other => ?_⟩
    · have := read hend
      omega
    · refine spared (hpackages inner) (Bool.eq_false_iff.mpr fun hnode => ?_)
      exact inner (package hnode frame.1 hgoal)
    · refine spared (hdotted inner other) (Bool.eq_false_iff.mpr fun hnode => ?_)
      exact (name hnode frame.1 hgoal).elim inner other
  · rcases getElem?_nodes_push nodes hother with ⟨-, rfl⟩ | ⟨-, hold⟩
    · exact named hname
    · exact h.named id other hold hname
  · refine forall_behind_push nodes h.roots fun id other hother isPackage => ?_
    exact packages id (before id other hother isPackage)
  · refine forall_behind_push nodes h.within fun id other hother isDotted => ?_
    exact dotted.symm.imp_left fun hdotted => packages id (hdotted id other hother isDotted)

theorem nodes_close (s : ParseState) (entry : Pending) (tag? : Option NodeKind) :
    (s.close entry tag?).nodes = s.nodes.push
      ⟨if entry.start = s.nodes.size then none else some entry.origin.token,
        s.nodes.size - entry.start + 1, entry.failed, tag?⟩ := by
  rw [close_eq, nodes_letGo, nodes_addParent]

theorem Tidy.closePackage (h : Tidy s) (goals : s.goals = [.file])
    (packages : s.Before Node.isPackage entry.start) (made : entry.start ≤ s.nodes.size) :
    Tidy (s.close entry (some (.declaration .package))) := by
  refine h.push (s.nodes_close entry _) (s.frames_close entry _) ?_ ?_ packages (.inl rfl) ?_ ?_
  · rintro ⟨⟩
  · intro id hid
    dsimp only
    omega
  · intro _ goal hgoal
    rw [goals, List.mem_singleton] at hgoal
    rw [hgoal]
    rfl
  · rintro ⟨⟩

theorem Tidy.closeName (h : Tidy s) (goals : s.goals = [.packageEnd, .file])
    (packages : s.Before Node.isPackage entry.start) (dotted : s.Before Node.isDotted entry.start)
    (read : entry.start < s.nodes.size) : Tidy (s.close entry (some .name)) := by
  refine h.push (s.nodes_close entry _) (s.frames_close entry _) ?_ ?_ packages (.inr dotted) ?_ ?_
  · intro _
    rw [if_neg read.ne]
    exact Option.some_ne_none _
  · intro id hid
    dsimp only
    omega
  · rintro ⟨⟩
  · intro _ goal hgoal
    rw [goals] at hgoal
    rcases List.mem_cons.mp hgoal with rfl | hfile
    · exact .inr rfl
    · rw [List.mem_singleton.mp hfile]
      exact .inl rfl

/-! ## The goals for packages -/

/-- A goal for all of the input is clear of everything. -/
theorem clear_file {floor : Nat} (made : floor ≤ s.nodes.size) : s.Clear (.file, floor) :=
  ⟨made, by simp, fun inner => absurd rfl inner, fun inner => absurd rfl inner⟩

theorem tidy_file (h : Tidy s) (goals : s.goals = []) (clear : s.Clear (.file, entry.start)) :
    Tidy (s.file entry) := by
  have here : Builds s.nodes.size s s := .refl le_rfl
  -- a leaf is made, or nothing, and the file goes on
  have onward {t : ParseState} (builds : Builds s.nodes.size s t) (hgoals : t.goals = []) :
      Tidy (t.resume entry .file) := by
    refine (h.adds builds).resume ?_ (clear_file (clear.made.trans builds.grows))
    rw [hgoals]
    exact .file
  rw [file]
  split
  case h_1 goal hgoal =>
    refine (onward here goals).pushGoal ?_ ?_
    · rw [show (s.resume entry .file).goals = .file :: s.goals from rfl, goals]
      exact Goal.placed_of_topLevel? hgoal
    · rintro rfl
      cases Goal.placed_of_topLevel? hgoal with
      | common common => cases common
  case h_2 =>
    split
    case h_1 => exact h
    case h_2 => exact onward here.take ((goals_addLeaf none false).trans goals)
    case h_3 =>
      have reported : Builds s.nodes.size s
          (if s.reportedHere then s else s.report [.topLevelStatement]) := by
        split
        · exact here
        · exact here.report _
      refine onward reported.discard ((goals_addLeaf none true).trans ?_)
      split
      · exact goals
      · exact goals

/-- A package statement that fails is closed behind what is skipped. -/
theorem tidy_failPackage (h : Tidy s) (goals : s.goals = [.file])
    (packages : s.Before Node.isPackage entry.start) (made : entry.start ≤ s.nodes.size) :
    Tidy (s.failStatement entry .package) := by
  have closed {t : ParseState} (builds : Builds s.nodes.size s t)
      (pending : t.pending = s.pending) :
      Tidy (t.close entry.broken (some (.declaration .package))) := by
    refine (h.adds builds).closePackage ?_ ?_ (made.trans builds.grows)
    · rw [ParseState.goals, pending]
      exact goals
    · exact builds.before packages Node.not_isPackage
  rw [failStatement]
  split
  · exact closed (Builds.skipStatement (.refl le_rfl) _) (s.pending_skipStatement _)
  · exact closed (Builds.recoverStatement (.refl le_rfl) _) (s.pending_recoverStatement _)

theorem tidy_package (h : Tidy s) (goals : s.goals = [.file])
    (clear : s.Clear (.package, entry.start)) : Tidy (s.package entry) := by
  have taken : Builds s.nodes.size s s.take := Builds.take (.refl le_rfl)
  have opened : Tidy s.take := h.adds taken
  have hgoals : s.take.goals = [.file] := (goals_addLeaf none false).trans goals
  have made : entry.start ≤ s.take.nodes.size := clear.made.trans taken.grows
  have packages : s.take.Before Node.isPackage entry.start :=
    taken.before (clear.packages (by rintro ⟨⟩)) Node.not_isPackage
  rw [package, require]
  split
  case isTrue =>
    -- the statement waits for its name, which is going to be a part of it
    have waiting : Tidy (s.take.resume entry .packageEnd) := by
      refine opened.resume ?_
        ⟨made, by rintro ⟨⟩, fun _ => packages, fun _ other => absurd rfl other⟩
      rw [hgoals]
      exact .packageEnd
    refine waiting.pushGoal ?_ (by rintro ⟨⟩)
    rw [show (s.take.resume entry .packageEnd).goals = .packageEnd :: s.take.goals from rfl, hgoals]
    exact .name
  case isFalse =>
    exact tidy_failPackage (opened.adds (Builds.report (.refl le_rfl) _)) hgoals packages made

theorem tidy_packageEnd (h : Tidy s) (goals : s.goals = [.file])
    (clear : s.Clear (.packageEnd, entry.start)) : Tidy (s.statementEnd .package entry) := by
  have packages : s.Before Node.isPackage entry.start := clear.packages (by rintro ⟨⟩)
  rw [statementEnd]
  split
  case isTrue => exact tidy_failPackage h goals packages clear.made
  case isFalse =>
    rw [endStatement, expect, require]
    split
    case isTrue =>
      have taken : Builds s.nodes.size s s.take := Builds.take (.refl le_rfl)
      refine (h.adds taken).closePackage ((goals_addLeaf none false).trans goals) ?_
        (clear.made.trans taken.grows)
      exact taken.before packages Node.not_isPackage
    case isFalse =>
      exact tidy_failPackage (h.adds (Builds.report (.refl le_rfl) _)) goals packages clear.made

theorem tidy_name (h : Tidy s) (goals : s.goals = [.packageEnd, .file])
    (clear : s.Clear (.qualifiedName (some .name), entry.start))
    (word : s.kind.isIdentifierLike = true) : Tidy (s.qualifiedName (some .name) entry) := by
  have first : s.kind ≠ .dot := by
    intro dot
    rw [dot] at word
    cases word
  rw [qualifiedName, if_neg first]
  split
  case isTrue => exact h.adds (Builds.addLeaf (.refl le_rfl) (some .name) false (.inr rfl))
  case isFalse =>
    have taken : Builds s.nodes.size s s.take := Builds.take (.refl le_rfl)
    have named : Tidy s.take := h.adds taken
    have hgoals : s.take.goals = [.packageEnd, .file] := (goals_addLeaf none false).trans goals
    have packages : s.take.Before Node.isPackage entry.start :=
      taken.before (clear.packages (by rintro ⟨⟩)) Node.not_isPackage
    have dotted : s.take.Before Node.isDotted entry.start :=
      taken.before (clear.dotted (by rintro ⟨⟩) (by rintro ⟨⟩)) Node.not_isDotted
    have read : entry.start < s.take.nodes.size := by
      have made := clear.made
      have there : s.kind ≠ .eof := by
        intro eof
        rw [eof] at word
        cases word
      obtain ⟨next, rest, hrest⟩ := exists_rest there
      rw [take, s.nodes_addLeaf none false hrest, Array.size_push]
      exact Nat.lt_succ_of_le made
    rw [qualifiedNameFirst, if_pos word]
    dsimp only
    split
    case isTrue =>
      have waiting : Tidy (s.take.resume entry (.qualifiedNameEnd (some .name))) := by
        refine named.resume ?_ ⟨read.le, fun _ => read, fun _ => packages, fun _ _ => dotted⟩
        rw [hgoals]
        exact .nameEnd
      exact waiting.pushGoal (.common rfl) (by rintro ⟨⟩)
    case isFalse => exact named.closeName hgoals packages dotted read

/-! ## Steps and runs -/

/-- Every step keeps the tree tidy. -/
theorem Tidy.step (h : Tidy s) (sound : Sound s) : Tidy s.step := by
  rcases hpending : s.pending with _ | ⟨top, below⟩
  · rwa [ParseState.step, hpending]
  · obtain ⟨-, pursued⟩ := sound.pursued hpending
    have hgoals : s.goals = top.goal :: below.map Pending.goal := by
      rw [ParseState.goals, hpending, List.map_cons]
    have hframes : s.frames = top.frame :: below.map Pending.frame := by
      rw [ParseState.frames, hpending, List.map_cons]
    have held : Tidy { s with pending := below } := by
      refine ⟨?_, fun frame hframe => ?_, h.named, h.roots, h.within⟩
      · have stacked := h.stacked
        rw [hgoals] at stacked
        exact stacked.2
      · have clear := h.clear frame (by rw [hframes]; exact List.mem_cons_of_mem _ hframe)
        exact ⟨clear.made, clear.read, clear.packages, clear.dotted⟩
    have clear : ParseState.Clear { s with pending := below } (top.goal, top.start) := by
      obtain ⟨made, read, packages, dotted⟩ := h.clear top.frame (by rw [hframes]; exact .head _)
      exact ⟨made, read, packages, dotted⟩
    have placed : top.goal.Placed (ParseState.goals { s with pending := below }) := by
      have stacked := h.stacked
      rw [hgoals] at stacked
      exact stacked.1
    rw [step_of_pending hpending]
    generalize ({ s with pending := below } : ParseState) = t at held clear placed pursued ⊢
    have ready := pursued.ready
    rw [pursue]
    generalize hgoal : top.goal = goal at clear placed ready ⊢
    generalize hbelow : t.goals = goals at placed
    cases placed with
    | common common =>
      subst hgoal
      have inner := Goal.part_ne_document common
      exact held.builds (builds_pursue common clear.made) (clear.packages inner)
        (clear.dotted inner (Goal.ne_packageEnd common))
    | file => exact tidy_file held hbelow clear
    | package => exact tidy_package held hbelow clear
    | packageEnd => exact tidy_packageEnd held hbelow clear
    | name => exact tidy_name held hbelow clear ready
    | nameEnd =>
      exact held.closeName hbelow (clear.packages (by rintro ⟨⟩))
        (clear.dotted (by rintro ⟨⟩) (by rintro ⟨⟩)) (clear.read rfl)

theorem Tidy.run (h : Tidy s) (sound : Sound s) (fuel : Nat) : Tidy (s.run fuel) :=
  sound.run_keeps Tidy h (fun _ sound tidy => tidy.step sound) fuel

theorem tidy_initial (cursor : Cursor) (syncLimit : Nat) :
    Tidy (initial cursor .file syncLimit) := by
  refine ⟨⟨.file, trivial⟩, ?_, ?_, ?_, ?_⟩
  · intro frame hframe
    rw [List.mem_singleton.mp hframe]
    exact clear_file le_rfl
  all_goals
    intro id node
    simp [initial, ParseState.pushGoal]

end ParseState

/-! ## Trees -/

/-- Package statements are roots, and every name stands for a token, which is all of it but in a
package statement. -/
structure ParseTree.Tidy (tree : ParseTree) : Prop where
  roots : ∀ {id}, tree.kind? id = some (.declaration .package) → id ∈ tree.roots
  named : ∀ {id}, tree.kind? id = some .name →
    ∃ token, (tree.node? id).bind Node.token? = some token
  lone : ∀ {id name}, name ∈ tree.children id → tree.kind? name = some .name →
    tree.kind? id ≠ some (.declaration .package) → tree.sizeAt name = 1

/-- The parent of a node is behind it, and over it. -/
theorem ParseTree.Shows.exists_parent {tree : ParseTree} {forest : Forest} {id outer : Nat}
    (shows : tree.Shows 0 forest) (hsize : tree.size = forest.size)
    (hchild : id ∈ tree.children outer) :
    ∃ upper, tree.node? outer = some upper ∧ id < outer ∧ outer < id + upper.size := by
  obtain ⟨hlt, hfirst, habove⟩ := (shows.encloses_child hsize hchild).mpr (.inl rfl)
  obtain ⟨upper, hupper⟩ : ∃ upper, tree.node? outer = some upper :=
    ⟨_, Array.getElem?_eq_getElem hlt⟩
  rw [firstOf, sizeAt, hupper] at hfirst
  refine ⟨upper, hupper, habove, ?_⟩
  simp only [Option.map_some, Option.getD_some] at hfirst
  omega

/-- The tree of a file is tidy, also where the file is broken. -/
theorem TokenBuffer.tidy_parseTokens (buffer : TokenBuffer) (syncLimit : Nat) :
    (buffer.parseTokens .file syncLimit).tree.Tidy := by
  obtain ⟨forest, hsize, shows⟩ := buffer.exists_forest .file syncLimit
  have tidy := (tidy_initial buffer.cursor syncLimit).run (buffer.sound_initial .file syncLimit)
    (stepBound buffer.cursor.rest.length)
  have node_of_kind {id : Nat} {kind : NodeKind}
      (hkind : (buffer.parseTokens .file syncLimit).tree.kind? id = some kind) :
      ∃ node, (buffer.parseTokens .file syncLimit).tree.node? id = some node ∧
        node.kind? = some kind := Option.bind_eq_some_iff.mp hkind
  refine ⟨fun {id} hkind => ?_, fun {id} hkind => ?_, fun {id name} hchild hkind inner => ?_⟩
  · obtain ⟨node, hnode, htag⟩ := node_of_kind hkind
    have hid := ParseTree.lt_size_of_kind hkind
    rw [shows.roots_eq hsize, List.mem_reverse]
    rcases shows.root_or_child (Nat.zero_le id) (by omega) with hroot | ⟨outer, -, hchild⟩
    · exact hroot
    · obtain ⟨upper, hover, hlt, hspan⟩ := shows.exists_parent hsize hchild
      have hpast := tidy.roots id node outer upper hnode (beq_iff_eq.mpr htag) hover hlt
      omega
  · obtain ⟨node, hnode, htag⟩ := node_of_kind hkind
    rw [hnode]
    exact Option.ne_none_iff_exists'.mp (tidy.named id node hnode htag)
  · obtain ⟨node, hnode, htag⟩ := node_of_kind hkind
    obtain ⟨upper, hover, hlt, hspan⟩ := shows.exists_parent hsize hchild
    by_contra branching
    have dotted : node.isDotted = true := by
      rw [ParseTree.sizeAt, hnode] at branching
      rw [Node.isDotted, Bool.and_eq_true_iff, beq_iff_eq, Bool.not_eq_true', Node.isLeaf,
        beq_eq_false_iff_ne]
      exact ⟨htag, branching⟩
    rcases tidy.within name node id upper hnode dotted hover hlt with hpast | package
    · omega
    · refine inner ?_
      rw [ParseTree.kind?, hover]
      exact beq_iff_eq.mp package

end ProtoFront
