import ProtoFront.Proofs.Parse.Frames

/-!
# What a construct may build

Package statements, and names with more than one part that declare something, are made by the goals
for packages alone. Any other goal, whatever it reads and however it fails, makes only common nodes
(`Node.isCommon`), puts none of them over what was there before its construct began, and leaves the
rest to goals that keep to the same (`ParseState.Builds`).
-/

namespace ProtoFront

/-- Kinds of node that have nothing to do with packages. Names do, where they have dots. -/
def NodeKind.isCommon : NodeKind → Bool
  | declaration .package | name => false
  | _ => true

/-- Whether a node is one that goals without a package make. A name is then the leaf of a token. -/
def Node.isCommon (node : Node) : Bool :=
  node.kind?.all NodeKind.isCommon ||
    (node.kind? == some .name && node.isLeaf && node.token?.isSome)

/-- Whether a goal is for something else than all of the input, a package or the name of one. -/
def Goal.isCommon : Goal → Bool
  | file | fragmentBody _ | package | packageEnd => false
  | declarationEnd kind | statementEnd kind => (NodeKind.declaration kind).isCommon
  | qualifiedName tag? | qualifiedNameEnd tag? => tag?.all NodeKind.isCommon
  | _ => true

namespace ParseState

/-- From `s` to `t` common nodes are added, each over nodes from the number `start` on, and common
goals come on top of those that there are. -/
structure Builds (start : Nat) (s t : ParseState) : Prop where
  begun : start ≤ s.nodes.size
  grows : s.nodes.size ≤ t.nodes.size
  kept : ∀ id < s.nodes.size, t.nodes[id]? = s.nodes[id]?
  made : ∀ id node, s.nodes.size ≤ id → t.nodes[id]? = some node →
    node.isCommon = true ∧ start + node.size ≤ id + 1
  frames : ∃ new, t.frames = new ++ s.frames ∧
    ∀ frame ∈ new, frame.1.isCommon = true ∧ start ≤ frame.2 ∧ frame.2 ≤ t.nodes.size

end ParseState

open ParseState

variable {entry : Pending} {u s t : ParseState} {node : Node} {tag? : Option NodeKind}
variable {kind : DeclarationKind} {start : Nat}

namespace ParseState.Builds

/-! ## Adding nodes -/

theorem refl (begun : start ≤ s.nodes.size) : Builds start s s := by
  refine ⟨begun, le_rfl, fun id _ => rfl, fun id node hid hnode => ?_, [], rfl, by simp⟩
  exact absurd (Array.getElem?_eq_some_iff.mp hnode).1 (Nat.not_lt.mpr hid)

theorem trans (h : Builds start u s) (h' : Builds start s t) : Builds start u t := by
  obtain ⟨begun, grows, kept, made, new, hnew, hframes⟩ := h
  obtain ⟨-, grows', kept', made', newer, hnewer, hframes'⟩ := h'
  refine ⟨begun, grows.trans grows', fun id hid => ?_, fun id node hid hnode => ?_, newer ++ new,
    ?_, fun frame hframe => ?_⟩
  · rw [kept' id (hid.trans_le grows), kept id hid]
  · by_cases hold : id < s.nodes.size
    · rw [kept' id hold] at hnode
      exact made id node hid hnode
    · exact made' id node (Nat.not_lt.mp hold) hnode
  · rw [hnewer, hnew, List.append_assoc]
  · rcases List.mem_append.mp hframe with hlate | hearly
    · exact hframes' frame hlate
    · obtain ⟨common, hstart, hsize⟩ := hframes frame hearly
      exact ⟨common, hstart, hsize.trans grows'⟩

/-- A change that concerns neither the tree nor the stack. -/
theorem same (h : Builds start u s) (nodes : t.nodes = s.nodes) (frames : t.frames = s.frames) :
    Builds start u t := by
  obtain ⟨begun, grows, kept, made, hframes⟩ := h
  refine ⟨begun, ?_, ?_, ?_, ?_⟩
  · rwa [nodes]
  · rwa [nodes]
  · rwa [nodes]
  · rwa [nodes, frames]

/-- One more node. -/
theorem push (h : Builds start u s) (nodes : t.nodes = s.nodes.push node)
    (frames : t.frames = s.frames) (common : node.isCommon = true)
    (span : start + node.size ≤ s.nodes.size + 1) : Builds start u t := by
  obtain ⟨begun, grows, kept, made, new, hnew, hframes⟩ := h
  refine ⟨begun, ?_, fun id hid => ?_, fun id other hid hother => ?_, new, frames.trans hnew,
    fun frame hframe => ?_⟩
  · rw [nodes, Array.size_push]
    omega
  · rw [nodes, Array.getElem?_push, if_neg (by omega)]
    exact kept id hid
  · rw [nodes, Array.getElem?_push] at hother
    split at hother
    case isTrue hlast =>
      obtain rfl := Option.some.inj hother
      exact ⟨common, by omega⟩
    case isFalse => exact made id other hid hother
  · obtain ⟨hcommon, hstart, hsize⟩ := hframes frame hframe
    refine ⟨hcommon, hstart, ?_⟩
    rw [nodes, Array.size_push]
    omega

theorem begun_now (h : Builds start u s) : start ≤ s.nodes.size := h.begun.trans h.grows

/-- The next token becomes a leaf. It may be a name. -/
theorem addLeaf (h : Builds start u s) (tag? : Option NodeKind) (failed : Bool)
    (common : tag?.all NodeKind.isCommon = true ∨ tag? = some .name) :
    Builds start u (s.addLeaf tag? failed) := by
  rcases hrest : s.cursor.rest with _ | ⟨next, rest⟩
  · rwa [s.addLeaf_of_rest_eq_nil tag? failed hrest]
  · refine h.push (s.nodes_addLeaf tag? failed hrest) (s.frames_addLeaf tag? failed) ?_ ?_
    · rw [Node.isCommon, Bool.or_eq_true_iff]
      exact common.imp_right fun named => by rw [named]; rfl
    · exact Nat.succ_le_succ h.begun_now

theorem take (h : Builds start u s) : Builds start u s.take := h.addLeaf none false (.inl rfl)

theorem takeAs_name (h : Builds start u s) : Builds start u (s.takeAs .name) :=
  h.addLeaf (some .name) false (.inr rfl)

theorem discard (h : Builds start u s) : Builds start u s.discard := h.addLeaf none true (.inl rfl)

theorem takeMany (h : Builds start u s) (n : Nat) : Builds start u (ParseState.takeMany n s) := by
  induction n generalizing s with
  | zero => exact h
  | succ n ih => exact ih h.take

theorem takeRun (h : Builds start u s) (member : TokenKind → Bool) :
    Builds start u (s.takeRun member) := h.takeMany _

theorem takeIf (h : Builds start u s) (c : Prop) [Decidable c] :
    Builds start u (if c then s.take else s) := by
  split
  · exact h.take
  · exact h

theorem discardMany (h : Builds start u s) (n : Nat) :
    Builds start u (ParseState.discardMany n s) := by
  induction n generalizing s with
  | zero => exact h
  | succ n ih => exact ih h.discard

theorem addSynthetic (h : Builds start u s) {tag : NodeKind} (common : tag.isCommon = true)
    (failed : Bool) : Builds start u (s.addSynthetic tag failed) := by
  refine h.push rfl rfl ?_ (Nat.succ_le_succ h.begun_now)
  rw [Node.isCommon, Bool.or_eq_true_iff]
  exact .inl common

theorem addParent (h : Builds start u s) (token? : Option Nat) {first : Nat}
    (begins : start ≤ first)
    (made : first ≤ s.nodes.size) (common : tag?.all NodeKind.isCommon = true) (failed : Bool) :
    Builds start u (s.addParent token? first tag? failed) := by
  refine h.push (s.nodes_addParent token? first tag? failed) rfl ?_ ?_
  · rw [Node.isCommon, Bool.or_eq_true_iff]
    exact .inl common
  · simp only
    omega

/-! ## Reports and skips -/

theorem report (h : Builds start u s) (expected : List Expectation) :
    Builds start u (s.report expected) := h.same rfl rfl

theorem resync (h : Builds start u s) (first : Nat) : Builds start u (s.resync first).1 :=
  h.same rfl rfl

theorem skipTo (h : Builds start u s) (stop : TokenKind → Bool) : Builds start u (s.skipTo stop) :=
  h.discardMany _

theorem skipGroup (h : Builds start u s) : Builds start u s.skipGroup := h.discardMany _

theorem skipStatement (h : Builds start u s) (origin : Origin) :
    Builds start u (s.skipStatement origin) := by
  have skipped := h.discardMany (statementExtent origin s.cursor.rest)
  rw [ParseState.skipStatement]
  exact skipped.takeIf _

theorem recoverTo (h : Builds start u s) (stop : TokenKind → Bool) :
    Builds start u (s.recoverTo stop).1 := (h.skipTo stop).resync s.position

theorem recoverStatement (h : Builds start u s) (origin : Origin) :
    Builds start u (s.recoverStatement origin) := (h.skipStatement origin).resync s.position

/-! ## The stack -/

theorem markEnclosing (h : Builds start u s) : Builds start u s.markEnclosing := by
  refine h.same s.nodes_markEnclosing ?_
  have hmarked := s.frames_letGo ⟨.file, s.cursor.origin, 0, true⟩
  rwa [letGo, if_pos rfl] at hmarked

/-- A common goal comes on top. -/
theorem above (h : Builds start u s) (nodes : t.nodes = s.nodes) {frame : Goal × Nat}
    (frames : t.frames = frame :: s.frames) (common : frame.1.isCommon = true)
    (begins : start ≤ frame.2) (made : frame.2 ≤ s.nodes.size) : Builds start u t := by
  obtain ⟨begun, grows, kept, hmade, new, hnew, hframes⟩ := h
  refine ⟨begun, ?_, ?_, ?_, frame :: new, ?_, ?_⟩
  · rwa [nodes]
  · rwa [nodes]
  · rwa [nodes]
  · rw [frames, hnew, List.cons_append]
  · intro other hother
    rw [nodes]
    rcases List.mem_cons.mp hother with rfl | hlater
    · exact ⟨common, begins, made⟩
    · exact hframes other hlater

theorem pushGoal (h : Builds start u s) (goal : Goal) (common : goal.isCommon = true) :
    Builds start u (s.pushGoal goal) :=
  h.above rfl rfl common h.begun_now le_rfl

/-- The construct goes on later. -/
theorem resume (entry : Pending) (h : Builds entry.start u s) (goal : Goal)
    (common : goal.isCommon = true) : Builds entry.start u (s.resume entry goal) :=
  h.above rfl rfl common le_rfl h.begun_now

/-- The construct becomes a node. -/
theorem close (entry : Pending) (h : Builds entry.start u s) (tag? : Option NodeKind)
    (common : tag?.all NodeKind.isCommon = true) :
    Builds entry.start u (s.close entry tag?) := by
  have closed := h.addParent (if entry.start = s.nodes.size then none else some entry.origin.token)
    le_rfl h.begun_now common entry.failed
  rw [ParseState.close]
  split
  · exact closed.markEnclosing
  · exact closed

/-! ## Going on or failing -/

section
variable {fail ok : ParseState → ParseState}

theorem require (h : Builds start u s) (test : Bool) (expected : List Expectation)
    (hfail : ∀ t, Builds start u t → Builds start u (fail t))
    (hok : ∀ t, Builds start u t → Builds start u (ok t)) :
    Builds start u (s.require test expected fail ok) := by
  rw [ParseState.require]
  split
  · exact hok s h
  · exact hfail _ (h.report expected)

theorem expect (h : Builds start u s) (kind : TokenKind)
    (hfail : ∀ t, Builds start u t → Builds start u (fail t))
    (hok : ∀ t, Builds start u t → Builds start u (ok t)) :
    Builds start u (s.expect kind fail ok) :=
  h.require _ _ hfail fun _ ht => hok _ ht.take

theorem expectStrings (h : Builds start u s)
    (hfail : ∀ t, Builds start u t → Builds start u (fail t))
    (hok : ∀ t, Builds start u t → Builds start u (ok t)) :
    Builds start u (s.expectStrings fail ok) :=
  h.require _ _ hfail fun _ ht => hok _ (ht.takeRun _)

end

/-- A statement that fails is closed, and so it is whether or not it tells the guard. -/
theorem failStatement (h : Builds entry.start u s)
    (common : (NodeKind.declaration kind).isCommon = true) :
    Builds entry.start u (s.failStatement entry kind) := by
  rw [ParseState.failStatement]
  split
  · exact (h.skipStatement _).close entry.broken _ common
  · exact (h.recoverStatement _).close entry.broken _ common

theorem endStatement (h : Builds entry.start u s)
    (common : (NodeKind.declaration kind).isCommon = true) :
    Builds entry.start u (s.endStatement entry kind) :=
  h.expect _ (fun _ ht => ht.failStatement common) fun _ ht => ht.close entry _ common

theorem statementEnd (h : Builds entry.start u s)
    (common : (NodeKind.declaration kind).isCommon = true) :
    Builds entry.start u (s.statementEnd kind entry) := by
  rw [ParseState.statementEnd]
  split
  · exact h.failStatement common
  · exact h.endStatement common

theorem optionsOrEnd (h : Builds entry.start u s)
    (common : (NodeKind.declaration kind).isCommon = true) :
    Builds entry.start u (s.optionsOrEnd kind entry) := by
  rw [ParseState.optionsOrEnd]
  split
  · exact (h.resume entry (.statementEnd kind) common).pushGoal _ rfl
  · exact h.take.close entry _ common
  · exact (h.report _).failStatement common

end ParseState.Builds

end ProtoFront
