import ProtoFront.Proofs.Composition.Pieces

/-!
# Letting go of a goal

A step that holds a goal ends in one of a few ways: the construct goes on at another goal, waits for
a part of it, hands over to another goal, or is closed. Each asks that what has been made is what
the goal at which the construct goes on tells, or what the construct around it waits for. Where the
construct has failed, nothing is asked.
-/

namespace ProtoFront

open ParseState Production

variable {buffer : TokenBuffer} {entry now : Pending} {s t : ParseState} {part : Part}
variable {before since more : Forest} {L M : Language Item} {goal next : Goal}

theorem Pending.flagged_broken (entry : Pending) : entry.broken.flagged = true := by
  rw [flagged, show entry.broken.failed = true from rfl, Bool.true_or]

theorem Pending.flagged_eq_false (unfailed : entry.failed = false)
    (carried : entry.goal.carried = false) : entry.flagged = false := by
  rw [flagged, unfailed, carried]
  rfl

/-- A construct that has failed asks nothing of what comes next. -/
theorem waits_broken (entry : Pending) (since : Forest) : Waits buffer entry.broken since :=
  fun unflagged => Bool.noConfusion (unflagged.symm.trans entry.flagged_broken)

theorem Piled.markEnclosing (h : Piled buffer s before more) :
    Piled buffer s.markEnclosing before more := by
  refine ⟨h.below.markEnclosing fun _ => waits_broken _ _, ?_, h.complete, ?_⟩
  · rw [Lays, nodes_markEnclosing]
    exact h.lays
  · exact ⟨by rw [cursor_markEnclosing]; exact h.reads.rest,
      by rw [cursor_markEnclosing]; exact h.reads.endIndex⟩

/-! ## Knowing less -/

namespace Holds

theorem mono (h : Holds buffer L entry s) (hL : L ≤ M) : Holds buffer M entry s := by
  obtain ⟨before, since, piled, awaited, start, made⟩ := h
  exact ⟨before, since, piled, awaited, start, fun unflagged => hL (made unflagged)⟩

/-- The construct may have got another mark. -/
theorem remark (h : Holds buffer L entry s) (start : now.start = entry.start)
    (goal : now.goal.part = entry.goal.part)
    (flagged : now.flagged = false → entry.flagged = false) : Holds buffer L now s := by
  obtain ⟨before, since, piled, awaited, hstart, made⟩ := h
  refine ⟨before, since, piled, ?_, start.trans hstart, fun unflagged => made (flagged unflagged)⟩
  rwa [goal]

/-- Nothing is asked of a construct that has failed. -/
theorem unasked (h : Holds buffer L entry s) (flagged : entry.flagged = true) (M : Language Item) :
    Holds buffer M entry s := by
  obtain ⟨before, since, piled, awaited, start, -⟩ := h
  exact ⟨before, since, piled, awaited, start,
    fun unflagged => Bool.noConfusion (unflagged.symm.trans flagged)⟩

theorem spoil (h : Holds buffer L entry s) (M : Language Item) : Holds buffer M entry.broken s := by
  have broken : Holds buffer L entry.broken s := h.remark rfl rfl fun unflagged =>
    Bool.noConfusion (unflagged.symm.trans entry.flagged_broken)
  exact broken.unasked entry.flagged_broken M

/-- Something has been made, unless the construct has failed. -/
theorem not_holds_nothing (h : Holds buffer 0 entry s) (unflagged : entry.flagged = false) :
    False := by
  obtain ⟨_, _, -, -, -, made⟩ := h
  exact made unflagged

/-! ## Going on -/

/-- The construct goes on at another goal. -/
theorem goOn (h : Holds buffer L entry s) (goal : Goal)
    (flagged : ({ entry with goal } : Pending).flagged = false → entry.flagged = false)
    (made : L ≤ goal.made) : Composed buffer (s.resume entry goal) := by
  obtain ⟨before, since, piled, -, start, hmade⟩ := h
  exact .going before since rfl piled.lays piled.complete piled.below start
    fun unflagged => made (hmade (flagged unflagged))

/-- The construct waits for a part of it, perhaps with another mark. -/
theorem delegateAs (h : Holds buffer L entry s) (now : Pending) (hstart : now.start = entry.start)
    (goal next : Goal)
    (flagged : ({ now with goal } : Pending).flagged = false → entry.flagged = false)
    (awaits : goal.awaits? = some next.part) (made : L * next.part.yields ≤ goal.made)
    (fresh : [] ∈ next.made) : Composed buffer ((s.resume now goal).pushGoal next) := by
  obtain ⟨before, since, piled, -, start, hmade⟩ := h
  refine .going (before ++ since) .nil rfl ?_ ?_ (.piece piled.below (hstart.trans start) ?_) ?_
    fun _ => fresh
  · rw [Forest.append_nil]
    exact piled.lays
  · rw [Forest.append_nil]
    exact piled.complete
  · intro unflagged part hpart items hitems
    obtain rfl := Option.some.inj (awaits.symm.trans hpart)
    exact made (Language.append_mem_mul (hmade (flagged unflagged)) hitems)
  · exact piled.lays.size_eq

theorem delegate (h : Holds buffer L entry s) (goal next : Goal)
    (flagged : ({ entry with goal } : Pending).flagged = false → entry.flagged = false)
    (awaits : goal.awaits? = some next.part) (made : L * next.part.yields ≤ goal.made)
    (fresh : [] ∈ next.made) : Composed buffer ((s.resume entry goal).pushGoal next) :=
  h.delegateAs entry rfl goal next flagged awaits made fresh

/-- A declaration waits for its body, which begins where the declaration does. -/
theorem enter (h : Holds buffer L entry s) (kind : BodyKind) (carried : entry.goal.carried = false)
    (made : L ≤ (Goal.body kind).made) : Composed buffer (s.enterBody kind entry) := by
  obtain ⟨before, since, piled, -, start, hmade⟩ := h
  have waiting : Grown (Waits buffer)
      ({ entry with goal := .declarationEnd kind.declaration } :: s.pending)
      (before ++ .nil) := by
    refine .piece piled.below start fun _ part hpart items hitems => ?_
    have hblock : part = .block kind := by
      cases kind <;> exact (Option.some.inj hpart).symm
    subst hblock
    exact hitems
  rw [Forest.append_nil] at waiting
  refine .going before since rfl piled.lays piled.complete waiting start fun unflagged => ?_
  refine made (hmade ?_)
  rw [Pending.flagged, carried]
  exact unflagged

/-- What has been made goes to the construct around, and another goal reads the rest of the part. -/
theorem handOver (h : Holds buffer L entry s) (unflagged : entry.flagged = false) (next : Goal)
    (part : next.part = entry.goal.part) (inner : entry.goal.part ≠ .document)
    (made : L * entry.goal.part.yields ≤ entry.goal.part.yields) :
    Holds buffer 1 ⟨next, s.cursor.origin, s.nodes.size, false⟩ s := by
  obtain ⟨before, since, ⟨below, lays, complete, reads⟩, awaited, -, hmade⟩ := h
  rcases hpending : s.pending with _ | ⟨top, rest⟩
  · rw [hpending] at awaited
    exact absurd awaited inner
  · rw [hpending] at below awaited
    cases below with
    | @piece _ _ earlier own below start fits =>
      rw [Forest.append_assoc] at lays complete
      have waiting : Grown (Waits buffer) s.pending (earlier ++ (own ++ since)) := by
        rw [hpending]
        refine .piece below start fun clean part' hpart items hitems => ?_
        obtain rfl := Option.some.inj (awaited.1.symm.trans hpart)
        rw [Forest.items_append, List.append_assoc]
        exact fits clean _ hpart _ (made (Language.append_mem_mul (hmade unflagged) hitems))
      refine ⟨earlier ++ (own ++ since), .nil, ⟨waiting, ?_, ?_, reads⟩, ?_, lays.size_eq,
        fun _ => rfl⟩
      · rwa [Forest.append_nil]
      · rwa [Forest.append_nil]
      · rwa [hpending, part]

/-- Another goal reads the rest of the part. -/
theorem replace (h : Holds buffer L entry s) (unflagged : entry.flagged = false) (next : Goal)
    (part : next.part = entry.goal.part) (inner : entry.goal.part ≠ .document)
    (made : L * entry.goal.part.yields ≤ entry.goal.part.yields) (fresh : [] ∈ next.made) :
    Composed buffer (s.pushGoal next) := by
  refine (h.handOver unflagged next part inner made).goOn next (fun h => h) ?_
  rintro items rfl
  exact fresh

end Holds

/-! ## Ending a part -/

/-- The construct around a part goes on. -/
theorem Returns.composed (h : Returns buffer part L s) (yields : L ≤ part.yields) :
    Composed buffer s := by
  obtain ⟨before, more, ⟨below, lays, complete, -⟩, awaited, inner, hmore⟩ := h
  rcases hpending : s.pending with _ | ⟨next, rest⟩
  · rw [hpending] at awaited
    exact absurd awaited inner
  · have hmore := hmore next rest hpending
    rw [hpending] at below awaited
    cases below with
    | @piece _ _ earlier since below start fits =>
      rw [Forest.append_assoc] at lays complete
      refine .going earlier (since ++ more) hpending lays complete below start fun unflagged => ?_
      rw [Forest.items_append]
      exact fits unflagged part awaited.1 _ (yields (hmore unflagged))

namespace Holds

/-- The part ends without a node of its own. -/
theorem returns (h : Holds buffer L entry s) (unflagged : entry.flagged = false)
    (inner : entry.goal.part ≠ .document) : Returns buffer entry.goal.part L s := by
  obtain ⟨before, since, piled, awaited, -, made⟩ := h
  exact ⟨before, since, piled, awaited, inner, fun _ _ _ _ => made unflagged⟩

theorem pass (h : Holds buffer L entry s) (unflagged : entry.flagged = false)
    (inner : entry.goal.part ≠ .document) (yields : L ≤ entry.goal.part.yields) :
    Composed buffer s := (h.returns unflagged inner).composed yields

/-- The part has failed, and with it the construct around it. -/
theorem returns_marked (h : Holds buffer L entry s) (inner : entry.goal.part ≠ .document)
    (M : Language Item) : Returns buffer entry.goal.part M s.markEnclosing := by
  obtain ⟨before, since, piled, awaited, -, -⟩ := h
  refine ⟨before, since, piled.markEnclosing, awaited.markEnclosing, inner, ?_⟩
  intro next below hpending unflagged
  rw [ParseState.markEnclosing] at hpending
  split at hpending
  case h_1 hnil =>
    rw [hnil] at hpending
    cases hpending
  case h_2 top rest _ =>
    obtain ⟨rfl, rfl⟩ := List.cons.inj hpending
    rw [show ({ top with failed := true } : Pending) = top.broken from rfl,
      top.flagged_broken] at unflagged
    cases unflagged

theorem mark (h : Holds buffer L entry s) (inner : entry.goal.part ≠ .document) :
    Composed buffer s.markEnclosing := (h.returns_marked inner 0).composed bot_le

/-- A node over all that the construct has made. It stands for a token if that is something. -/
theorem wrap (h : Holds buffer L entry s) (token? : Option Nat)
    (real : token? ≠ none ↔ entry.start ≠ s.nodes.size) (tag? : Option NodeKind)
    (settled : entry.failed = false → entry.flagged = false)
    (fits : entry.failed = false → ∀ items ∈ L, items ≠ [] ∧
      (∀ kind, tag? = some (.declaration kind) → items ∈ kind.production.matches') ∧
      ∀ kind, tag? = some kind → kind.isName = true → items ∈ kind.spelling.matches') :
    Holds buffer {[Item.closed tag?]} entry (s.addParent token? entry.start tag? entry.failed) := by
  obtain ⟨before, since, ⟨below, lays, complete, reads⟩, awaited, start, hmade⟩ := h
  obtain ⟨hbefore, hsince⟩ := Forest.complete_append.mp complete
  have further : entry.start ≠ s.nodes.size ↔ 0 < since.size := by
    rw [lays.size_eq, Forest.size_append, start]
    omega
  refine ⟨before, .tree ⟨token?, entry.failed, tag?⟩ since, ⟨below, ?_, ?_, ?_⟩, awaited, start, ?_⟩
  · rw [start]
    exact lays.addParent token? tag? entry.failed
  · refine Forest.complete_append.mpr ⟨hbefore, hsince.tree ⟨fun unfailed kind hkind => ?_, ?_⟩⟩
    · exact (fits unfailed _ (hmade (settled unfailed))).2.1 kind hkind
    · intro sound kind hkind named
      have unfailed : entry.failed = false := by
        rcases sound with unfailed | ⟨stands, rfl⟩
        · exact unfailed
        · exact absurd (further.mp (real.mp stands)) (lt_irrefl 0)
      obtain ⟨nonempty, -, spelled⟩ := fits unfailed _ (hmade (settled unfailed))
      have inner := Forest.size_pos_of_items_ne_nil nonempty
      obtain ⟨token, htoken⟩ := Option.ne_none_iff_exists'.mp (real.mpr (further.mpr inner))
      rw [Forest.parts_over htoken inner]
      exact spelled kind hkind named
  · exact ⟨reads.rest, reads.endIndex⟩
  · intro unflagged
    have unfailed := (Bool.or_eq_false_iff.mp unflagged).1
    have inner := Forest.size_pos_of_items_ne_nil (fits unfailed _ (hmade unflagged)).1
    exact congrArg (· :: []) (Label.item_node _ (real.mpr (further.mpr inner)) inner)

/-- The construct becomes one node. -/
theorem close (h : Holds buffer L entry s) (tag? : Option NodeKind)
    (inner : entry.goal.part ≠ .document)
    (settled : entry.failed = false → entry.flagged = false)
    (fits : entry.failed = false → ∀ items ∈ L, items ≠ [] ∧
      (∀ kind, tag? = some (.declaration kind) → items ∈ kind.production.matches') ∧
      ∀ kind, tag? = some kind → kind.isName = true → items ∈ kind.spelling.matches') :
    Returns buffer entry.goal.part {[Item.closed tag?]} (s.close entry tag?) := by
  have wrapped := h.wrap (if entry.start = s.nodes.size then none else some entry.origin.token)
    (by simp) tag? settled fits
  rw [close_eq, letGo]
  split
  case isTrue => exact wrapped.returns_marked inner _
  case isFalse unfailed =>
    exact wrapped.returns (settled (Bool.eq_false_iff.mpr unfailed)) inner

/-- The construct becomes one node, with a mark. -/
theorem closeFailed (h : Holds buffer L entry s) (tag? : Option NodeKind)
    (inner : entry.goal.part ≠ .document) (failed : entry.failed = true) (M : Language Item) :
    Returns buffer entry.goal.part M (s.close entry tag?) := by
  have absurd_failed {p : Prop} (unfailed : entry.failed = false) : p :=
    Bool.noConfusion (unfailed.symm.trans failed)
  have wrapped := h.wrap (if entry.start = s.nodes.size then none else some entry.origin.token)
    (by simp) tag? absurd_failed absurd_failed
  rw [close_eq, letGo, if_pos failed]
  exact wrapped.returns_marked inner M

/-- The input has been read. -/
theorem finish (h : Holds buffer L entry s) (document : entry.goal.part = .document) :
    Composed buffer s := by
  obtain ⟨before, since, ⟨-, lays, complete, -⟩, awaited, -, -⟩ := h
  rcases hpending : s.pending with _ | ⟨next, rest⟩
  · exact .finished (before ++ since) hpending lays complete
  · rw [hpending, document] at awaited
    exact absurd awaited.1 next.goal.awaits_ne_document

end Holds

end ProtoFront
