import ProtoFront.Proofs.Likeness.Declarations
import ProtoFront.Proofs.Parse.Frames

/-!
# How statements end

A statement waits for its parts, or for its body, until it becomes one node over all that it has
read (`Ending`). Unless the node is marked, the last token of the statement is a semicolon or a
closing brace. So whoever has read a statement to its end need not look behind it.
-/

namespace ProtoFront

open ParseState

variable {entry : Pending} {s t u : ParseState}

/-- What has been read between two states ends with a token that ends statements. -/
def ParseState.Through (s u : ParseState) : Prop :=
  ∃ last : Lexeme, last.kind.endsStatement = true ∧ last :: u.cursor.rest <:+ s.cursor.rest

/-- What a step makes of a statement whose goal has been taken from the stack of `s`. -/
inductive Ending (entry : Pending) (s u : ParseState) : Prop
  /-- it goes on, perhaps behind a part of it -/
  | waits {above : List (Goal × Nat)} {goal : Goal}
      (frames : u.frames = above ++ (goal, entry.start) :: s.frames)
      (part : goal.part = .statement) (opened : goal.isOpen = true)
  /-- its body begins -/
  | enters {kind : BodyKind} (frames : u.frames =
      (.body kind, entry.start) :: (.declarationEnd kind.declaration, entry.start) :: s.frames)
  /-- it becomes a node -/
  | ends {made : Array Node} {token? : Option Nat} {failed : Bool} {tag? : Option NodeKind}
      (nodes : u.nodes = made.push ⟨token?, made.size - entry.start + 1, failed, tag?⟩)
      (frames : u.frames = s.frames) (through : failed = false → s.Through u)

theorem ParseState.Through.mono (h : t.Through u) (rest : t.cursor.rest <:+ s.cursor.rest) :
    s.Through u := by
  obtain ⟨last, hlast, hsuffix⟩ := h
  exact ⟨last, hlast, hsuffix.trans rest⟩

/-- The token that is read is the last one. -/
theorem ParseState.through_of_tail (hkind : s.kind.endsStatement = true)
    (rest : u.cursor.rest = s.cursor.rest.tail) : s.Through u := by
  rcases hrest : s.cursor.rest with _ | ⟨next, more⟩
  · rw [kind, Cursor.kind, hrest] at hkind
    cases hkind
  · rw [kind, Cursor.kind, hrest] at hkind
    rw [hrest] at rest
    exact ⟨next, hkind, by rw [rest, hrest]; exact List.suffix_refl _⟩

namespace Ending

/-- What has been read of the statement before does not matter. -/
theorem mono (h : Ending entry t u) (pending : t.pending = s.pending)
    (rest : t.cursor.rest <:+ s.cursor.rest) : Ending entry s u := by
  have same : t.frames = s.frames := by rw [frames, pending, frames]
  cases h with
  | waits frames part opened => exact .waits (same ▸ frames) part opened
  | enters frames => exact .enters (same ▸ frames)
  | ends nodes frames through =>
    exact .ends nodes (same ▸ frames) fun unmarked => (through unmarked).mono rest

theorem of_leaf {tag? : Option NodeKind} {failed : Bool}
    (h : Ending entry (s.addLeaf tag? failed) u) : Ending entry s u :=
  h.mono (s.pending_addLeaf tag? failed) (by rw [rest_addLeaf]; exact List.tail_suffix _)

theorem of_take (h : Ending entry s.take u) : Ending entry s u := h.of_leaf

theorem of_takeAs (kind : NodeKind) (h : Ending entry (s.takeAs kind) u) : Ending entry s u :=
  h.of_leaf

theorem of_takeIf {c : Prop} {_ : Decidable c} (h : Ending entry (if c then s.take else s) u) :
    Ending entry s u := by
  split at h
  · exact h.of_leaf
  · exact h

theorem of_takeMany {n : Nat} (h : Ending entry (takeMany n s) u) : Ending entry s u := by
  induction n generalizing s with
  | zero => exact h
  | succ n ih => exact (ih h).of_leaf

end Ending

/-! ## The ends of statements -/

/-- A statement is closed behind a token that ends it, or with a mark. -/
theorem ending_close {now : Pending} {tag? : Option NodeKind} (start : now.start = entry.start)
    (through : now.failed = false → s.Through t) (pending : t.pending = s.pending) :
    Ending entry s (t.close now tag?) := by
  have nodes : (t.close now tag?).nodes =
      t.nodes.push ⟨if now.start = t.nodes.size then none else some now.origin.token,
        t.nodes.size - entry.start + 1, now.failed, tag?⟩ := by
    rw [close_eq, nodes_letGo, nodes_addParent, start]
  have frames : (t.close now tag?).frames = s.frames := by
    rw [frames_close, frames, frames, pending]
  refine .ends nodes frames fun unmarked => ?_
  obtain ⟨last, hlast, hsuffix⟩ := through unmarked
  exact ⟨last, hlast, by rwa [cursor_close]⟩

/-- A statement ends with the next token. -/
theorem ending_take {tag? : Option NodeKind} (hkind : s.kind.endsStatement = true) :
    Ending entry s (s.take.close entry tag?) :=
  ending_close rfl (fun _ => through_of_tail hkind (s.rest_addLeaf none false))
    (s.pending_addLeaf none false)

/-- Whatever has been skipped, a statement that fails ends with a mark. -/
def EndsBroken (entry : Pending) (fail : ParseState → ParseState) : Prop :=
  ∀ s t : ParseState, t.pending = s.pending → Ending entry s (fail t)

theorem endsBroken_close {tag? : Option NodeKind} :
    EndsBroken entry fun s => s.close entry.broken tag? :=
  fun _ _ pending => ending_close rfl (fun unmarked => by cases unmarked) pending

theorem endsBroken_failStatement (entry : Pending) (kind : DeclarationKind) :
    EndsBroken entry (failStatement entry kind) := by
  intro s t pending
  refine endsBroken_close _ _ ?_
  split
  · rw [pending_skipStatement, pending]
  · rw [pending_recoverStatement, pending]

section

variable {fail ok : ParseState → ParseState} {test : Bool} {expected : List Expectation}

theorem ending_require (hfail : EndsBroken entry fail) (hok : test = true → Ending entry s (ok s)) :
    Ending entry s (s.require test expected fail ok) := by
  rw [require]
  split
  case isTrue htest => exact hok htest
  case isFalse => exact hfail _ _ rfl

theorem ending_expect {kind : TokenKind} (hfail : EndsBroken entry fail)
    (hok : Ending entry s.take (ok s.take)) : Ending entry s (s.expect kind fail ok) :=
  ending_require hfail fun _ => hok.of_leaf

theorem ending_expectStrings (hfail : EndsBroken entry fail)
    (hok : ∀ t, Ending entry t (ok t)) : Ending entry s (s.expectStrings fail ok) :=
  ending_require hfail fun _ => (hok _).of_takeMany

end

theorem ending_endStatement (kind : DeclarationKind) (s : ParseState) :
    Ending entry s (s.endStatement entry kind) := by
  rw [endStatement, expect]
  refine ending_require (endsBroken_failStatement _ kind) fun hsemicolon => ?_
  have hkind : s.kind = .semicolon := beq_iff_eq.mp hsemicolon
  exact ending_take (by rw [hkind]; rfl)

/-- A statement waits for a part of it. -/
theorem ending_wait {goal next : Goal} (part : goal.part = .statement)
    (opened : goal.isOpen = true) :
    Ending entry s ((s.resume entry goal).pushGoal next) :=
  .waits (List.singleton_append).symm part opened

/-- A statement goes on at another goal. -/
theorem ending_resume {goal : Goal} (part : goal.part = .statement) (opened : goal.isOpen = true) :
    Ending entry s (s.resume entry goal) :=
  .waits (List.nil_append _).symm part opened

theorem ending_enterBody (kind : BodyKind) : Ending entry s (s.enterBody kind entry) :=
  .enters rfl

/-! ## The statements of a file -/

theorem ending_syntaxLevel : Ending entry s (s.syntaxLevel entry) := by
  rw [syntaxLevel]
  have fails := endsBroken_failStatement entry
  exact (ending_expect (fails _) (ending_expectStrings (fails _)
    fun t => ending_endStatement _ t)).of_leaf

theorem ending_importing : Ending entry s (s.importing entry) := by
  rw [importing]
  exact (ending_expectStrings (endsBroken_failStatement _ _)
    fun t => ending_endStatement _ t).of_takeIf.of_leaf

theorem ending_package : Ending entry s (s.package entry) := by
  rw [package]
  exact (ending_require (endsBroken_failStatement _ _) fun _ => ending_wait rfl rfl).of_leaf

theorem ending_optionStatement : Ending entry s (s.optionStatement entry) :=
  Ending.of_leaf (ending_wait rfl rfl)

theorem ending_optionAfterName : Ending entry s (s.optionAfterName entry) := by
  rw [optionAfterName]
  split
  case isTrue => exact endsBroken_failStatement _ _ _ _ rfl
  case isFalse => exact ending_expect (endsBroken_failStatement _ _) (ending_wait rfl rfl)

theorem ending_statementEnd (kind : DeclarationKind) :
    Ending entry s (s.statementEnd kind entry) := by
  rw [statementEnd]
  split
  case isTrue => exact endsBroken_failStatement _ _ _ _ rfl
  case isFalse => exact ending_endStatement _ s

theorem ending_optionsOrEnd (kind : DeclarationKind) (s : ParseState) :
    Ending entry s (s.optionsOrEnd kind entry) := by
  rw [optionsOrEnd]
  split
  case h_1 => exact ending_wait rfl rfl
  case h_2 hkind => exact ending_take (by rw [hkind]; rfl)
  case h_3 => exact endsBroken_failStatement _ _ _ _ rfl

/-! ## Fields, enum values and ranges -/

theorem endsBroken_failMapField (entry : Pending) : EndsBroken entry (failMapField entry) := by
  intro s t pending
  refine endsBroken_failStatement _ _ _ _ ?_
  split
  · rw [ParseState.discard, pending_addLeaf, skipTo, pending_discardMany, pending]
  · rw [skipTo, pending_discardMany, pending]

theorem ending_fieldNameAndNumber (kind : DeclarationKind) (s : ParseState) :
    Ending entry s (s.fieldNameAndNumber kind entry) := by
  have fails := endsBroken_failStatement entry kind
  rw [fieldNameAndNumber]
  refine ending_require fails fun _ => Ending.of_takeAs .name ?_
  exact ending_expect fails (ending_expect fails (ending_optionsOrEnd kind _))

theorem ending_mapField : Ending entry s (s.mapField entry) := by
  have fails := endsBroken_failMapField entry
  rw [mapField]
  refine Ending.of_take (Ending.of_take
    (ending_require fails fun _ => Ending.of_takeAs (.reference .mapKeyType) ?_))
  exact ending_expect fails (ending_require fails fun _ => ending_wait rfl rfl)

theorem ending_mapFieldAfterValue : Ending entry s (s.mapFieldAfterValue entry) := by
  rw [mapFieldAfterValue]
  split
  case isTrue => exact endsBroken_failMapField _ _ _ rfl
  case isFalse => exact ending_expect (endsBroken_failMapField _) (ending_fieldNameAndNumber _ _)

theorem ending_field : Ending entry s (s.field entry) := by
  have typed (t : ParseState) : Ending entry t
      (if t.kind = .keyword .kwMap ∧ t.following = .opener .angle then t.mapField entry
      else t.require (startsType t.kind) [.typeName] (failStatement entry .field) fun s =>
        (s.resume entry .fieldAfterType).pushGoal
          (.qualifiedName (some (.reference .fieldType)))) := by
    split
    case isTrue => exact ending_mapField
    case isFalse =>
      exact ending_require (endsBroken_failStatement _ _) fun _ => ending_wait rfl rfl
  exact (typed _).of_takeIf

theorem ending_fieldAfterType : Ending entry s (s.fieldAfterType entry) := by
  rw [fieldAfterType]
  split
  case isTrue => exact endsBroken_failStatement _ _ _ _ rfl
  case isFalse => exact ending_fieldNameAndNumber _ s

theorem ending_enumValue : Ending entry s (s.enumValue entry) := by
  have fails := endsBroken_failStatement entry .enumValue
  rw [enumValue]
  refine ending_require fails fun _ => Ending.of_takeAs .name (ending_expect fails ?_)
  exact (ending_expect fails (ending_optionsOrEnd _ _)).of_takeIf

section

variable {fail ok : ParseState → ParseState}

theorem ending_signedInteger (fails : EndsBroken entry fail) (hok : ∀ t, Ending entry t (ok t)) :
    Ending entry s (s.signedInteger fail ok) := by
  rw [signedInteger]
  exact (ending_expect fails (hok _)).of_takeIf

theorem ending_range (fails : EndsBroken entry fail) (hok : ∀ t, Ending entry t (ok t)) :
    Ending entry s (s.range fail ok) := by
  have done (token start : Nat) (t : ParseState) :
      Ending entry t (ok (t.addParent (some token) start (some .range) false)) :=
    (hok _).mono rfl (List.suffix_refl _)
  rw [range]
  refine ending_signedInteger fails fun t => ?_
  split
  case isFalse => exact done _ _ t
  case isTrue =>
    refine Ending.of_take ?_
    dsimp only
    split
    case isTrue => exact (done _ _ _).of_take
    case isFalse =>
      split
      case isTrue => exact ending_signedInteger fails (done _ _)
      case isFalse => exact fails _ _ rfl

end

theorem ending_rangesGoOn (entry : Pending) (kind : RangesKind) (s : ParseState) :
    Ending entry s (s.rangesGoOn kind entry) := by
  unfold rangesGoOn
  split
  case isTrue => exact Ending.of_take (ending_resume rfl rfl)
  case isFalse =>
    cases kind with
    | extensions => exact ending_optionsOrEnd _ s
    | reserved => exact ending_endStatement _ s

theorem ending_rangesItem (kind : RangesKind) : Ending entry s (s.rangesItem kind entry) := by
  have fails := endsBroken_failStatement entry kind.declaration
  have onward := ending_rangesGoOn entry kind
  unfold rangesItem
  split
  case h_1 | h_2 => exact ending_range fails onward
  case h_7 | h_8 => exact fails _ _ rfl
  all_goals exact (onward _).of_take

theorem ending_ranges (kind : RangesKind) : Ending entry s (s.ranges kind entry) :=
  Ending.of_take (ending_resume rfl rfl)

/-! ## Declarations with a body -/

theorem endsBroken_failScope (entry : Pending) (kind : ScopeKind) :
    EndsBroken entry (failScope kind entry) :=
  fun _ _ pending => endsBroken_close _ _ ((pending_recoverStatement _ _).trans pending)

theorem ending_scope (kind : ScopeKind) : Ending entry s (s.scope kind entry) := by
  have fails := endsBroken_failScope entry kind
  rw [scope]
  refine Ending.of_take (ending_require fails fun _ => Ending.of_takeAs .name ?_)
  exact ending_expect fails (ending_enterBody _)

theorem ending_extend : Ending entry s (s.extend entry) := by
  rw [extend]
  exact Ending.of_take (ending_require (endsBroken_failStatement _ _) fun _ => ending_wait rfl rfl)

theorem ending_extendAfterName : Ending entry s (s.extendAfterName entry) := by
  rw [extendAfterName]
  split
  case isTrue => exact endsBroken_failStatement _ _ _ _ rfl
  case isFalse => exact ending_expect (endsBroken_failStatement _ _) (ending_enterBody _)

theorem ending_rpcType {after : Goal} (part : after.part = .statement)
    (opened : after.isOpen = true) (kind : ReferenceKind) (s : ParseState) :
    Ending entry s (s.rpcType after kind entry) := by
  rw [rpcType]
  exact (ending_require (endsBroken_failStatement _ _) fun _ => ending_wait part opened).of_takeIf

theorem ending_rpc : Ending entry s (s.rpc entry) := by
  have fails := endsBroken_failStatement entry .rpc
  rw [rpc]
  refine Ending.of_take (ending_require fails fun _ => Ending.of_takeAs .name ?_)
  exact ending_expect fails (ending_rpcType rfl rfl _ _)

theorem ending_rpcAfterInput : Ending entry s (s.rpcAfterInput entry) := by
  have fails := endsBroken_failStatement entry .rpc
  rw [rpcAfterInput]
  split
  case isTrue => exact fails _ _ rfl
  case isFalse =>
    refine ending_expect fails (ending_require fails fun _ => Ending.of_take ?_)
    exact ending_expect fails (ending_rpcType rfl rfl _ _)

theorem ending_rpcAfterOutput : Ending entry s (s.rpcAfterOutput entry) := by
  have fails := endsBroken_failStatement entry .rpc
  rw [rpcAfterOutput]
  split
  case isTrue => exact fails _ _ rfl
  case isFalse =>
    refine ending_expect fails ?_
    split
    case h_1 hkind => exact ending_take (by rw [hkind]; rfl)
    case h_2 => exact Ending.of_take (ending_enterBody _)
    case h_3 => exact fails _ _ rfl

/-- A goal that reads a statement whose body is not behind it. -/
theorem ending_pursue (part : entry.goal.part = .statement) (opened : entry.goal.isOpen = true) :
    Ending entry s (s.pursue entry) := by
  rw [pursue]
  cases goal : entry.goal with
  | syntaxLevel => exact ending_syntaxLevel
  | importing => exact ending_importing
  | package => exact ending_package
  | packageEnd => exact ending_statementEnd _
  | option => exact ending_optionStatement
  | optionAfterName => exact ending_optionAfterName
  | optionEnd => exact ending_statementEnd _
  | scope kind => exact ending_scope kind
  | extend => exact ending_extend
  | extendAfterName => exact ending_extendAfterName
  | field => exact ending_field
  | fieldAfterType => exact ending_fieldAfterType
  | mapFieldAfterValue => exact ending_mapFieldAfterValue
  | statementEnd kind => exact ending_statementEnd kind
  | enumValue => exact ending_enumValue
  | ranges kind => exact ending_ranges kind
  | rangesItem kind => exact ending_rangesItem kind
  | rpc => exact ending_rpc
  | rpcAfterInput => exact ending_rpcAfterInput
  | rpcAfterOutput => exact ending_rpcAfterOutput
  | listAfterItem list failed =>
    rw [goal] at part
    cases list <;> cases part
  | declarationEnd =>
    rw [goal] at opened
    cases opened
  | _ =>
    rw [goal] at part
    cases part

/-! ## Bodies -/

theorem pending_skipJunk {origin : Origin} {again : Goal} (s : ParseState) :
    (s.skipJunk origin again entry).pending =
      { entry.broken with goal := again } :: s.pending := by
  refine congrArg (_ :: ·) ((pending_recoverStatement _ _).trans ?_)
  split
  · exact pending_discardMany _ s
  · exact s.pending_addLeaf none true

/-- What a step makes of a body: it goes on, perhaps behind a statement, or it ends with its brace,
or it lets the declaration fail. -/
theorem body_cases (kind : BodyKind) (s : ParseState) (entry : Pending) :
    (∃ above, (s.body kind entry).frames = above ++ (.body kind, entry.start) :: s.frames) ∨
      ((s.body kind entry).pending = s.pending ∧ s.Through (s.body kind entry)) ∨
      (s.body kind entry).pending = s.markEnclosing.pending := by
  have marked (t u : ParseState) (h : t.pending = u.pending) :
      t.markEnclosing.pending = u.markEnclosing.pending := by
    rw [markEnclosing, markEnclosing, h]
    split
    · exact h
    · rfl
  rw [body]
  split
  case h_1 =>
    refine .inr (.inr (marked _ s ?_))
    cases kind.closeTag? <;> rfl
  case h_2 hkind =>
    dsimp only
    split
    case isTrue => exact .inr (.inr (marked _ s (s.pending_addLeaf _ _)))
    case isFalse =>
      refine .inr (.inl ⟨s.pending_addLeaf _ _, through_of_tail ?_ (s.rest_addLeaf _ _)⟩)
      rw [hkind]
      rfl
  case h_3 =>
    refine .inl ?_
    rw [bodyStatement]
    split
    case isTrue => exact ⟨[], congrArg (_ :: ·) (s.frames_addLeaf none false)⟩
    case isFalse =>
      split
      case h_1 => exact ⟨[_], rfl⟩
      case h_2 =>
        refine ⟨[], ?_⟩
        rw [bodyJunk_eq, frames, pending_skipJunk, frames]
        split <;> rfl

end ProtoFront
