import ProtoFront.Proofs.Parse.Telling

/-!
# What a step tells the guard

A step tells the guard of one recovery at most (`Notes`). The recovery begins behind something that
the step has read, or else the step has reported something in front of it; and then the construct
did not know that anything had been reported at the token where the step began. Behind the recovery
the parser reads on, or the construct on top of the stack is marked.
-/

namespace ProtoFront

open ParseState

variable {entry : Pending} {s t u : ParseState} {unheard : Prop}

namespace ParseState

/-- The parser gets from one state to another and tells the guard nothing on the way. -/
structure Unnoted (s t : ParseState) : Prop where
  rest : t.cursor.rest <:+ s.cursor.rest
  endIndex : t.cursor.endIndex = s.cursor.endIndex
  reports : s.diagnostics.size ≤ t.diagnostics.size
  guard : t.guard = s.guard
  resyncs : ∀ outcome token attempts, ParseEvent.resynced outcome token attempts ∈ t.events →
    ParseEvent.resynced outcome token attempts ∈ s.events

namespace Unnoted

theorem same (cursor : t.cursor = s.cursor) (diagnostics : t.diagnostics = s.diagnostics)
    (guard : t.guard = s.guard) (events : t.events = s.events) : s.Unnoted t :=
  ⟨cursor ▸ List.suffix_refl _, by rw [cursor], by rw [diagnostics], guard,
    fun _ _ _ h => events ▸ h⟩

theorem refl (s : ParseState) : s.Unnoted s := .same rfl rfl rfl rfl

theorem trans (h : s.Unnoted t) (h' : t.Unnoted u) : s.Unnoted u :=
  ⟨h'.rest.trans h.rest, h'.endIndex.trans h.endIndex, Nat.le_trans h.reports h'.reports,
    h'.guard.trans h.guard, fun _ _ _ hevent => h.resyncs _ _ _ (h'.resyncs _ _ _ hevent)⟩

theorem left_le (h : s.Unnoted t) : t.left ≤ s.left := h.rest.length_le

theorem addLeaf (s : ParseState) (tag? : Option NodeKind) (failed : Bool) :
    s.Unnoted (s.addLeaf tag? failed) := by
  rw [ParseState.addLeaf]
  split
  case h_1 => exact .refl s
  case h_2 next rest hrest =>
    exact ⟨hrest ▸ List.suffix_cons next rest, rfl, Nat.le_refl _, rfl, fun _ _ _ h => h⟩

theorem report (s : ParseState) (expected : List Expectation) : s.Unnoted (s.report expected) := by
  refine ⟨List.suffix_refl _, rfl, by simp [ParseState.report], rfl, fun _ _ _ hevent => ?_⟩
  rcases Array.mem_push.mp hevent with hevent | hnew
  · exact hevent
  · cases hnew

theorem markEnclosing (s : ParseState) : s.Unnoted s.markEnclosing := by
  rw [ParseState.markEnclosing]
  split
  · exact .refl s
  · exact .same rfl rfl rfl rfl

theorem close (s : ParseState) (entry : Pending) (tag? : Option NodeKind) :
    s.Unnoted (s.close entry tag?) := by
  have parent (token? : Option Nat) :
      s.Unnoted (s.addParent token? entry.start tag? entry.failed) := .same rfl rfl rfl rfl
  rw [close_eq, letGo]
  split
  · exact (parent _).trans (.markEnclosing _)
  · exact parent _

theorem takeMany (n : Nat) (s : ParseState) : s.Unnoted (takeMany n s) := by
  induction n generalizing s with
  | zero => exact .refl s
  | succ n ih => exact (Unnoted.addLeaf s none false).trans (ih s.take)

theorem takeRun (s : ParseState) (member : TokenKind → Bool) : s.Unnoted (s.takeRun member) :=
  .takeMany _ s

theorem discardMany (n : Nat) (s : ParseState) : s.Unnoted (discardMany n s) := by
  induction n generalizing s with
  | zero => exact .refl s
  | succ n ih => exact (Unnoted.addLeaf s none true).trans (ih s.discard)

theorem takeIf {c : Prop} {_ : Decidable c} (s : ParseState) :
    s.Unnoted (if c then s.take else s) := by
  split
  · exact .addLeaf s none false
  · exact .refl s

theorem skipTo (s : ParseState) (stop : TokenKind → Bool) : s.Unnoted (s.skipTo stop) :=
  .discardMany _ s

theorem skipStatement (s : ParseState) (origin : Origin) :
    s.Unnoted (s.skipStatement origin) := by
  rw [ParseState.skipStatement]
  exact (Unnoted.discardMany _ s).trans (.takeIf _)

theorem skipSeparator (s : ParseState) : s.Unnoted s.skipSeparator := by
  rw [ParseState.skipSeparator]
  split
  · exact .addLeaf s none true
  · exact .refl s

theorem behindJunk (pair : Bracket) (entry : Pending) (before : Nat) (s : ParseState) :
    s.Unnoted (s.behindJunk pair entry before) := by
  rw [ParseState.behindJunk]
  split
  · exact .close s _ _
  · exact .same rfl rfl rfl rfl

end Unnoted

end ParseState

/-- What a step from `s` to `u` tells the guard: nothing, or of one recovery from `r` to `t`. If the
step has read nothing in front of the recovery, it has reported something, which was `unheard`. -/
inductive Notes (unheard : Prop) (s u : ParseState) : Prop
  | quiet (unnoted : s.Unnoted u)
  | noted {r t : ParseState} (before : s.Unnoted r) (skips : r.Unnoted t)
      (behind : (t.resync r.position).1.Unnoted u)
      (begun : r.left < s.left ∨ (unheard ∧ s.diagnostics.size < r.diagnostics.size))
      (settled : u.left < t.left ∨ u.TopFailed)

namespace Notes

/-- What is read or reported in front of a step does not matter. -/
theorem mono (h : Notes unheard t u) (unnoted : s.Unnoted t) : Notes unheard s u := by
  cases h with
  | quiet later => exact .quiet (unnoted.trans later)
  | noted before skips behind begun settled =>
    refine .noted (unnoted.trans before) skips behind (begun.imp ?_ ?_) settled
    · exact fun read => Nat.lt_of_lt_of_le read unnoted.left_le
    · exact And.imp_right (Nat.lt_of_le_of_lt unnoted.reports)

theorem imp {other : Prop} (h : Notes unheard s u) (hother : unheard → other) :
    Notes other s u := by
  cases h with
  | quiet unnoted => exact .quiet unnoted
  | noted before skips behind begun settled =>
    exact .noted before skips behind (begun.imp_right (And.imp_left hother)) settled

/-- A step that reads a token first. -/
theorem of_read (tag? : Option NodeKind) (there : s.kind ≠ .eof)
    (h : Notes True (s.addLeaf tag? false) u) : Notes unheard s u := by
  have first := Unnoted.addLeaf s tag? false
  have read : (s.addLeaf tag? false).left < s.left :=
    Nat.lt_of_succ_le (s.left_addLeaf_lt tag? false there).le
  cases h with
  | quiet later => exact .quiet (first.trans later)
  | noted before skips behind _ settled =>
    have begun := Nat.lt_of_le_of_lt before.left_le read
    exact .noted (first.trans before) skips behind (.inl begun) settled

theorem same (cursor : u.cursor = s.cursor) (diagnostics : u.diagnostics = s.diagnostics)
    (guard : u.guard = s.guard) (events : u.events = s.events) : Notes unheard s u :=
  .quiet (.same cursor diagnostics guard events)

theorem of_take (h : Notes unheard s.take u) : Notes unheard s u := h.mono (.addLeaf s none false)

theorem of_takeAs (tag : NodeKind) (h : Notes unheard (s.takeAs tag) u) : Notes unheard s u :=
  h.mono (.addLeaf s (some tag) false)

theorem of_takeIf {c : Prop} {_ : Decidable c} (h : Notes unheard (if c then s.take else s) u) :
    Notes unheard s u :=
  h.mono (.takeIf s)

theorem of_takeMany {n : Nat} (h : Notes unheard (takeMany n s) u) : Notes unheard s u :=
  h.mono (.takeMany n s)

/-- A recovery behind a statement, in front of which something has been reported. -/
theorem of_recoverStatement {origin : Origin} (unnoted : s.Unnoted t)
    (told : s.diagnostics.size < t.diagnostics.size)
    (behind : (t.recoverStatement origin).Unnoted u) (marked : u.TopFailed) : Notes True s u :=
  .noted unnoted (.skipStatement t origin) behind (.inr ⟨trivial, told⟩) (.inr marked)

/-- A construct that has failed tells the guard nothing. -/
theorem of_failed (hfail : entry.failed = true → s.Unnoted t) (hok : Notes True s u) :
    Notes (entry.failed = false) s (if entry.failed then t else u) := by
  split
  case isTrue failed => exact .quiet (hfail failed)
  case isFalse unmarked => exact hok.imp fun _ => Bool.eq_false_iff.mpr unmarked

end Notes

/-! ## Tests -/

/-- A failure behind a report. -/
def Abandons (unheard : Prop) (fail : ParseState → ParseState) : Prop :=
  ∀ s t, s.Unnoted t → s.diagnostics.size < t.diagnostics.size → Notes unheard s (fail t)

theorem abandons_close (entry : Pending) (tag? : Option NodeKind) :
    Abandons unheard fun s => s.close entry tag? :=
  fun _ _ unnoted _ => .quiet (unnoted.trans (.close _ _ _))

theorem abandons_markEnclosing : Abandons unheard markEnclosing :=
  fun _ _ unnoted _ => .quiet (unnoted.trans (.markEnclosing _))

theorem unnoted_failStatement (kind : DeclarationKind) (failed : entry.failed = true) :
    s.Unnoted (s.failStatement entry kind) := by
  rw [failStatement, if_pos failed]
  exact (Unnoted.skipStatement s _).trans (.close _ _ _)

theorem abandons_failStatement (entry : Pending) (kind : DeclarationKind) :
    Abandons True (failStatement entry kind) := by
  intro s t unnoted told
  by_cases failed : entry.failed = true
  · exact .quiet (unnoted.trans (unnoted_failStatement kind failed))
  · rw [failStatement, if_neg failed]
    exact .of_recoverStatement unnoted told (.close _ _ _) (topFailed_close _ _)

/-- The part of a broken map field up to its closing angle. -/
theorem exists_failMapField (entry : Pending) (s : ParseState) :
    ∃ t, s.Unnoted t ∧ s.failMapField entry = t.failStatement entry .mapField := by
  refine ⟨_, ?_, rfl⟩
  split
  · exact (Unnoted.skipTo s _).trans (.addLeaf _ none true)
  · exact .skipTo s _

theorem unnoted_failMapField (failed : entry.failed = true) :
    s.Unnoted (s.failMapField entry) := by
  obtain ⟨t, unnoted, hfail⟩ := exists_failMapField entry s
  rw [hfail]
  exact unnoted.trans (unnoted_failStatement .mapField failed)

theorem abandons_failMapField (entry : Pending) : Abandons True (failMapField entry) := by
  intro s t unnoted told
  obtain ⟨v, later, hfail⟩ := exists_failMapField entry t
  rw [hfail]
  exact abandons_failStatement entry .mapField s v (unnoted.trans later)
    (Nat.lt_of_lt_of_le told later.reports)

theorem abandons_failScope (entry : Pending) (kind : ScopeKind) :
    Abandons True (failScope kind entry) := by
  intro s t unnoted told
  have behind (v : ParseState) : v.Unnoted (v.addSynthetic .scopeClose true) :=
    .same rfl rfl rfl rfl
  exact .of_recoverStatement unnoted told ((behind _).trans (.close _ _ _)) (topFailed_close _ _)

section

variable {fail ok : ParseState → ParseState} {test : Bool} {expected : List Expectation}

theorem notes_fail (hfail : Abandons unheard fail) :
    Notes unheard s (fail (s.report expected)) :=
  hfail s _ (.report s expected) (by simp [report])

theorem notes_require (hfail : Abandons unheard fail)
    (hok : test = true → Notes unheard s (ok s)) :
    Notes unheard s (s.require test expected fail ok) := by
  rw [require]
  split
  case isTrue htest => exact hok htest
  case isFalse => exact notes_fail hfail

theorem notes_expect {kind : TokenKind} (hfail : Abandons unheard fail)
    (hok : Notes unheard s.take (ok s.take)) : Notes unheard s (s.expect kind fail ok) :=
  notes_require hfail fun _ => hok.of_take

theorem notes_expectStrings (hfail : Abandons unheard fail)
    (hok : ∀ t, Notes unheard t (ok t)) : Notes unheard s (s.expectStrings fail ok) :=
  notes_require hfail fun _ => (hok _).of_takeMany

end

theorem notes_close (s : ParseState) (tag? : Option NodeKind) :
    Notes unheard s (s.close entry tag?) :=
  .quiet (.close s entry tag?)

theorem notes_markEnclosing (s : ParseState) : Notes unheard s s.markEnclosing :=
  .quiet (.markEnclosing s)

theorem notes_endStatement (kind : DeclarationKind) (s : ParseState) :
    Notes True s (s.endStatement entry kind) :=
  notes_expect (abandons_failStatement entry kind) (notes_close _ _)

/-! ## Names -/

theorem notes_qualifiedNameFirst (tag? : Option NodeKind) (s : ParseState) :
    Notes unheard s (s.qualifiedNameFirst tag? entry) := by
  rw [qualifiedNameFirst]
  split
  case isTrue =>
    refine .of_take ?_
    dsimp only
    split
    · exact .same rfl rfl rfl rfl
    · exact notes_close _ _
  case isFalse => exact notes_fail (abandons_close entry.broken tag?)

theorem notes_qualifiedName (tag? : Option NodeKind) :
    Notes unheard s (s.qualifiedName tag? entry) := by
  rw [qualifiedName]
  split
  · exact (notes_qualifiedNameFirst tag? _).of_take
  · split
    · exact .quiet (.addLeaf s tag? false)
    · exact notes_qualifiedNameFirst tag? s

theorem notes_qualifiedNameRest : Notes unheard s s.qualifiedNameRest := by
  rw [qualifiedNameRest]
  refine .of_take ?_
  dsimp only
  split
  case isTrue =>
    refine .of_take ?_
    split <;> exact .same rfl rfl rfl rfl
  case isFalse => exact notes_fail abandons_markEnclosing

theorem notes_optionNameDot (s : ParseState) : Notes unheard s s.optionNameDot := by
  rw [optionNameDot]
  split
  · exact .of_take (.same rfl rfl rfl rfl)
  · exact .same rfl rfl rfl rfl

theorem notes_optionNamePart : Notes unheard s s.optionNamePart := by
  rw [optionNamePart]
  split
  case isTrue => exact (notes_optionNameDot _).of_take
  case isFalse =>
    split
    case isTrue =>
      refine .of_take ?_
      dsimp only
      split
      · exact .same rfl rfl rfl rfl
      · exact notes_fail abandons_markEnclosing
    case isFalse => exact notes_fail abandons_markEnclosing

theorem notes_optionNameExtensionEnd : Notes unheard s (s.optionNameExtensionEnd entry) := by
  rw [optionNameExtensionEnd]
  split
  · exact notes_markEnclosing s
  · exact notes_expect abandons_markEnclosing (notes_optionNameDot _)

/-! ## The statements of a file -/

theorem notes_syntaxLevel : Notes True s.take (s.syntaxLevel entry) := by
  rw [syntaxLevel]
  have abandons := abandons_failStatement entry
  exact notes_expect (abandons _)
    (notes_expectStrings (abandons _) fun t => notes_endStatement _ t)

theorem notes_importing : Notes True s.take (s.importing entry) := by
  rw [importing]
  exact (notes_expectStrings (abandons_failStatement _ _) fun t => notes_endStatement _ t).of_takeIf

theorem notes_package : Notes True s.take (s.package entry) := by
  rw [package]
  exact notes_require (abandons_failStatement _ _) fun _ => .same rfl rfl rfl rfl

theorem notes_statementEnd (kind : DeclarationKind) :
    Notes (entry.failed = false) s (s.statementEnd kind entry) :=
  .of_failed (unnoted_failStatement kind) (notes_endStatement kind s)

theorem notes_optionAfterName : Notes (entry.failed = false) s (s.optionAfterName entry) :=
  .of_failed (unnoted_failStatement .option)
    (notes_expect (abandons_failStatement entry .option) (.same rfl rfl rfl rfl))

theorem notes_optionsOrEnd (kind : DeclarationKind) (s : ParseState) :
    Notes True s (s.optionsOrEnd kind entry) := by
  rw [optionsOrEnd]
  split
  · exact .same rfl rfl rfl rfl
  · exact (notes_close _ _).of_take
  · exact notes_fail (abandons_failStatement entry kind)

/-! ## Lists -/

theorem notes_textList : Notes unheard s (s.textList entry) := by
  rw [textList]
  refine .of_take ?_
  split
  · exact (notes_close _ _).of_take
  · exact .same rfl rfl rfl rfl

theorem unnoted_listGoOn (list : ListKind) (failed : Bool) (s : ParseState) :
    s.Unnoted (s.listGoOn list failed entry) := by
  have took : s.Unnoted s.take := .addLeaf s none false
  rw [listGoOn]
  split
  · exact took.trans (.same rfl rfl rfl rfl)
  · exact took.trans (.close _ _ _)
  · exact .close _ _ _

theorem notes_listAfterItem (list : ListKind) (failed : Bool) :
    Notes (entry.failed = false) s (s.listAfterItem list failed entry) := by
  rw [listAfterItem]
  refine .of_failed (fun _ => (Unnoted.skipTo s _).trans (unnoted_listGoOn _ _ _)) ?_
  split
  case isTrue => exact .quiet (unnoted_listGoOn _ _ _)
  case isFalse =>
    -- the report is made where the recovery begins
    have told : s.diagnostics.size <
        (s.report [.token .comma, .token (.closer .square)]).diagnostics.size := by simp [report]
    have recovers (u : ParseState)
        (behind : ((s.report [.token .comma, .token (.closer .square)]).recoverTo
          isListSeparator).1.Unnoted u)
        (settled : u.left < ((s.report [.token .comma, .token (.closer .square)]).recoverTo
          isListSeparator).1.left ∨ u.TopFailed) : Notes True s u :=
      .noted (.report s _) (.skipTo _ isListSeparator) behind (.inr ⟨trivial, told⟩) settled
    split
    case h_1 stuck hstuck =>
      refine recovers _ ?_ (.inr (topFailed_close _ _))
      rw [hstuck]
      exact .close _ _ _
    case h_2 found outcome _ hfound =>
      rw [hfound] at recovers
      exact recovers _ (unnoted_listGoOn _ _ _) (listGoOn_settled list found)

theorem notes_listOptionAfterName : Notes unheard s (s.listOptionAfterName entry) := by
  rw [listOptionAfterName]
  split
  · exact notes_close s _
  · exact notes_expect (abandons_close entry.broken _) (.same rfl rfl rfl rfl)

/-! ## Fields, enum values and ranges -/

theorem notes_fieldNameAndNumber (kind : DeclarationKind) (s : ParseState) :
    Notes True s (s.fieldNameAndNumber kind entry) := by
  have abandons := abandons_failStatement entry kind
  rw [fieldNameAndNumber]
  refine notes_require abandons fun _ => .of_takeAs .name ?_
  exact notes_expect abandons (notes_expect abandons (notes_optionsOrEnd kind _))

theorem notes_mapField : Notes True s.take (s.mapField entry) := by
  have abandons := abandons_failMapField entry
  rw [mapField]
  refine .of_take (notes_require abandons fun _ => .of_takeAs (.reference .mapKeyType) ?_)
  exact notes_expect abandons (notes_require abandons fun _ => .same rfl rfl rfl rfl)

theorem notes_mapFieldAfterValue : Notes (entry.failed = false) s (s.mapFieldAfterValue entry) :=
  .of_failed unnoted_failMapField
    (notes_expect (abandons_failMapField entry) (notes_fieldNameAndNumber _ _))

theorem notes_field (there : s.kind ≠ .eof) (ready : startsType s.kind = true) :
    Notes unheard s (s.field entry) := by
  rw [field]
  split
  case isTrue =>
    -- behind the modifier
    refine .of_read none there ?_
    split
    · exact notes_mapField.of_take
    · exact notes_require (abandons_failStatement _ _) fun _ => .same rfl rfl rfl rfl
  case isFalse =>
    split
    · exact .of_read none there notes_mapField
    · rw [require, if_pos ready]
      exact .same rfl rfl rfl rfl

theorem notes_fieldAfterType : Notes (entry.failed = false) s (s.fieldAfterType entry) :=
  .of_failed (unnoted_failStatement .field) (notes_fieldNameAndNumber .field s)

theorem notes_enumValue (there : s.kind ≠ .eof) (ready : s.kind.isIdentifierLike = true) :
    Notes unheard s (s.enumValue entry) := by
  have abandons := abandons_failStatement entry .enumValue
  rw [enumValue, require, if_pos ready]
  refine .of_read (some .name) there (notes_expect abandons ?_)
  exact (notes_expect abandons (notes_optionsOrEnd _ _)).of_takeIf

section

variable {fail ok : ParseState → ParseState}

theorem notes_signedInteger (abandons : Abandons unheard fail) (hok : ∀ t, Notes unheard t (ok t)) :
    Notes unheard s (s.signedInteger fail ok) := by
  rw [signedInteger]
  exact (notes_expect abandons (hok _)).of_takeIf

theorem notes_range (abandons : Abandons unheard fail) (hok : ∀ t, Notes unheard t (ok t)) :
    Notes unheard s (s.range fail ok) := by
  have done (token start : Nat) (t : ParseState) :
      Notes unheard t (ok (t.addParent (some token) start (some .range) false)) :=
    (hok _).mono (.same rfl rfl rfl rfl)
  rw [range]
  refine notes_signedInteger abandons fun t => ?_
  split
  case isFalse => exact done _ _ t
  case isTrue =>
    refine .of_take ?_
    dsimp only
    split
    case isTrue => exact (done _ _ _).of_take
    case isFalse =>
      split
      case isTrue => exact notes_signedInteger abandons (done _ _)
      case isFalse => exact notes_fail abandons

end

theorem notes_rangesGoOn (kind : RangesKind) (s : ParseState) :
    Notes True s (s.rangesGoOn kind entry) := by
  unfold rangesGoOn
  split
  case isTrue => exact .of_take (.same rfl rfl rfl rfl)
  case isFalse =>
    cases kind with
    | extensions => exact notes_optionsOrEnd _ s
    | reserved => exact notes_endStatement _ s

theorem notes_rangesItem (kind : RangesKind) : Notes True s (s.rangesItem kind entry) := by
  have abandons := abandons_failStatement entry kind.declaration
  unfold rangesItem
  split
  case h_1 | h_2 => exact notes_range abandons fun t => notes_rangesGoOn _ t
  case h_7 | h_8 => exact notes_fail abandons
  all_goals exact (notes_rangesGoOn _ _).of_take

/-! ## Declarations with a body -/

theorem notes_scope (kind : ScopeKind) : Notes True s.take (s.scope kind entry) := by
  have abandons := abandons_failScope entry kind
  rw [scope]
  refine notes_require abandons fun _ => .of_takeAs .name ?_
  exact notes_expect abandons (.same rfl rfl rfl rfl)

theorem notes_extend : Notes True s.take (s.extend entry) := by
  rw [extend]
  exact notes_require (abandons_failStatement _ _) fun _ => .same rfl rfl rfl rfl

theorem notes_extendAfterName : Notes (entry.failed = false) s (s.extendAfterName entry) :=
  .of_failed (unnoted_failStatement .extend)
    (notes_expect (abandons_failStatement entry .extend) (.same rfl rfl rfl rfl))

theorem notes_rpcType (after : Goal) (kind : ReferenceKind) (s : ParseState) :
    Notes True s (s.rpcType after kind entry) := by
  rw [rpcType]
  exact (notes_require (abandons_failStatement _ _) fun _ => .same rfl rfl rfl rfl).of_takeIf

theorem notes_rpc : Notes True s.take (s.rpc entry) := by
  have abandons := abandons_failStatement entry .rpc
  rw [rpc]
  refine notes_require abandons fun _ => .of_takeAs .name ?_
  exact notes_expect abandons (notes_rpcType _ _ _)

theorem notes_rpcAfterInput : Notes (entry.failed = false) s (s.rpcAfterInput entry) := by
  have abandons := abandons_failStatement entry .rpc
  refine .of_failed (unnoted_failStatement .rpc)
    (notes_expect abandons (notes_require abandons fun _ => .of_take ?_))
  exact notes_expect abandons (notes_rpcType _ _ _)

theorem notes_rpcAfterOutput : Notes (entry.failed = false) s (s.rpcAfterOutput entry) := by
  have abandons := abandons_failStatement entry .rpc
  refine .of_failed (unnoted_failStatement .rpc) (notes_expect abandons ?_)
  split
  · exact (notes_close _ _).of_take
  · exact .of_take (.same rfl rfl rfl rfl)
  · exact notes_fail abandons

/-! ## Bodies -/

/-- A body reads the token that it cannot use before it looks for something better. -/
theorem notes_bodyJunk (body : BodyKind) (again : Goal) (there : s.kind ≠ .eof) :
    Notes unheard s (s.bodyJunk body again entry) := by
  have skips (t : ParseState) (unnoted : s.Unnoted t) (hkind : t.kind = s.kind)
      (hleft : t.left = s.left) (origin : Origin) :
      Notes unheard s (t.skipJunk origin again entry) := by
    have begun : s.Unnoted (if t.kind.isOpener then t.skipGroup else t.discard) ∧
        (if t.kind.isOpener then t.skipGroup else t.discard).left < s.left := by
      split
      case isTrue opener =>
        exact ⟨unnoted.trans (.discardMany _ t), hleft ▸ left_skipGroup_lt opener⟩
      case isFalse =>
        exact ⟨unnoted.trans (.addLeaf t none true),
          hleft ▸ Nat.lt_of_succ_le (t.left_addLeaf_lt none true (hkind ▸ there)).le⟩
    exact .noted begun.1 (.skipStatement _ origin) (.same rfl rfl rfl rfl) (.inl begun.2)
      (.inr (topFailed_resume _ _))
  rw [bodyJunk_eq]
  split
  · exact skips s (.refl s) rfl rfl _
  · exact skips _ (.report s _) rfl rfl _

theorem notes_bodyStatement (body : BodyKind) (again : Goal) (there : s.kind ≠ .eof) :
    Notes unheard s (s.bodyStatement body again entry) := by
  rw [bodyStatement]
  split
  case isTrue => exact .of_take (.same rfl rfl rfl rfl)
  case isFalse =>
    split
    case h_1 => exact .same rfl rfl rfl rfl
    case h_2 => exact notes_bodyJunk body again there

theorem notes_body (kind : BodyKind) : Notes unheard s (s.body kind entry) := by
  rw [body]
  split
  case h_1 =>
    refine .mono (.quiet ?_) (.report s [.token (.closer .brace)])
    refine Unnoted.trans ?_ (.markEnclosing _)
    split <;> exact .same rfl rfl rfl rfl
  case h_2 =>
    refine .mono ?_ (.addLeaf s kind.closeTag? false)
    dsimp only
    split
    · exact notes_markEnclosing _
    · exact .same rfl rfl rfl rfl
  case h_3 there _ => exact notes_bodyStatement kind _ there

theorem notes_fragmentBody (kind : ScopeKind) : Notes unheard s (s.fragmentBody kind entry) := by
  rw [fragmentBody]
  split
  case isTrue => exact .same rfl rfl rfl rfl
  case isFalse there => exact notes_bodyStatement _ _ there

theorem notes_file : Notes unheard s (s.file entry) := by
  have junk (t : ParseState) : t.Unnoted (t.discard.resume entry .file) :=
    (Unnoted.addLeaf t none true).trans (.same rfl rfl rfl rfl)
  rw [file]
  split
  case h_1 => exact .same rfl rfl rfl rfl
  case h_2 =>
    split
    case h_1 => exact .same rfl rfl rfl rfl
    case h_2 => exact .of_take (.same rfl rfl rfl rfl)
    case h_3 =>
      dsimp only
      split
      · exact .quiet (junk s)
      · exact .quiet ((Unnoted.report s _).trans (junk _))

/-! ## Values -/

theorem notes_missingValue : Notes unheard s s.missingValue := notes_fail abandons_markEnclosing

theorem notes_value : Notes unheard s s.value := by
  rw [value]
  split
  case h_1 => exact .quiet (.takeMany _ s)
  case h_7 | h_8 =>
    split
    · exact .of_take (.quiet (.addLeaf _ none false))
    · exact notes_missingValue
  case h_9 | h_10 | h_11 => exact .same rfl rfl rfl rfl
  case h_12 => exact notes_missingValue
  all_goals exact .quiet (.addLeaf s none false)

/-- A message that skips something which has been reported tells the guard nothing. -/
theorem notes_textMessageJunk (pair : Bracket) :
    Notes (s.reportedHere = false) s (s.textMessageJunk pair entry) := by
  have marks (t : ParseState) : (t.behindJunk pair entry s.position).TopFailed := by
    rw [behindJunk]
    split
    · exact topFailed_close _ _
    · exact topFailed_resume _ _
  have ends (t : ParseState) : t.Unnoted (t.skipSeparator.behindJunk pair entry s.position) :=
    (Unnoted.skipSeparator t).trans (.behindJunk _ _ _ _)
  rw [textMessageJunk_eq]
  split
  case isTrue => exact .quiet ((Unnoted.skipTo s _).trans (ends _))
  case isFalse hnew =>
    exact .noted (.report s [.textFieldName]) (.skipTo _ (endsTextJunk pair)) (ends _)
      (.inr ⟨Bool.eq_false_iff.mpr hnew, by simp [report]⟩) (.inr (marks _))

theorem notes_textMessageBody (pair : Bracket) :
    Notes (s.reportedHere = false) s (s.textMessageBody pair entry) := by
  rw [textMessageBody]
  split
  case isTrue => exact .of_take (notes_close _ _)
  case isFalse =>
    split
    case isTrue => exact notes_fail (abandons_close entry.broken _)
    case isFalse =>
      split
      · exact .same rfl rfl rfl rfl
      · exact notes_textMessageJunk pair

theorem notes_textFieldValue (s : ParseState) : Notes unheard s (s.textFieldValue entry) := by
  have named : s.Unnoted (if s.kind == .colon then s.take else s) := .takeIf s
  rw [textFieldValue]
  dsimp only
  refine .mono ?_ named
  generalize (if s.kind == .colon then s.take else s) = t
  split
  case h_1 => exact .same rfl rfl rfl rfl
  case h_2 =>
    split
    case isTrue => exact .same rfl rfl rfl rfl
    case isFalse =>
      refine .mono ?_ (.report t [.token .colon])
      split
      · exact .same rfl rfl rfl rfl
      · exact notes_close _ _

theorem notes_textField : Notes unheard s (s.textField entry) := by
  rw [textField]
  split
  case isTrue =>
    refine .of_take (.mono ?_ (.takeRun s.take isExtensionNamePart))
    exact notes_expect (abandons_close entry.broken _) (notes_textFieldValue _)
  case isFalse => exact (notes_textFieldValue _).of_take

theorem notes_textFieldEnd : Notes unheard s (s.textFieldEnd entry) := by
  rw [textFieldEnd]
  refine .mono ?_ (.close s entry (some .textField))
  split
  · exact .quiet (.addLeaf _ none false)
  · split <;> exact .same rfl rfl rfl rfl

/-! ## All goals -/

/-- A step tells the guard of one recovery at most, and of none at its first token if the construct
heeds what has been reported there. -/
theorem notes_pursue (h : Pursued entry s) :
    Notes (¬(entry.heeds = true ∧ s.reportedHere = true)) s (pursue entry s) := by
  have ready := h.ready
  have there {goal : Goal} (hgoal : entry.goal = goal) (eager : goal.eager = true) :
      s.kind ≠ .eof := h.there (hgoal ▸ eager)
  -- inside of a body, a goal that has waited heeds only a failure of its construct
  have waited {goal : Goal} (hgoal : entry.goal = goal) (patient : goal.eager = false)
      (inner : goal.part.isInner = true) (unmarked : entry.failed = false) :
      ¬(entry.heeds = true ∧ s.reportedHere = true) := by
    simp [Pending.heeds, hgoal, patient, inner, unmarked]
  have unreported (hnew : s.reportedHere = false) :
      ¬(entry.heeds = true ∧ s.reportedHere = true) := by
    simp [hnew]
  rw [pursue]
  cases goal : entry.goal with
  | file => exact notes_file
  | fragmentBody kind => exact notes_fragmentBody kind
  | body kind => exact notes_body kind
  | textMessageBody pair => exact (notes_textMessageBody pair).imp unreported
  | syntaxLevel => exact .of_read none (there goal rfl) notes_syntaxLevel
  | importing => exact .of_read none (there goal rfl) notes_importing
  | package => exact .of_read none (there goal rfl) notes_package
  | scope kind => exact .of_read none (there goal rfl) (notes_scope kind)
  | extend => exact .of_read none (there goal rfl) notes_extend
  | rpc => exact .of_read none (there goal rfl) notes_rpc
  | field =>
    rw [goal] at ready
    exact notes_field (there goal rfl) ready
  | enumValue =>
    rw [goal] at ready
    exact notes_enumValue (there goal rfl) ready
  | option | optionList | textMessage | ranges => exact .of_take (.same rfl rfl rfl rfl)
  | textList => exact notes_textList
  | textField => exact notes_textField
  | textFieldEnd => exact notes_textFieldEnd
  | value => exact notes_value
  | qualifiedName tag? => exact notes_qualifiedName tag?
  | qualifiedNameRest => exact notes_qualifiedNameRest
  | optionNamePart => exact notes_optionNamePart
  | optionNameExtensionEnd => exact notes_optionNameExtensionEnd
  | optionName | listOption => exact .same rfl rfl rfl rfl
  | optionNameEnd | listOptionEnd | declarationEnd | qualifiedNameEnd => exact notes_close s _
  | listOptionAfterName => exact notes_listOptionAfterName
  | rangesItem kind =>
    exact (notes_rangesItem kind).imp fun _ => waited goal rfl rfl (h.fresh (goal ▸ rfl))
  | packageEnd => exact (notes_statementEnd _).imp (waited goal rfl rfl)
  | optionEnd => exact (notes_statementEnd _).imp (waited goal rfl rfl)
  | statementEnd kind => exact (notes_statementEnd _).imp (waited goal rfl rfl)
  | optionAfterName => exact notes_optionAfterName.imp (waited goal rfl rfl)
  | listAfterItem list failed =>
    exact (notes_listAfterItem list failed).imp (waited goal rfl (by cases list <;> rfl))
  | extendAfterName => exact notes_extendAfterName.imp (waited goal rfl rfl)
  | fieldAfterType => exact notes_fieldAfterType.imp (waited goal rfl rfl)
  | mapFieldAfterValue => exact notes_mapFieldAfterValue.imp (waited goal rfl rfl)
  | rpcAfterInput => exact notes_rpcAfterInput.imp (waited goal rfl rfl)
  | rpcAfterOutput => exact notes_rpcAfterOutput.imp (waited goal rfl rfl)

end ProtoFront
