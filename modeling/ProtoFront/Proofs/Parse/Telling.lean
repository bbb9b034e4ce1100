import ProtoFront.Proofs.Likeness.Declarations
import ProtoFront.Proofs.Parse.Order

/-!
# What a step tells

A step reports one thing at most (`Tells`). When it has reported something, the construct on top of
the stack is marked, unless the parser has read on; the construct around it then knows that
something has been reported. There is one exception. A text field without its colon reports that
and still asks for its value, in front of the same token, and the goal for the value knows nothing.

A construct that knows heeds it: one that has failed reports nothing more, one that begins reads a
token first, and a body looks at the last report (`Pending.heeds`). So a report is never about the
token that has been reported last, if the construct heeds that (`Heeds`).
-/

namespace ProtoFront

open ParseState

variable {entry : Pending} {s t u : ParseState}

namespace ParseState

/-- The construct on top of the stack has failed. -/
def TopFailed (s : ParseState) : Prop := ∀ top ∈ s.pending.head?, top.failed = true

theorem topFailed_markEnclosing (s : ParseState) : s.markEnclosing.TopFailed := by
  rw [TopFailed, markEnclosing]
  split
  case h_1 hpending => simp [hpending]
  case h_2 => simp

theorem topFailed_close (s : ParseState) (tag? : Option NodeKind) :
    (s.close entry.broken tag?).TopFailed :=
  topFailed_markEnclosing _

theorem topFailed_resume (s : ParseState) (goal : Goal) :
    (s.resume entry.broken goal).TopFailed := by
  simp [TopFailed, resume, Pending.broken]

/-- The parser gets from one state to another and reports nothing on the way. -/
structure Silently (s t : ParseState) : Prop where
  rest : t.cursor.rest <:+ s.cursor.rest
  endIndex : t.cursor.endIndex = s.cursor.endIndex
  diagnostics : t.diagnostics = s.diagnostics

namespace Silently

theorem refl (s : ParseState) : s.Silently s := ⟨List.suffix_refl _, rfl, rfl⟩

theorem trans (h : s.Silently t) (h' : t.Silently u) : s.Silently u :=
  ⟨h'.rest.trans h.rest, h'.endIndex.trans h.endIndex, h'.diagnostics.trans h.diagnostics⟩

theorem addLeaf (s : ParseState) (tag? : Option NodeKind) (failed : Bool) :
    s.Silently (s.addLeaf tag? failed) :=
  ⟨by rw [rest_addLeaf]; exact List.tail_suffix _, s.endIndex_addLeaf tag? failed,
    s.diagnostics_addLeaf tag? failed⟩

/-- What a leaf is tagged with does not matter. -/
theorem takeAs (s : ParseState) (tag : NodeKind) : s.take.Silently (s.takeAs tag) :=
  ⟨by rw [ParseState.takeAs, take, rest_addLeaf, rest_addLeaf],
    by rw [ParseState.takeAs, take, endIndex_addLeaf, endIndex_addLeaf],
    by rw [ParseState.takeAs, take, diagnostics_addLeaf, diagnostics_addLeaf]⟩

end Silently

end ParseState

/-- What a step from `s` to `u` tells: nothing, or what is missing in front of one token `t`. -/
inductive Tells (s u : ParseState) : Prop
  | quiet (diagnostics : u.diagnostics = s.diagnostics)
  /-- the parser reads on, or the construct on top of the stack is marked -/
  | told {t : ParseState} (expected : List Expectation) (silently : s.Silently t)
      (diagnostics : u.diagnostics = (t.report expected).diagnostics)
      (settled : u.left < t.left ∨ u.TopFailed)
  /-- a colon is missing in front of a value, which is to be read all the same -/
  | colon {t : ParseState} (silently : s.Silently t)
      (diagnostics : u.diagnostics = (t.report [.token .colon]).diagnostics)
      (stays : u.cursor = t.cursor) (scalar : startsScalar t.kind = true)
      (asks : ∀ top ∈ u.pending.head?, top.goal = .value)

namespace Tells

/-- What has been read silently does not matter. -/
theorem mono (h : Tells t u) (silently : s.Silently t) : Tells s u := by
  cases h with
  | quiet diagnostics => exact .quiet (diagnostics.trans silently.diagnostics)
  | told expected later diagnostics settled =>
    exact .told expected (silently.trans later) diagnostics settled
  | colon later diagnostics stays scalar asks =>
    exact .colon (silently.trans later) diagnostics stays scalar asks

theorem of_leaf {tag? : Option NodeKind} {failed : Bool} (h : Tells (s.addLeaf tag? failed) u) :
    Tells s u :=
  h.mono (.addLeaf s tag? failed)

theorem of_take (h : Tells s.take u) : Tells s u := h.of_leaf

theorem of_takeAs (tag : NodeKind) (h : Tells (s.takeAs tag) u) : Tells s u := h.of_leaf

theorem of_takeIf {c : Prop} {_ : Decidable c} (h : Tells (if c then s.take else s) u) :
    Tells s u := by
  split at h
  · exact h.of_leaf
  · exact h

theorem of_takeMany {n : Nat} (h : Tells (takeMany n s) u) : Tells s u := by
  induction n generalizing s with
  | zero => exact h
  | succ n ih => exact (ih h).of_leaf

end Tells

/-! ## Tests -/

/-- A failure reports nothing, and the construct around the present one fails with it. -/
def Breaks (fail : ParseState → ParseState) : Prop :=
  ∀ s, (fail s).diagnostics = s.diagnostics ∧ (fail s).TopFailed

theorem breaks_close (entry : Pending) (tag? : Option NodeKind) :
    Breaks fun s => s.close entry.broken tag? :=
  fun s => ⟨diagnostics_close tag?, topFailed_close s tag?⟩

theorem breaks_markEnclosing : Breaks markEnclosing :=
  fun s => ⟨diagnostics_markEnclosing, topFailed_markEnclosing s⟩

theorem breaks_failStatement (entry : Pending) (kind : DeclarationKind) :
    Breaks (failStatement entry kind) :=
  fun s => ⟨fails_failStatement entry kind s, topFailed_close _ _⟩

theorem breaks_failMapField (entry : Pending) : Breaks (failMapField entry) :=
  fun s => ⟨fails_failMapField entry s, topFailed_close _ _⟩

theorem breaks_failScope (entry : Pending) (kind : ScopeKind) : Breaks (failScope kind entry) :=
  fun s => ⟨fails_failScope kind entry s, topFailed_close _ _⟩

section

variable {fail ok : ParseState → ParseState} {test : Bool} {expected : List Expectation}

theorem tells_fail (hfail : Breaks fail) : Tells s (fail (s.report expected)) :=
  .told expected (.refl s) (hfail _).1 (.inr (hfail _).2)

theorem tells_require (hfail : Breaks fail) (hok : test = true → Tells s (ok s)) :
    Tells s (s.require test expected fail ok) := by
  rw [require]
  split
  case isTrue htest => exact hok htest
  case isFalse => exact tells_fail hfail

theorem tells_expect {kind : TokenKind} (hfail : Breaks fail) (hok : Tells s.take (ok s.take)) :
    Tells s (s.expect kind fail ok) :=
  tells_require hfail fun _ => hok.of_take

theorem tells_expectStrings (hfail : Breaks fail) (hok : ∀ t, Tells t (ok t)) :
    Tells s (s.expectStrings fail ok) :=
  tells_require hfail fun _ => (hok _).of_takeMany

end

theorem tells_close (s : ParseState) (tag? : Option NodeKind) : Tells s (s.close entry tag?) :=
  .quiet (diagnostics_close tag?)

theorem tells_endStatement (kind : DeclarationKind) (s : ParseState) :
    Tells s (s.endStatement entry kind) :=
  tells_expect (breaks_failStatement entry kind) (tells_close _ _)

/-! ## What has been heard -/

/-- Whether a construct knows that something has been reported, or reads on before it reports: it
has failed, or it begins, or it is a body or the whole input. -/
def Pending.heeds (entry : Pending) : Bool :=
  entry.failed || entry.goal.eager || !entry.goal.part.isInner

/-- A step tells something, but nothing about the next token if that has been `heard`. -/
structure Heeds (heard : Prop) (s u : ParseState) : Prop where
  tells : Tells s u
  heeds : heard → Tells s.take u

namespace Heeds

variable {heard : Prop}

/-- A goal that reads a token first. -/
theorem of_take (h : Tells s.take u) : Heeds heard s u := ⟨h.of_take, fun _ => h⟩

theorem of_quiet (h : u.diagnostics = s.diagnostics) : Heeds heard s u :=
  of_take (.quiet (h.trans (s.diagnostics_addLeaf none false).symm))

/-- A goal in front of which nothing can have been heard. -/
theorem of_tells (h : Tells s u) (unheard : ¬heard) : Heeds heard s u :=
  ⟨h, fun hheard => absurd hheard unheard⟩

theorem imp {other : Prop} (h : Heeds heard s u) (hother : other → heard) : Heeds other s u :=
  ⟨h.tells, fun hheard => h.heeds (hother hheard)⟩

/-- A construct that has failed is quiet. -/
theorem of_failed (hfail : t.diagnostics = s.diagnostics) (hok : Tells s u) :
    Heeds (entry.failed = true) s (if entry.failed then t else u) := by
  split
  case isTrue => exact of_quiet hfail
  case isFalse hfailed => exact of_tells hok hfailed

end Heeds

/-! ## Names -/

theorem tells_qualifiedNameFirst (tag? : Option NodeKind) (s : ParseState) :
    Tells s (s.qualifiedNameFirst tag? entry) := by
  rw [qualifiedNameFirst]
  split
  case isTrue =>
    refine .of_take ?_
    dsimp only
    split
    · exact .quiet rfl
    · exact tells_close _ _
  case isFalse => exact tells_fail (breaks_close entry tag?)

theorem tells_qualifiedName {tag? : Option NodeKind} (ready : startsType s.kind = true) :
    Tells s.take (s.qualifiedName tag? entry) := by
  rw [qualifiedName]
  split
  case isTrue => exact tells_qualifiedNameFirst tag? _
  case isFalse hdot =>
    have hname : s.kind.isIdentifierLike = true := by simpa [startsType, hdot] using ready
    split
    case isTrue =>
      exact .quiet (by rw [diagnostics_addLeaf, take, diagnostics_addLeaf])
    case isFalse =>
      rw [qualifiedNameFirst, if_pos hname]
      dsimp only
      split
      · exact .quiet rfl
      · exact tells_close _ _

theorem tells_qualifiedNameRest : Tells s.take s.qualifiedNameRest := by
  rw [qualifiedNameRest]
  dsimp only
  split
  case isTrue =>
    refine .of_take ?_
    split <;> exact .quiet rfl
  case isFalse => exact tells_fail breaks_markEnclosing

theorem tells_optionNameDot (s : ParseState) : Tells s s.optionNameDot := by
  rw [optionNameDot]
  split
  · exact .of_take (.quiet rfl)
  · exact .quiet rfl

theorem tells_optionNamePart : Tells s s.optionNamePart := by
  rw [optionNamePart]
  split
  case isTrue => exact (tells_optionNameDot _).of_take
  case isFalse =>
    split
    case isTrue =>
      refine .of_take ?_
      dsimp only
      split
      · exact .quiet rfl
      · exact tells_fail breaks_markEnclosing
    case isFalse => exact tells_fail breaks_markEnclosing

theorem heeds_optionNameExtensionEnd :
    Heeds (entry.failed = true) s (s.optionNameExtensionEnd entry) :=
  .of_failed (breaks_markEnclosing s).1
    (tells_expect breaks_markEnclosing (tells_optionNameDot _))

/-! ## The statements of a file -/

theorem tells_syntaxLevel : Tells s.take (s.syntaxLevel entry) := by
  rw [syntaxLevel]
  have breaks := breaks_failStatement entry
  exact tells_expect (breaks _) (tells_expectStrings (breaks _) fun t => tells_endStatement _ t)

theorem tells_importing : Tells s.take (s.importing entry) := by
  rw [importing]
  exact (tells_expectStrings (breaks_failStatement _ _) fun t => tells_endStatement _ t).of_takeIf

theorem tells_package : Tells s.take (s.package entry) := by
  rw [package]
  exact tells_require (breaks_failStatement _ _) fun _ => .quiet rfl

theorem heeds_statementEnd (kind : DeclarationKind) :
    Heeds (entry.failed = true) s (s.statementEnd kind entry) :=
  .of_failed (fails_failStatement entry kind s) (tells_endStatement kind s)

theorem heeds_optionAfterName : Heeds (entry.failed = true) s (s.optionAfterName entry) :=
  .of_failed (fails_failStatement entry .option s)
    (tells_expect (breaks_failStatement entry .option) (.quiet rfl))

theorem tells_optionsOrEnd (kind : DeclarationKind) (s : ParseState) :
    Tells s (s.optionsOrEnd kind entry) := by
  rw [optionsOrEnd]
  split
  · exact .quiet rfl
  · exact (tells_close _ _).of_take
  · exact tells_fail (breaks_failStatement entry kind)

/-! ## Lists -/

theorem tells_textList : Tells s.take (s.textList entry) := by
  rw [textList]
  split
  · exact (tells_close _ _).of_take
  · exact .quiet rfl

/-- A list goes on behind a comma, or it is closed. -/
theorem listGoOn_settled (list : ListKind) (s : ParseState) :
    (s.listGoOn list true entry).left < s.left ∨ (s.listGoOn list true entry).TopFailed := by
  rw [listGoOn]
  split
  case h_1 hkind =>
    have hread := s.left_take_lt (by rw [hkind]; decide)
    refine .inl ?_
    change s.take.left < s.left
    omega
  case h_2 => exact .inr (topFailed_markEnclosing _)
  case h_3 => exact .inr (topFailed_close _ _)

theorem heeds_listAfterItem (list : ListKind) (failed : Bool) :
    Heeds (entry.failed = true) s (s.listAfterItem list failed entry) := by
  rw [listAfterItem]
  split
  case isTrue => exact .of_quiet (by rw [diagnostics_listGoOn, diagnostics_skipTo])
  case isFalse hfailed =>
    refine .of_tells ?_ hfailed
    split
    case isTrue => exact .quiet diagnostics_listGoOn
    case isFalse =>
      have hrecovered :=
        diagnostics_recoverTo (s := s.report [.token .comma, .token (.closer .square)])
          isListSeparator
      have hleft : ((s.report [.token .comma, .token (.closer .square)]).recoverTo
          isListSeparator).1.left ≤ s.left := left_recoverTo_le _ _
      split
      case h_1 stuck hstuck =>
        rw [hstuck] at hrecovered
        refine .told [.token .comma, .token (.closer .square)] (.refl s) ?_
          (.inr (topFailed_close _ _))
        rw [diagnostics_close]
        exact hrecovered
      case h_2 found outcome _ hfound =>
        rw [hfound] at hrecovered hleft
        refine .told [.token .comma, .token (.closer .square)] (.refl s) ?_ ?_
        · rw [diagnostics_listGoOn]
          exact hrecovered
        · exact (listGoOn_settled list found).imp_left fun hlt => Nat.lt_of_lt_of_le hlt hleft

theorem heeds_listOptionAfterName :
    Heeds (entry.failed = true) s (s.listOptionAfterName entry) := by
  rw [listOptionAfterName]
  split
  case isTrue => exact .of_quiet (diagnostics_close _)
  case isFalse hfailed =>
    exact .of_tells (tells_expect (breaks_close entry _) (.quiet rfl)) hfailed

/-! ## Fields, enum values and ranges -/

theorem tells_fieldNameAndNumber (kind : DeclarationKind) (s : ParseState) :
    Tells s (s.fieldNameAndNumber kind entry) := by
  have breaks := breaks_failStatement entry kind
  rw [fieldNameAndNumber]
  refine tells_require breaks fun _ => .of_takeAs .name ?_
  exact tells_expect breaks (tells_expect breaks (tells_optionsOrEnd kind _))

theorem tells_mapField : Tells s.take (s.mapField entry) := by
  have breaks := breaks_failMapField entry
  rw [mapField]
  refine .of_take (tells_require breaks fun _ => .of_takeAs (.reference .mapKeyType) ?_)
  exact tells_expect breaks (tells_require breaks fun _ => .quiet rfl)

theorem heeds_mapFieldAfterValue : Heeds (entry.failed = true) s (s.mapFieldAfterValue entry) :=
  .of_failed (fails_failMapField entry s)
    (tells_expect (breaks_failMapField entry) (tells_fieldNameAndNumber _ _))

theorem tells_field (ready : startsType s.kind = true) : Tells s.take (s.field entry) := by
  rw [field]
  split
  case isTrue =>
    -- behind the modifier
    split
    · exact tells_mapField.of_take
    · exact tells_require (breaks_failStatement _ _) fun _ => .quiet rfl
  case isFalse =>
    split
    · exact tells_mapField
    · rw [require, if_pos ready]
      exact .quiet (s.diagnostics_addLeaf none false).symm

theorem heeds_fieldAfterType : Heeds (entry.failed = true) s (s.fieldAfterType entry) :=
  .of_failed (fails_failStatement entry .field s) (tells_fieldNameAndNumber .field s)

theorem tells_enumValue (ready : s.kind.isIdentifierLike = true) :
    Tells s.take (s.enumValue entry) := by
  have breaks := breaks_failStatement entry .enumValue
  rw [enumValue, require, if_pos ready]
  refine Tells.mono (tells_expect breaks ?_) (.takeAs s .name)
  exact (tells_expect breaks (tells_optionsOrEnd _ _)).of_takeIf

section

variable {fail ok : ParseState → ParseState}

theorem tells_signedInteger (breaks : Breaks fail) (hok : ∀ t, Tells t (ok t)) :
    Tells s (s.signedInteger fail ok) := by
  rw [signedInteger]
  exact (tells_expect breaks (hok _)).of_takeIf

theorem tells_range (breaks : Breaks fail) (hok : ∀ t, Tells t (ok t)) :
    Tells s (s.range fail ok) := by
  have done (token start : Nat) (t : ParseState) :
      Tells t (ok (t.addParent (some token) start (some .range) false)) :=
    (hok _).mono ⟨List.suffix_refl _, rfl, rfl⟩
  rw [range]
  refine tells_signedInteger breaks fun t => ?_
  split
  case isFalse => exact done _ _ t
  case isTrue =>
    refine .of_take ?_
    dsimp only
    split
    case isTrue => exact (done _ _ _).of_take
    case isFalse =>
      split
      case isTrue => exact tells_signedInteger breaks (done _ _)
      case isFalse => exact tells_fail breaks

end

theorem tells_rangesGoOn (kind : RangesKind) (s : ParseState) :
    Tells s (s.rangesGoOn kind entry) := by
  unfold rangesGoOn
  split
  case isTrue => exact .of_take (.quiet rfl)
  case isFalse =>
    cases kind with
    | extensions => exact tells_optionsOrEnd _ s
    | reserved => exact tells_endStatement _ s

theorem tells_rangesItem (kind : RangesKind) : Tells s (s.rangesItem kind entry) := by
  have breaks := breaks_failStatement entry kind.declaration
  unfold rangesItem
  split
  case h_1 | h_2 => exact tells_range breaks fun t => tells_rangesGoOn _ t
  case h_7 | h_8 => exact tells_fail breaks
  all_goals exact (tells_rangesGoOn _ _).of_take

/-! ## Declarations with a body -/

theorem tells_scope (kind : ScopeKind) : Tells s.take (s.scope kind entry) := by
  have breaks := breaks_failScope entry kind
  rw [scope]
  refine tells_require breaks fun _ => .of_takeAs .name ?_
  exact tells_expect breaks (.quiet rfl)

theorem tells_extend : Tells s.take (s.extend entry) := by
  rw [extend]
  exact tells_require (breaks_failStatement _ _) fun _ => .quiet rfl

theorem heeds_extendAfterName : Heeds (entry.failed = true) s (s.extendAfterName entry) :=
  .of_failed (fails_failStatement entry .extend s)
    (tells_expect (breaks_failStatement entry .extend) (.quiet rfl))

theorem tells_rpcType (after : Goal) (kind : ReferenceKind) (s : ParseState) :
    Tells s (s.rpcType after kind entry) := by
  rw [rpcType]
  exact (tells_require (breaks_failStatement _ _) fun _ => .quiet rfl).of_takeIf

theorem tells_rpc : Tells s.take (s.rpc entry) := by
  have breaks := breaks_failStatement entry .rpc
  rw [rpc]
  refine tells_require breaks fun _ => .of_takeAs .name ?_
  exact tells_expect breaks (tells_rpcType _ _ _)

theorem heeds_rpcAfterInput : Heeds (entry.failed = true) s (s.rpcAfterInput entry) := by
  have breaks := breaks_failStatement entry .rpc
  refine .of_failed (breaks s).1
    (tells_expect breaks (tells_require breaks fun _ => .of_take ?_))
  exact tells_expect breaks (tells_rpcType _ _ _)

theorem heeds_rpcAfterOutput : Heeds (entry.failed = true) s (s.rpcAfterOutput entry) := by
  have breaks := breaks_failStatement entry .rpc
  refine .of_failed (breaks s).1 (tells_expect breaks ?_)
  split
  · exact (tells_close _ _).of_take
  · exact .of_take (.quiet rfl)
  · exact tells_fail breaks

/-! ## Bodies -/

theorem heeds_bodyJunk (body : BodyKind) (again : Goal) :
    Heeds (s.reportedHere = true) s (s.bodyJunk body again entry) := by
  have skips (t : ParseState) : (t.skipJunk s.cursor.origin again entry).diagnostics =
      t.diagnostics := by
    change (recoverStatement _ _).diagnostics = _
    rw [diagnostics_recoverStatement]
    split
    · exact diagnostics_skipGroup
    · exact t.diagnostics_addLeaf none true
  rw [bodyJunk_eq]
  split
  case isTrue => exact .of_quiet (skips s)
  case isFalse hnew =>
    exact .of_tells (.told _ (.refl s) (skips _) (.inr (topFailed_resume _ _))) hnew

theorem heeds_bodyStatement (body : BodyKind) (again : Goal) :
    Heeds (s.reportedHere = true) s (s.bodyStatement body again entry) := by
  rw [bodyStatement]
  split
  case isTrue => exact .of_take (.quiet rfl)
  case isFalse =>
    split
    case h_1 => exact .of_quiet rfl
    case h_2 => exact heeds_bodyJunk body again

theorem heeds_body (kind : BodyKind) :
    Heeds (s.reportedHere = true ∧ s.kind ≠ .eof) s (s.body kind entry) := by
  rw [body]
  split
  case h_1 heof =>
    refine .of_tells (.told [.token (.closer .brace)] (.refl s) ?_
      (.inr (topFailed_markEnclosing _))) fun h => h.2 heof
    rw [diagnostics_markEnclosing]
    cases kind.closeTag? <;> rfl
  case h_2 =>
    refine .of_quiet ?_
    dsimp only
    split
    · rw [diagnostics_markEnclosing, diagnostics_addLeaf]
    · rw [diagnostics_addLeaf]
  case h_3 => exact (heeds_bodyStatement kind _).imp And.left

theorem heeds_fragmentBody (kind : ScopeKind) :
    Heeds (s.reportedHere = true) s (s.fragmentBody kind entry) := by
  rw [fragmentBody]
  split
  · exact .of_quiet rfl
  · exact heeds_bodyStatement _ _

theorem heeds_file : Heeds (s.reportedHere = true) s (s.file entry) := by
  rw [file]
  split
  case h_1 => exact .of_quiet rfl
  case h_2 =>
    split
    case h_1 => exact .of_quiet rfl
    case h_2 => exact .of_take (.quiet rfl)
    case h_3 there _ =>
      split
      case isTrue => exact .of_quiet (s.diagnostics_addLeaf none true)
      case isFalse hnew =>
        have hread := (s.report [.topLevelStatement]).left_addLeaf_lt none true there
        refine .of_tells (.told [.topLevelStatement] (.refl s) ?_ (.inl ?_)) hnew
        · exact (s.report _).diagnostics_addLeaf none true
        · rw [left_report] at hread
          change ((s.report [.topLevelStatement]).addLeaf none true).left < s.left
          omega

/-! ## Values -/

theorem tells_missingValue : Tells s s.missingValue := tells_fail breaks_markEnclosing

theorem tells_value : Tells s s.value := by
  rw [value]
  split
  case h_1 => exact Tells.of_takeMany (.quiet rfl)
  case h_7 | h_8 =>
    split
    · exact .of_take (.of_take (.quiet rfl))
    · exact tells_missingValue
  case h_9 | h_10 | h_11 => exact .quiet rfl
  case h_12 => exact tells_missingValue
  all_goals exact .of_take (.quiet rfl)

theorem heeds_textMessageJunk (pair : Bracket) :
    Heeds (s.reportedHere = true) s (s.textMessageJunk pair entry) := by
  have marks (t : ParseState) : (t.behindJunk pair entry s.position).TopFailed := by
    rw [behindJunk]
    split
    · exact topFailed_close _ _
    · exact topFailed_resume _ _
  rw [textMessageJunk_eq]
  split
  case isTrue =>
    exact .of_quiet (by rw [diagnostics_behindJunk, diagnostics_skipSeparator, diagnostics_skipTo])
  case isFalse hnew =>
    refine .of_tells (.told [.textFieldName] (.refl s) ?_ (.inr (marks _))) hnew
    rw [diagnostics_behindJunk, diagnostics_skipSeparator, diagnostics_recoverTo]

theorem heeds_textMessageBody (pair : Bracket) :
    Heeds (s.reportedHere = true ∧ s.kind ≠ .eof) s (s.textMessageBody pair entry) := by
  rw [textMessageBody]
  split
  case isTrue => exact .of_take (tells_close _ _)
  case isFalse =>
    split
    case isTrue heof =>
      exact .of_tells (tells_fail (breaks_close entry _)) fun h => h.2 heof
    case isFalse =>
      split
      · exact .of_quiet rfl
      · exact (heeds_textMessageJunk pair).imp And.left

theorem tells_textFieldValue (s : ParseState) : Tells s (s.textFieldValue entry) := by
  have named : s.Silently (if s.kind == .colon then s.take else s) := by
    split
    · exact .addLeaf s none false
    · exact .refl s
  rw [textFieldValue]
  dsimp only
  refine Tells.mono ?_ named
  generalize (if s.kind == .colon then s.take else s) = t
  split
  case h_1 => exact .quiet rfl
  case h_2 =>
    split
    case isTrue => exact .quiet rfl
    case isFalse =>
      split
      case isTrue hscalar =>
        exact .colon (.refl t) rfl rfl hscalar fun top htop => by
          obtain rfl := Option.some.inj htop
          rfl
      case isFalse => exact tells_fail (breaks_close entry _)

theorem tells_textField : Tells s.take (s.textField entry) := by
  rw [textField]
  split
  case isTrue =>
    exact Tells.of_takeMany (tells_expect (breaks_close entry _) (tells_textFieldValue _))
  case isFalse => exact tells_textFieldValue _

theorem heeds_textFieldEnd {heard : Prop} : Heeds heard s (s.textFieldEnd entry) := by
  refine .of_quiet ?_
  rw [textFieldEnd]
  split
  · rw [take, diagnostics_addLeaf]
    exact diagnostics_close _
  · split <;> exact diagnostics_close _

/-! ## All goals -/

/-- A step reports one thing at most, and it does not report its first token again if the construct
heeds what has been reported. -/
theorem heeds_pursue (h : Pursued entry s) :
    Heeds (entry.heeds = true ∧ s.reportedHere = true ∧ s.kind ≠ .eof) s (pursue entry s) := by
  have ready := h.ready
  -- inside of a body, a goal that has waited heeds only a failure of its construct
  have waited {goal : Goal} (hgoal : entry.goal = goal) (patient : goal.eager = false)
      (inner : goal.part.isInner = true)
      (heard : entry.heeds = true ∧ s.reportedHere = true ∧ s.kind ≠ .eof) :
      entry.failed = true := by
    simpa [Pending.heeds, hgoal, patient, inner] using heard.1
  -- a goal that begins has not failed
  have unheard {goal : Goal} (hgoal : entry.goal = goal) (patient : goal.eager = false)
      (inner : goal.part.isInner = true) (begins : goal.awaits? = none) :
      ¬(entry.heeds = true ∧ s.reportedHere = true ∧ s.kind ≠ .eof) := by
    intro heard
    have hfailed := waited hgoal patient inner heard
    rw [h.fresh (hgoal ▸ begins)] at hfailed
    cases hfailed
  rw [pursue]
  cases goal : entry.goal with
  | file => exact heeds_file.imp fun heard => heard.2.1
  | fragmentBody kind => exact (heeds_fragmentBody kind).imp fun heard => heard.2.1
  | body kind => exact (heeds_body kind).imp And.right
  | textMessageBody pair => exact (heeds_textMessageBody pair).imp And.right
  | syntaxLevel => exact .of_take tells_syntaxLevel
  | importing => exact .of_take tells_importing
  | package => exact .of_take tells_package
  | option => exact .of_take (.quiet rfl)
  | optionList => exact .of_take (.quiet rfl)
  | textList => exact .of_take tells_textList
  | textMessage => exact .of_take (.quiet rfl)
  | textField => exact .of_take tells_textField
  | ranges => exact .of_take (.quiet rfl)
  | scope kind => exact .of_take (tells_scope kind)
  | extend => exact .of_take tells_extend
  | rpc => exact .of_take tells_rpc
  | qualifiedNameRest => exact .of_take tells_qualifiedNameRest
  | field =>
    rw [goal] at ready
    exact .of_take (tells_field ready)
  | enumValue =>
    rw [goal] at ready
    exact .of_take (tells_enumValue ready)
  | qualifiedName tag? =>
    rw [goal, Goal.ready, Bool.and_eq_true] at ready
    refine .of_take (tells_qualifiedName ?_)
    have hready := ready.2
    split at hready
    · rw [startsType, hready, Bool.true_or]
    · exact hready
  | optionName | listOption => exact .of_quiet rfl
  | optionNameEnd | listOptionEnd | declarationEnd | qualifiedNameEnd =>
    exact .of_quiet (diagnostics_close _)
  | textFieldEnd => exact heeds_textFieldEnd
  | value => exact .of_tells tells_value (unheard goal rfl rfl rfl)
  | optionNamePart => exact .of_tells tells_optionNamePart (unheard goal rfl rfl rfl)
  | rangesItem kind => exact .of_tells (tells_rangesItem kind) (unheard goal rfl rfl rfl)
  | packageEnd => exact (heeds_statementEnd _).imp (waited goal rfl rfl)
  | optionEnd => exact (heeds_statementEnd _).imp (waited goal rfl rfl)
  | statementEnd kind => exact (heeds_statementEnd _).imp (waited goal rfl rfl)
  | optionAfterName => exact heeds_optionAfterName.imp (waited goal rfl rfl)
  | optionNameExtensionEnd => exact heeds_optionNameExtensionEnd.imp (waited goal rfl rfl)
  | listOptionAfterName => exact heeds_listOptionAfterName.imp (waited goal rfl rfl)
  | listAfterItem list failed =>
    exact (heeds_listAfterItem list failed).imp (waited goal rfl (by cases list <;> rfl))
  | extendAfterName => exact heeds_extendAfterName.imp (waited goal rfl rfl)
  | fieldAfterType => exact heeds_fieldAfterType.imp (waited goal rfl rfl)
  | mapFieldAfterValue => exact heeds_mapFieldAfterValue.imp (waited goal rfl rfl)
  | rpcAfterInput => exact heeds_rpcAfterInput.imp (waited goal rfl rfl)
  | rpcAfterOutput => exact heeds_rpcAfterOutput.imp (waited goal rfl rfl)

end ProtoFront
