import ProtoFront.Proofs.Parse.Building

/-!
# The goals without a package

Every goal that is not for all of the input, a package or the name of a package builds common nodes,
and puts only such goals on the stack (`builds_pursue`).
-/

namespace ProtoFront

open ParseState

variable {entry : Pending} {u s : ParseState} {tag? : Option NodeKind} {pair : Bracket}

/-! ## Names -/

theorem builds_qualifiedNameFirst (h : Builds entry.start u s)
    (common : tag?.all NodeKind.isCommon = true) :
    Builds entry.start u (s.qualifiedNameFirst tag? entry) := by
  rw [qualifiedNameFirst]
  split
  · dsimp only
    split
    · exact (h.take.resume entry (.qualifiedNameEnd tag?) common).pushGoal _ rfl
    · exact h.take.close entry tag? common
  · exact (h.report _).close entry.broken tag? common

theorem builds_qualifiedName (h : Builds entry.start u s)
    (common : tag?.all NodeKind.isCommon = true) :
    Builds entry.start u (s.qualifiedName tag? entry) := by
  rw [qualifiedName]
  split
  · exact builds_qualifiedNameFirst h.take common
  · split
    · exact h.addLeaf tag? false (.inl common)
    · exact builds_qualifiedNameFirst h common

theorem builds_qualifiedNameRest (h : Builds entry.start u s) :
    Builds entry.start u s.qualifiedNameRest := by
  rw [qualifiedNameRest]
  dsimp only
  split
  · split
    · exact h.take.take.pushGoal _ rfl
    · exact h.take.take
  · exact (h.take.report _).markEnclosing

theorem builds_optionName (h : Builds entry.start u s) :
    Builds entry.start u (s.optionName entry) :=
  (h.resume entry .optionNameEnd rfl).pushGoal _ rfl

theorem builds_optionNameDot (h : Builds entry.start u s) :
    Builds entry.start u s.optionNameDot := by
  rw [optionNameDot]
  split
  · exact h.take.pushGoal _ rfl
  · exact h

theorem builds_optionNamePart (h : Builds entry.start u s) :
    Builds entry.start u s.optionNamePart := by
  rw [optionNamePart]
  split
  · exact builds_optionNameDot h.take
  · split
    · dsimp only
      split
      · exact (h.take.pushGoal .optionNameExtensionEnd rfl).pushGoal _ rfl
      · exact (h.take.report _).markEnclosing
    · exact (h.report _).markEnclosing

theorem builds_optionNameExtensionEnd (h : Builds entry.start u s) :
    Builds entry.start u (s.optionNameExtensionEnd entry) := by
  rw [optionNameExtensionEnd]
  split
  · exact h.markEnclosing
  · exact h.expect _ (fun _ ht => ht.markEnclosing) fun _ ht => builds_optionNameDot ht

/-! ## Options and lists -/

theorem builds_optionStatement (h : Builds entry.start u s) :
    Builds entry.start u (s.optionStatement entry) :=
  (h.take.resume entry .optionAfterName rfl).pushGoal _ rfl

theorem builds_optionAfterName (h : Builds entry.start u s) :
    Builds entry.start u (s.optionAfterName entry) := by
  rw [optionAfterName]
  split
  · exact h.failStatement rfl
  · exact h.expect _ (fun _ ht => ht.failStatement rfl)
      fun _ ht => (ht.resume entry .optionEnd rfl).pushGoal _ rfl

theorem builds_optionList (h : Builds entry.start u s) :
    Builds entry.start u (s.optionList entry) :=
  (h.take.resume entry (.listAfterItem .options false) rfl).pushGoal _ rfl

theorem ListKind.isCommon_tag? (list : ListKind) : list.tag?.all NodeKind.isCommon = true := by
  cases list <;> rfl

theorem builds_textList (h : Builds entry.start u s) :
    Builds entry.start u (s.textList entry) := by
  rw [textList]
  split
  · exact h.take.take.close entry _ (ListKind.isCommon_tag? .values)
  · exact (h.take.resume entry (.listAfterItem .values false) rfl).pushGoal _ rfl

theorem builds_listGoOn (h : Builds entry.start u s) (list : ListKind) (failed : Bool) :
    Builds entry.start u (s.listGoOn list failed entry) := by
  rw [listGoOn]
  split
  · have waiting := h.take.resume { entry with failed := false } (.listAfterItem list failed) rfl
    exact waiting.pushGoal _ (by cases list <;> rfl)
  · exact h.take.close { entry with failed } _ list.isCommon_tag?
  · exact h.close entry.broken _ list.isCommon_tag?

theorem builds_listAfterItem (h : Builds entry.start u s) (list : ListKind) (failed : Bool) :
    Builds entry.start u (s.listAfterItem list failed entry) := by
  rw [listAfterItem]
  split
  · exact builds_listGoOn (h.skipTo _) list true
  · split
    · exact builds_listGoOn h list failed
    · -- whether or not the guard gives up, the parser stands behind the same skip
      have recovered := (h.report [.token .comma, .token (.closer .square)]).recoverTo
        isListSeparator
      split
      case h_1 hfound =>
        rw [hfound] at recovered
        exact recovered.close entry.broken _ list.isCommon_tag?
      case h_2 hfound =>
        rw [hfound] at recovered
        exact builds_listGoOn recovered list true

theorem builds_listOption (h : Builds entry.start u s) :
    Builds entry.start u (s.listOption entry) :=
  (h.resume entry .listOptionAfterName rfl).pushGoal _ rfl

theorem builds_listOptionEnd (entry : Pending) (h : Builds entry.start u s) :
    Builds entry.start u (s.listOptionEnd entry) :=
  h.close entry _ rfl

theorem builds_listOptionAfterName (h : Builds entry.start u s) :
    Builds entry.start u (s.listOptionAfterName entry) := by
  rw [listOptionAfterName]
  split
  · exact builds_listOptionEnd entry h
  · exact h.expect _ (fun _ ht => builds_listOptionEnd entry.broken ht)
      fun _ ht => (ht.resume entry .listOptionEnd rfl).pushGoal _ rfl

/-! ## Values -/

theorem builds_missingValue (h : Builds entry.start u s) :
    Builds entry.start u s.missingValue := (h.report _).markEnclosing

theorem builds_value (h : Builds entry.start u s) : Builds entry.start u s.value := by
  rw [value]
  split
  case h_1 => exact h.takeRun _
  case h_7 | h_8 =>
    split
    · exact h.take.take
    · exact builds_missingValue h
  case h_9 | h_10 | h_11 => exact h.pushGoal _ rfl
  case h_12 => exact builds_missingValue h
  all_goals exact h.take

theorem builds_textMessage (h : Builds entry.start u s) :
    Builds entry.start u (s.textMessage pair entry) :=
  h.take.resume entry (.textMessageBody pair) rfl

theorem builds_closeTextMessage (entry : Pending) (h : Builds entry.start u s) :
    Builds entry.start u (s.closeTextMessage entry) := h.close entry _ rfl

theorem builds_textMessageJunk (h : Builds entry.start u s) :
    Builds entry.start u (s.textMessageJunk pair entry) := by
  have onward {t : ParseState} (separated : Builds entry.start u t) : Builds entry.start u
      (if t.position = s.position then t.closeTextMessage entry.broken
        else t.resume entry.broken (.textMessageBody pair)) := by
    split
    · exact builds_closeTextMessage entry.broken separated
    · exact separated.resume entry.broken (.textMessageBody pair) rfl
  have separated {t : ParseState} (skipped : Builds entry.start u t) :
      Builds entry.start u (if isTextSeparator t.kind then t.discard else t) := by
    split
    · exact skipped.discard
    · exact skipped
  rw [textMessageJunk]
  by_cases reported : s.reportedHere = true
  · rw [if_pos reported]
    exact onward (separated (h.skipTo _))
  · rw [if_neg reported]
    exact onward (separated ((h.report _).recoverTo _))

theorem builds_textMessageBody (h : Builds entry.start u s) :
    Builds entry.start u (s.textMessageBody pair entry) := by
  rw [textMessageBody]
  split
  · exact builds_closeTextMessage entry h.take
  · split
    · exact builds_closeTextMessage entry.broken (h.report _)
    · split
      · exact (h.resume entry (.textMessageBody pair) rfl).pushGoal _ rfl
      · exact builds_textMessageJunk h

theorem isCommon_of_compositeGoal? {kind : TokenKind} {goal : Goal}
    (h : compositeGoal? kind = some goal) : goal.isCommon = true := by
  unfold compositeGoal? at h
  split at h <;> cases h <;> rfl

theorem builds_closeTextField (entry : Pending) (h : Builds entry.start u s) :
    Builds entry.start u (s.closeTextField entry) := h.close entry _ rfl

theorem builds_textFieldValue (h : Builds entry.start u s) :
    Builds entry.start u (s.textFieldValue entry) := by
  have named : Builds entry.start u (if s.kind == .colon then s.take else s) := h.takeIf _
  rw [textFieldValue]
  dsimp only
  generalize (if s.kind == .colon then s.take else s) = t at named ⊢
  split
  case h_1 goal hgoal =>
    exact (named.resume entry .textFieldEnd rfl).pushGoal _ (isCommon_of_compositeGoal? hgoal)
  case h_2 =>
    split
    · exact (named.resume entry .textFieldEnd rfl).pushGoal _ rfl
    · split
      · exact ((named.report _).resume entry.broken .textFieldEnd rfl).pushGoal _ rfl
      · exact builds_closeTextField entry.broken (named.report _)

theorem builds_textField (h : Builds entry.start u s) :
    Builds entry.start u (s.textField entry) := by
  rw [textField]
  split
  · exact (h.take.takeRun _).expect _ (fun _ ht => builds_closeTextField entry.broken ht)
      fun _ ht => builds_textFieldValue ht
  · exact builds_textFieldValue h.take

theorem builds_textFieldEnd (h : Builds entry.start u s) :
    Builds entry.start u (s.textFieldEnd entry) := by
  have closed := builds_closeTextField entry h
  rw [textFieldEnd]
  split
  · exact closed.take
  · split
    · exact closed.addSynthetic rfl false
    · exact closed

/-! ## Fields, enum values and ranges -/

theorem builds_fieldNameAndNumber {kind : DeclarationKind} (h : Builds entry.start u s)
    (common : (NodeKind.declaration kind).isCommon = true) :
    Builds entry.start u (s.fieldNameAndNumber kind entry) := by
  have fail (t) (ht : Builds entry.start u t) : Builds entry.start u
      (t.failStatement entry kind) := ht.failStatement common
  rw [fieldNameAndNumber]
  refine h.require _ _ fail fun _ there => ?_
  refine there.takeAs_name.expect _ fail fun _ named => ?_
  exact named.expect _ fail fun _ numbered => numbered.optionsOrEnd common

theorem builds_failMapField (h : Builds entry.start u s) :
    Builds entry.start u (s.failMapField entry) := by
  have skipped := h.skipTo fun kind => kind == .closer .angle || kind == .semicolon
  rw [failMapField]
  split
  · exact skipped.discard.failStatement rfl
  · exact skipped.failStatement rfl

theorem builds_mapField (h : Builds entry.start u s) :
    Builds entry.start u (s.mapField entry) := by
  have fail (t) (ht : Builds entry.start u t) : Builds entry.start u
      (t.failMapField entry) := builds_failMapField ht
  rw [mapField]
  refine h.take.take.require _ _ fail fun _ there => ?_
  have keyed := there.addLeaf (some (.reference .mapKeyType)) false (.inl rfl)
  refine keyed.expect _ fail fun _ divided => ?_
  refine divided.require _ _ fail fun _ valued => ?_
  exact (valued.resume entry .mapFieldAfterValue rfl).pushGoal _ rfl

theorem builds_mapFieldAfterValue (h : Builds entry.start u s) :
    Builds entry.start u (s.mapFieldAfterValue entry) := by
  rw [mapFieldAfterValue]
  split
  · exact builds_failMapField h
  · exact h.expect _ (fun _ ht => builds_failMapField ht)
      fun _ ht => builds_fieldNameAndNumber ht rfl

theorem builds_field (h : Builds entry.start u s) : Builds entry.start u (s.field entry) := by
  have modified := h.takeIf ((s.kind.isFieldModifier && startsType s.following) = true)
  rw [field]
  generalize (if s.kind.isFieldModifier && startsType s.following then s.take else s) = t
    at modified ⊢
  split
  · exact builds_mapField modified
  · refine modified.require _ _ (fun _ ht => ht.failStatement rfl) fun _ typed => ?_
    exact (typed.resume entry .fieldAfterType rfl).pushGoal _ rfl

theorem builds_fieldAfterType (h : Builds entry.start u s) :
    Builds entry.start u (s.fieldAfterType entry) := by
  rw [fieldAfterType]
  split
  · exact h.failStatement rfl
  · exact builds_fieldNameAndNumber h rfl

theorem builds_enumValue (h : Builds entry.start u s) :
    Builds entry.start u (s.enumValue entry) := by
  have fail (t) (ht : Builds entry.start u t) : Builds entry.start u
      (t.failStatement entry .enumValue) := ht.failStatement rfl
  rw [enumValue]
  refine h.require _ _ fail fun _ there => ?_
  refine there.takeAs_name.expect _ fail fun _ named => ?_
  exact (named.takeIf _).expect _ fail fun _ numbered => numbered.optionsOrEnd rfl

theorem RangesKind.isCommon (kind : RangesKind) :
    (NodeKind.declaration kind.declaration).isCommon = true := by
  cases kind <;> rfl

theorem builds_rangesGoOn (h : Builds entry.start u s) (kind : RangesKind) :
    Builds entry.start u (s.rangesGoOn kind entry) := by
  unfold rangesGoOn
  split
  · exact h.take.resume entry (.rangesItem kind) rfl
  · cases kind with
    | extensions => exact h.optionsOrEnd rfl
    | reserved => exact h.endStatement rfl

/-- An integer, perhaps with a sign, is there or not. -/
theorem signedInteger_builds {fail ok : ParseState → ParseState} {start : Nat}
    (holds : ParseState → Prop) (h : Builds start u s)
    (hfail : ∀ t, Builds start u t → holds (fail t)) (hok : ∀ t, Builds start u t → holds (ok t)) :
    holds (s.signedInteger fail ok) := by
  have signed := h.takeIf (s.kind = .minus)
  rw [signedInteger]
  generalize (if s.kind = .minus then s.take else s) = t at signed ⊢
  rw [expect, require]
  split
  · exact hok _ signed.take
  · exact hfail _ (signed.report _)

theorem builds_range {fail ok : ParseState → ParseState} {start : Nat} (h : Builds start u s)
    (hfail : ∀ t, Builds start u t → Builds start u (fail t))
    (hok : ∀ t, Builds start u t → Builds start u (ok t)) :
    Builds start u (s.range fail ok) := by
  -- the node of the range is over what has been read since `s`
  have done (t : ParseState) (ht : Builds start s t) : Builds start u
      (ok (t.addParent (some s.position) s.nodes.size (some .range) false)) :=
    hok _ ((h.trans ht).addParent _ h.begun_now ht.grows rfl false)
  have broken (t : ParseState) (ht : Builds start s t) : Builds start u (fail t) :=
    hfail t (h.trans ht)
  rw [range]
  refine signedInteger_builds (Builds start u) (.refl h.begun_now) broken fun lower hlower => ?_
  split
  · dsimp only
    split
    · exact done _ hlower.take.take
    · split
      · exact signedInteger_builds (Builds start u) hlower.take broken done
      · exact broken _ (hlower.take.report _)
  · exact done lower hlower

theorem builds_rangesItem (h : Builds entry.start u s) (kind : RangesKind) :
    Builds entry.start u (s.rangesItem kind entry) := by
  have fail (t) (ht : Builds entry.start u t) : Builds entry.start u
      (t.failStatement entry kind.declaration) := ht.failStatement kind.isCommon
  have onward (t) (ht : Builds entry.start u t) : Builds entry.start u
      (t.rangesGoOn kind entry) := builds_rangesGoOn ht kind
  have ranged := builds_range h fail onward
  unfold rangesItem
  split
  case h_1 | h_2 => exact ranged
  case h_7 | h_8 => exact fail _ (h.report _)
  all_goals exact onward _ h.take

theorem builds_ranges (h : Builds entry.start u s) (kind : RangesKind) :
    Builds entry.start u (s.ranges kind entry) :=
  h.take.resume entry (.rangesItem kind) rfl

/-! ## Declarations with a body -/

theorem BodyKind.isCommon (kind : BodyKind) :
    (NodeKind.declaration kind.declaration).isCommon = true := by
  cases kind <;> rfl

theorem builds_failScope (h : Builds entry.start u s) (kind : ScopeKind) :
    Builds entry.start u (s.failScope kind entry) :=
  ((h.recoverStatement _).addSynthetic rfl true).close entry.broken _ rfl

theorem builds_enterBody (h : Builds entry.start u s) (kind : BodyKind) :
    Builds entry.start u (s.enterBody kind entry) :=
  (h.resume entry (.declarationEnd kind.declaration) kind.isCommon).resume entry _ rfl

theorem builds_scope (h : Builds entry.start u s) (kind : ScopeKind) :
    Builds entry.start u (s.scope kind entry) := by
  have fail (t) (ht : Builds entry.start u t) : Builds entry.start u
      (t.failScope kind entry) := builds_failScope ht kind
  rw [scope]
  refine h.take.require _ _ fail fun _ there => ?_
  exact there.takeAs_name.expect _ fail fun _ opened => builds_enterBody opened (.scope kind)

theorem builds_extend (h : Builds entry.start u s) : Builds entry.start u (s.extend entry) := by
  rw [extend]
  refine h.take.require _ _ (fun _ ht => ht.failStatement rfl) fun _ typed => ?_
  exact (typed.resume entry .extendAfterName rfl).pushGoal _ rfl

theorem builds_extendAfterName (h : Builds entry.start u s) :
    Builds entry.start u (s.extendAfterName entry) := by
  rw [extendAfterName]
  split
  · exact h.failStatement rfl
  · exact h.expect _ (fun _ ht => ht.failStatement rfl)
      fun _ opened => builds_enterBody opened .extend

theorem isCommon_of_statement? {body : BodyKind} {next following : TokenKind} {goal : Goal}
    (h : statement? body next following = some goal) : goal.isCommon = true := by
  unfold statement? at h
  dsimp only at h
  split at h
  all_goals first
    | (cases h; done)
    | (cases h; rfl)
    | (cases h; split <;> rfl)
    | (obtain ⟨-, hgoal⟩ := Option.ite_none_right_eq_some.mp h
       cases hgoal
       rfl)

theorem builds_bodyJunk (h : Builds entry.start u s) (body : BodyKind) {again : Goal}
    (common : again.isCommon = true) : Builds entry.start u (s.bodyJunk body again entry) := by
  have reported : Builds entry.start u
      (if s.reportedHere then s else s.report body.expected) := by
    split
    · exact h
    · exact h.report _
  rw [bodyJunk]
  generalize (if s.reportedHere then s else s.report body.expected) = t at reported ⊢
  refine Builds.resume entry.broken (.recoverStatement ?_ _) _ common
  split
  · exact reported.skipGroup
  · exact reported.discard

theorem builds_bodyStatement (h : Builds entry.start u s) (body : BodyKind) {again : Goal}
    (common : again.isCommon = true) : Builds entry.start u (s.bodyStatement body again entry) := by
  rw [bodyStatement]
  split
  · exact h.take.resume entry _ common
  · split
    case h_1 goal hgoal => exact (h.resume entry _ common).pushGoal _ (isCommon_of_statement? hgoal)
    case h_2 => exact builds_bodyJunk h body common

theorem builds_body (h : Builds entry.start u s) (kind : BodyKind) :
    Builds entry.start u (s.body kind entry) := by
  have tagged : kind.closeTag?.all NodeKind.isCommon = true := by cases kind <;> rfl
  rw [body]
  split
  case h_1 =>
    refine Builds.markEnclosing ?_
    split
    case h_1 tag htag =>
      rw [htag] at tagged
      exact (h.report _).addSynthetic tagged true
    case h_2 => exact h.report _
  case h_2 =>
    have closed := h.addLeaf kind.closeTag? false (.inl tagged)
    dsimp only
    split
    · exact closed.markEnclosing
    · exact closed
  case h_3 => exact builds_bodyStatement h kind rfl

theorem builds_rpcType (h : Builds entry.start u s) {after : Goal} (common : after.isCommon = true)
    (kind : ReferenceKind) : Builds entry.start u (s.rpcType after kind entry) := by
  rw [rpcType]
  refine Builds.require (h.takeIf _) _ _ (fun _ ht => ht.failStatement rfl) fun _ typed => ?_
  exact (typed.resume entry _ common).pushGoal _ rfl

theorem builds_rpc (h : Builds entry.start u s) : Builds entry.start u (s.rpc entry) := by
  have fail (t) (ht : Builds entry.start u t) : Builds entry.start u
      (t.failStatement entry .rpc) := ht.failStatement rfl
  rw [rpc]
  refine h.take.require _ _ fail fun _ there => ?_
  exact there.takeAs_name.expect _ fail fun _ opened => builds_rpcType opened rfl _

theorem builds_rpcAfterInput (h : Builds entry.start u s) :
    Builds entry.start u (s.rpcAfterInput entry) := by
  have fail (t) (ht : Builds entry.start u t) : Builds entry.start u
      (t.failStatement entry .rpc) := ht.failStatement rfl
  rw [rpcAfterInput]
  split
  · exact fail s h
  · refine h.expect _ fail fun _ closed => ?_
    refine closed.require _ _ fail fun _ returned => ?_
    exact returned.take.expect _ fail fun _ opened => builds_rpcType opened rfl _

theorem builds_rpcAfterOutput (h : Builds entry.start u s) :
    Builds entry.start u (s.rpcAfterOutput entry) := by
  have fail (t) (ht : Builds entry.start u t) : Builds entry.start u
      (t.failStatement entry .rpc) := ht.failStatement rfl
  rw [rpcAfterOutput]
  split
  · exact fail s h
  · refine h.expect _ fail fun t closed => ?_
    split
    · exact closed.take.close entry _ rfl
    · exact builds_enterBody closed.take .rpc
    · exact fail _ (closed.report _)

/-! ## The other statements of a file -/

theorem builds_syntaxLevel (h : Builds entry.start u s) :
    Builds entry.start u (s.syntaxLevel entry) := by
  have common : (NodeKind.declaration
      (if s.kind = .keyword .kwEdition then .edition else .syntaxLevel)).isCommon = true := by
    split <;> rfl
  have fail (t) (ht : Builds entry.start u t) := ht.failStatement common
  rw [syntaxLevel]
  refine h.take.expect _ fail fun _ equal => ?_
  exact equal.expectStrings fail fun _ level => level.endStatement common

theorem builds_importing (h : Builds entry.start u s) :
    Builds entry.start u (s.importing entry) := by
  have modified := h.take.takeIf
    (((s.take.atWord .wordPublic || s.take.atWord .wordWeak)
      && s.take.following == .stringLiteral) = true)
  rw [importing]
  exact modified.expectStrings (fun _ ht => ht.failStatement rfl)
    fun _ path => path.endStatement rfl

/-! ## All of them -/

/-- A goal without a package builds common nodes only. -/
theorem builds_pursue (common : entry.goal.isCommon = true) (h : entry.start ≤ s.nodes.size) :
    Builds entry.start s (s.pursue entry) := by
  have here : Builds entry.start s s := .refl h
  rw [pursue]
  cases goal : entry.goal <;> rw [goal] at common
  case file | fragmentBody | package | packageEnd => cases common
  case body kind => exact builds_body here kind
  case syntaxLevel => exact builds_syntaxLevel here
  case importing => exact builds_importing here
  case option => exact builds_optionStatement here
  case optionAfterName => exact builds_optionAfterName here
  case optionEnd => exact here.statementEnd rfl
  case optionName => exact builds_optionName here
  case optionNamePart => exact builds_optionNamePart here
  case optionNameExtensionEnd => exact builds_optionNameExtensionEnd here
  case optionNameEnd => exact here.close entry _ rfl
  case optionList => exact builds_optionList here
  case listOption => exact builds_listOption here
  case listOptionAfterName => exact builds_listOptionAfterName here
  case listOptionEnd => exact builds_listOptionEnd entry here
  case textList => exact builds_textList here
  case listAfterItem list failed => exact builds_listAfterItem here list failed
  case scope kind => exact builds_scope here kind
  case extend => exact builds_extend here
  case extendAfterName => exact builds_extendAfterName here
  case declarationEnd kind => exact here.close entry _ common
  case field => exact builds_field here
  case fieldAfterType => exact builds_fieldAfterType here
  case mapFieldAfterValue => exact builds_mapFieldAfterValue here
  case statementEnd kind => exact here.statementEnd common
  case enumValue => exact builds_enumValue here
  case ranges kind => exact builds_ranges here kind
  case rangesItem kind => exact builds_rangesItem here kind
  case rpc => exact builds_rpc here
  case rpcAfterInput => exact builds_rpcAfterInput here
  case rpcAfterOutput => exact builds_rpcAfterOutput here
  case value => exact builds_value here
  case textMessage pair => exact builds_textMessage here
  case textMessageBody pair => exact builds_textMessageBody here
  case textField => exact builds_textField here
  case textFieldEnd => exact builds_textFieldEnd here
  case qualifiedName tag? => exact builds_qualifiedName here common
  case qualifiedNameRest => exact builds_qualifiedNameRest here
  case qualifiedNameEnd tag? => exact here.close entry tag? common

end ProtoFront
