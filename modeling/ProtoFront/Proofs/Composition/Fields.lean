import ProtoFront.Parse.Fields
import ProtoFront.Proofs.Composition.Recovery

/-!
# What fields, enum values and ranges are made of

Each of these statements lacks only its end when its number has been read, and ranges lack only
their end behind each item.
-/

namespace ProtoFront

open ParseState Production

variable {buffer : TokenBuffer} {entry : Pending} {s t : ParseState}
variable {L M : Language Item} {kind : DeclarationKind} {ranges : RangesKind}
variable {fail ok : ParseState → ParseState}

/-! ## Fields -/

theorem composed_fieldNameAndNumber (h : Holds buffer L entry s)
    (part : entry.goal.part = .statement) (plain : (NodeKind.declaration kind).isPlain = true)
    (made : L * (numbered (just .intLiteral)).matches' * ending.matches' ≤
      kind.production.matches') :
    Composed buffer (s.fieldNameAndNumber kind entry) := by
  have fails : Spoils buffer entry (failStatement entry kind) := spoils_failStatement part kind
  rw [fieldNameAndNumber]
  refine composed_require h fails fun hword => ?_
  refine composed_expect (h.takeAs hword .name rfl) fails rfl fun assigned => ?_
  refine composed_expect assigned fails rfl fun counted => ?_
  refine composed_optionsOrEnd counted part plain ?_
  simpa only [numbered, RegularExpression.matches'_mul, mul_assoc] using made

theorem spoils_failMapField (part : entry.goal.part = .statement) :
    Spoils buffer entry (failMapField entry) := by
  intro s h
  have skipped := h.addAny
    (.skipTo h.reads fun kind => kind == .closer .angle || kind == .semicolon)
  rw [failMapField]
  refine spoils_failStatement part .mapField _ ?_
  split
  case isTrue => exact skipped.addAny (.discard skipped.reads)
  case isFalse => exact skipped

theorem TokenKind.isIdentifierLike_of_isMapKeyType {kind : TokenKind}
    (h : kind.isMapKeyType = true) : kind.isIdentifierLike = true := by
  cases kind <;> first | rfl | cases h

theorem composed_mapField (h : Holds buffer (perhaps modifier).matches' entry s)
    (part : entry.goal.part = .statement) (hmap : s.kind = .keyword .kwMap)
    (hangle : s.following = .opener .angle) : Composed buffer (s.mapField entry) := by
  have fails : Spoils buffer entry (failMapField entry) := spoils_failMapField part
  have opened := (h.just hmap rfl).just ((s.kind_addLeaf none false).trans hangle) rfl
  rw [mapField]
  refine composed_require opened fails fun hkey => ?_
  have key := opened.takeAs (TokenKind.isIdentifierLike_of_isMapKeyType hkey)
    (.reference .mapKeyType) rfl
  refine composed_expect key fails rfl fun comma => ?_
  refine composed_require comma fails fun _ => ?_
  exact comma.wait part .mapFieldAfterValue (.qualifiedName (some (.reference .mapValueType))) rfl
    rfl le_rfl rfl

theorem composed_mapFieldAfterValue (h : Holds buffer Goal.mapFieldAfterValue.made entry s)
    (part : entry.goal.part = .statement) : Composed buffer (s.mapFieldAfterValue entry) := by
  rw [mapFieldAfterValue]
  split
  case isTrue => exact spoils_failMapField part _ (h.spoil ⊤)
  case isFalse =>
    refine composed_expect h (spoils_failMapField part) rfl fun closed => ?_
    exact composed_fieldNameAndNumber closed part rfl le_rfl

theorem Adds.modifier (reads : s.Reads buffer) (h : s.kind.isFieldModifier = true) :
    Adds buffer modifier.matches' s s.take := by
  cases hkind : s.kind with
  | keyword word =>
    refine (Adds.just reads hkind rfl).mono ?_
    rintro _ rfl
    rw [hkind] at h
    refine mem_oneOf.mpr ?_
    cases word <;> first | decide | cases h
  | _ =>
    rw [hkind] at h
    cases h

theorem composed_field (h : Holds buffer 1 entry s) (part : entry.goal.part = .statement) :
    Composed buffer (s.field entry) := by
  have modified := h.takeIf ((s.kind.isFieldModifier && startsType s.following) = true)
    fun hmodifier => Adds.modifier h.reads (Bool.and_eq_true_iff.mp hmodifier).1
  rw [one_mul] at modified
  rw [field]
  generalize (if (s.kind.isFieldModifier && startsType s.following) = true then s.take else s) = u
    at modified ⊢
  split
  case isTrue hmap => exact composed_mapField modified part hmap.1 hmap.2
  case isFalse =>
    refine composed_require modified (spoils_failStatement part .field) fun _ => ?_
    exact modified.wait part .fieldAfterType (.qualifiedName (some (.reference .fieldType))) rfl rfl
      le_rfl rfl

theorem composed_fieldAfterType (h : Holds buffer Goal.fieldAfterType.made entry s)
    (part : entry.goal.part = .statement) : Composed buffer (s.fieldAfterType entry) := by
  rw [fieldAfterType]
  split
  case isTrue => exact spoils_failStatement part .field _ (h.spoil ⊤)
  case isFalse => exact composed_fieldNameAndNumber h part rfl le_rfl

/-! ## Enum values -/

theorem composed_enumValue (h : Holds buffer 1 entry s) (part : entry.goal.part = .statement) :
    Composed buffer (s.enumValue entry) := by
  have fails : Spoils buffer entry (failStatement entry .enumValue) :=
    spoils_failStatement part .enumValue
  rw [enumValue]
  refine composed_require h fails fun hword => ?_
  refine composed_expect (h.takeAs hword .name rfl) fails rfl fun {t} assigned => ?_
  have signed := assigned.takeIf (t.kind = .minus) fun hminus => .just assigned.reads hminus rfl
  refine composed_expect signed fails rfl fun counted => ?_
  refine composed_optionsOrEnd counted part rfl ?_
  simp only [DeclarationKind.production, numbered, RegularExpression.matches'_mul, one_mul,
    mul_assoc, le_refl]

/-! ## Ranges -/

theorem composed_signedInteger (adds : Adds buffer M s t) (h : Holds buffer L entry s)
    (fails : Spoils buffer entry fail)
    (hok : ∀ {u}, Adds buffer someItems s u → Composed buffer (ok u)) :
    Composed buffer (t.signedInteger fail ok) := by
  have signed : Adds buffer ⊤ s (if t.kind = .minus then t.take else t) := by
    split
    case isTrue hminus => exact (adds.trans (.just adds.reads hminus rfl)).mono le_top
    case isFalse => exact adds.mono le_top
  rw [signedInteger]
  refine composed_require (h.add signed) fails fun hnumber => hok ?_
  exact (signed.trans (.just signed.reads (beq_iff_eq.mp hnumber) rfl)).mono
    (mul_le_someItems (.inr (singleton_le_someItems _)))

theorem composed_range (h : Holds buffer L entry s) (fails : Spoils buffer entry fail)
    (hok : ∀ {t}, Holds buffer (L * (node .range).matches') entry t → Composed buffer (ok t)) :
    Composed buffer (s.range fail ok) := by
  have done {t : ParseState} (adds : Adds buffer someItems s t) :
      Composed buffer (ok (t.addParent (some s.position) s.nodes.size (some .range) false)) :=
    hok (h.add (adds.range _))
  have nothing : Adds buffer 1 s s := .nothing h.reads rfl rfl
  rw [range]
  refine composed_signedInteger nothing h fails fun {t} lower => ?_
  split
  case isFalse => exact done lower
  case isTrue hto =>
    have upper := lower.trans (.contextual lower.reads hto)
    dsimp only
    split
    case isTrue hmax =>
      exact done ((upper.trans (.contextual upper.reads hmax)).mono
        (mul_le_someItems (.inl (mul_le_someItems (.inl le_rfl)))))
    case isFalse =>
      split
      case isTrue => exact composed_signedInteger upper h fails done
      case isFalse => exact fails.report (h.add upper) _

/-- Items with commas behind them and one more are items with commas between them. -/
theorem Production.mul_le_separated (item : Production) :
    (item * just .comma).star.matches' * item.matches' ≤ (separated item).matches' := by
  refine kstar_mul_le ?_ ?_
  · refine le_trans (mul_one _).ge ?_
    exact mul_le_mul' le_rfl one_le_kstar
  · rw [separated, RegularExpression.matches'_mul, RegularExpression.matches'_mul,
      RegularExpression.matches'_star, RegularExpression.matches'_mul, mul_assoc,
      ← mul_assoc (just .comma).matches']
    exact mul_le_mul' le_rfl mul_kstar_le_kstar

theorem composed_ranges (h : Holds buffer 1 entry s) (goal : entry.goal = .ranges ranges)
    (ready : s.kind = .keyword ranges.word) : Composed buffer (s.ranges ranges entry) := by
  refine (h.just ready rfl).goOn (.rangesItem ranges) (fun unflagged => ?_) ?_
  · rw [Pending.flagged, goal]
    exact unflagged
  · rw [one_mul]
    refine le_trans (mul_one _).ge ?_
    exact mul_le_mul' le_rfl one_le_kstar

theorem composed_rangesGoOn
    (h : Holds buffer ((Goal.rangesItem ranges).made * ranges.item.matches') entry s)
    (goal : entry.goal = .rangesItem ranges) : Composed buffer (s.rangesGoOn ranges entry) := by
  have part : entry.goal.part = .statement := by rw [goal]; rfl
  have separate : (Goal.rangesItem ranges).made * ranges.item.matches' ≤
      (word ranges.word * separated ranges.item).matches' := by
    rw [Goal.made, RegularExpression.matches'_mul, mul_assoc]
    exact mul_le_mul' le_rfl (mul_le_separated _)
  unfold rangesGoOn
  split
  case isTrue hcomma =>
    refine (h.just hcomma rfl).goOn (.rangesItem ranges) (fun unflagged => ?_) ?_
    · rw [Pending.flagged, goal]
      exact unflagged
    · rw [Goal.made, RegularExpression.matches'_mul, mul_assoc, mul_assoc]
      exact mul_le_mul' le_rfl kstar_mul_le_kstar
  case isFalse =>
    cases ranges with
    | extensions => exact composed_optionsOrEnd h part rfl (mul_le_mul' separate le_rfl)
    | reserved =>
      exact composed_endStatement h part (DeclarationKind.le_closable (mul_le_mul' separate le_rfl))

theorem RangesKind.range_le_item (ranges : RangesKind) :
    (node .range).matches' ≤ ranges.item.matches' := by
  cases ranges with
  | extensions => exact le_rfl
  | reserved =>
    rintro _ rfl
    exact mem_oneOf.mpr (by decide)

theorem composed_rangesItem (h : Holds buffer (Goal.rangesItem ranges).made entry s)
    (goal : entry.goal = .rangesItem ranges) : Composed buffer (s.rangesItem ranges entry) := by
  have part : entry.goal.part = .statement := by rw [goal]; rfl
  have fails : Spoils buffer entry (failStatement entry ranges.declaration) :=
    spoils_failStatement part ranges.declaration
  have numbers : Composed buffer
      (s.range (failStatement entry ranges.declaration) (rangesGoOn ranges entry)) :=
    composed_range h fails fun read =>
      composed_rangesGoOn (read.mono (mul_le_mul' le_rfl ranges.range_le_item)) goal
  have named (there : s.kind ≠ .eof) (hitem : {[s.item]} ≤ ranges.item.matches') :
      Composed buffer (s.take.rangesGoOn ranges entry) :=
    composed_rangesGoOn ((h.take there).mono (mul_le_mul' le_rfl hitem)) goal
  have word (reserves : ranges = .reserved) (hword : s.kind.isIdentifierLike = true) :
      Composed buffer (s.take.rangesGoOn ranges entry) := by
    refine named (TokenKind.ne_eof_of_isIdentifierLike hword) ?_
    subst reserves
    rintro _ rfl
    exact mem_oneOf.mpr (List.mem_append_right _ (h.reads.item_mem_words hword))
  unfold rangesItem
  split
  case h_1 => exact numbers
  case h_2 => exact numbers
  case h_3 hkind =>
    refine named (s.kind_ne_eof hkind rfl) ?_
    rw [h.reads.item_of_plain hkind rfl]
    rintro _ rfl
    exact mem_oneOf.mpr (by decide)
  case h_4 hkind => exact word rfl (hkind ▸ rfl)
  case h_5 hkind => exact word rfl (hkind ▸ rfl)
  case h_6 hkind => exact word rfl (hkind ▸ rfl)
  case h_7 => exact fails.report h _
  case h_8 => exact fails.report h _

end ProtoFront
