import ProtoFront.Parse.Fields
import ProtoFront.Proofs.Grammar.Fields
import ProtoFront.Proofs.Likeness.Recovery

/-!
# Fields, enum values and ranges side by side
-/

namespace ProtoFront

open ParseState

variable {x : Likeness} {entry other : Pending} {s t : ParseState}
variable {fail fail' ok ok' : ParseState → ParseState}

theorem answers_optionsOrEnd (h : Abreast x entry s other t) (kind : DeclarationKind) :
    Answers x (s.optionsOrEnd kind entry) (t.optionsOrEnd kind other) := by
  rw [optionsOrEnd, optionsOrEnd, h.kind_eq]
  split
  case h_1 => exact (h.wait _ _ rfl rfl).answers
  case h_2 => exact ((h.addLeaf none false).close _).answers
  case h_3 => exact answers_fail h (failsAlike_failStatement kind) _

/-! ## Fields -/

theorem ParseState.goesOn_of_startsType {kind : TokenKind} (h : startsType kind = true) :
    kind.endsStatement = false := by
  rcases Bool.or_eq_true_iff.mp h with hword | hdot
  · exact TokenKind.endsStatement_of_isIdentifierLike hword
  · rw [beq_iff_eq.mp hdot]
    rfl

/-- Name and number of a statement, up to where they may differ. -/
theorem answers_nameAndNumber (h : Abreast x entry s other t)
    (fails : FailsAlike x entry other fail fail')
    (hok : ∀ {u v}, Abreast x entry u other v → Answers x (ok u) (ok' v)) :
    Answers x
      (s.require s.kind.isIdentifierLike [.identifier] fail fun s =>
        (s.takeAs .name).expect .equals fail ok)
      (t.require t.kind.isIdentifierLike [.identifier] fail' fun t =>
        (t.takeAs .name).expect .equals fail' ok') := by
  refine answers_require h (by rw [h.kind_eq]) fails fun hword => ?_
  have named := h.takeAs (TokenKind.endsStatement_of_isIdentifierLike hword) .name
  exact answers_expect named fails rfl fun _ equals => hok equals

theorem answers_fieldNameAndNumber (h : Abreast x entry s other t) (kind : DeclarationKind) :
    Answers x (s.fieldNameAndNumber kind entry) (t.fieldNameAndNumber kind other) :=
  answers_nameAndNumber h (failsAlike_failStatement kind) fun equals =>
    answers_expect equals (failsAlike_failStatement kind) rfl fun _ number =>
      answers_optionsOrEnd number kind

theorem Coupled.failMapField (h : Coupled x entry s other t) (exact : x.exact) :
    Alike x (s.failMapField entry) (t.failMapField other) := by
  have skipped := h.skipTo exact fun kind => kind == .closer .angle || kind == .semicolon
  rw [ParseState.failMapField, ParseState.failMapField, (skipped.abreast exact).kind_eq]
  split
  case isTrue => exact ((skipped.addLeaf exact none true).failStatement exact _).toAlike
  case isFalse => exact (skipped.failStatement exact _).toAlike

theorem failsAlike_failMapField :
    FailsAlike x entry other (failMapField entry) (failMapField other) where
  first := fails_failMapField entry
  second := fails_failMapField other
  alike exact _ _ h := h.failMapField exact

theorem answers_mapField (h : Abreast x entry s other t) (hmap : s.kind = .keyword .kwMap)
    (hangle : s.following = .opener .angle) :
    Answers x (s.mapField entry) (t.mapField other) := by
  have hword : s.kind.endsStatement = false := by rw [hmap]; rfl
  have hnext : s.take.kind.endsStatement = false := by rw [take, kind_addLeaf, hangle]; rfl
  have opened := (h.take hword).take hnext
  rw [mapField, mapField, opened.kind_eq]
  refine answers_require opened rfl failsAlike_failMapField fun hkey => ?_
  have hkey : s.take.take.kind.endsStatement = false := by
    generalize s.take.take.kind = kind at hkey ⊢
    cases kind <;> first | rfl | cases hkey
  refine answers_expect (opened.takeAs hkey _) failsAlike_failMapField rfl fun _ comma => ?_
  exact answers_require comma (by rw [comma.kind_eq]) failsAlike_failMapField fun _ =>
    (comma.wait _ _ rfl rfl).answers

theorem answers_mapFieldAfterValue (h : Abreast x entry s other t) :
    Answers x (s.mapFieldAfterValue entry) (t.mapFieldAfterValue other) := by
  rw [mapFieldAfterValue, mapFieldAfterValue, h.entries.failed]
  split
  case isTrue hfailed => exact .inl (h.failMapField (h.entries.exact_of_failed hfailed))
  case isFalse =>
    exact answers_expect h failsAlike_failMapField rfl fun _ closed =>
      answers_fieldNameAndNumber closed _

theorem answers_field (h : Abreast x entry s other t) (ready : startsType s.kind = true) :
    Answers x (s.field entry) (t.field other) := by
  have goesOn := goesOn_of_startsType ready
  have modified := h.takeIf (c := (s.kind.isFieldModifier && startsType s.following) = true)
    Iff.rfl fun _ => goesOn
  rw [field, field, h.kind_eq, h.following_eq (.inr goesOn)]
  generalize (if (s.kind.isFieldModifier && startsType s.following) = true then s.take else s) = u,
    (if (s.kind.isFieldModifier && startsType s.following) = true then t.take else t) = v
    at modified ⊢
  have map : (v.kind = .keyword .kwMap ∧ v.following = .opener .angle) ↔
      (u.kind = .keyword .kwMap ∧ u.following = .opener .angle) := by
    rw [modified.kind_eq]
    refine and_congr_right fun hmap => ?_
    rw [modified.following_eq (.inr (by rw [hmap]; rfl))]
  split
  case isTrue hmap =>
    rw [if_pos (map.mpr hmap)]
    exact answers_mapField modified hmap.1 hmap.2
  case isFalse hmap =>
    rw [if_neg fun hother => hmap (map.mp hother)]
    exact answers_require modified (by rw [modified.kind_eq]) (failsAlike_failStatement _) fun _ =>
      (modified.wait _ _ rfl rfl).answers

theorem answers_fieldAfterType (h : Abreast x entry s other t) :
    Answers x (s.fieldAfterType entry) (t.fieldAfterType other) := by
  rw [fieldAfterType, fieldAfterType, h.entries.failed]
  split
  case isTrue hfailed => exact answers_failStatement h hfailed _
  case isFalse => exact answers_fieldNameAndNumber h _

/-! ## Enum values and ranges -/

theorem answers_signedInteger (h : Abreast x entry s other t)
    (fails : FailsAlike x entry other fail fail')
    (hok : ∀ {u v}, Abreast x entry u other v → Answers x (ok u) (ok' v)) :
    Answers x (s.signedInteger fail ok) (t.signedInteger fail' ok') := by
  have signed := h.takeIf (c := s.kind = .minus) (d := t.kind = .minus) (by rw [h.kind_eq])
    fun hminus => by rw [hminus]; rfl
  exact answers_expect signed fails rfl fun _ number => hok number

theorem answers_enumValue (h : Abreast x entry s other t) :
    Answers x (s.enumValue entry) (t.enumValue other) :=
  answers_nameAndNumber h (failsAlike_failStatement .enumValue) fun equals =>
    answers_signedInteger equals (failsAlike_failStatement .enumValue) fun number =>
      answers_optionsOrEnd number .enumValue

/-- What has been read since a corresponding token becomes a range. -/
theorem Abreast.range {u v : ParseState} (h : Abreast x entry u other v)
    (hs : Abreast x entry s other t) :
    Abreast x entry (u.addParent (some s.position) s.nodes.size (some .range) false) other
      (v.addParent (some t.position) t.nodes.size (some .range) false) := by
  rw [hs.position_eq]
  exact ⟨h.addParent _ hs.nodes.size_eq.symm _ _, h.ahead⟩

theorem answers_range (h : Abreast x entry s other t) (fails : FailsAlike x entry other fail fail')
    (hok : ∀ {u v}, Abreast x entry u other v → Answers x (ok u) (ok' v)) :
    Answers x (s.range fail ok) (t.range fail' ok') := by
  rw [range, range]
  refine answers_signedInteger h fails fun {u v} number => ?_
  rw [number.atWord_eq]
  split
  case isFalse => exact hok (number.range h)
  case isTrue hto =>
    have upper := number.take (by rw [kind_of_atWord number.spelled hto]; rfl)
    dsimp only
    rw [upper.atWord_eq, upper.kind_eq]
    split
    case isTrue hmax =>
      exact hok ((upper.take (by rw [kind_of_atWord upper.spelled hmax]; rfl)).range h)
    case isFalse =>
      split
      case isTrue => exact answers_signedInteger upper fails fun last => hok (last.range h)
      case isFalse => exact answers_fail upper fails _

theorem answers_rangesGoOn (h : Abreast x entry s other t) (kind : RangesKind) :
    Answers x (s.rangesGoOn kind entry) (t.rangesGoOn kind other) := by
  rw [rangesGoOn.eq_def, rangesGoOn.eq_def, h.kind_eq]
  split
  case isTrue hcomma => exact ((h.take (by rw [hcomma]; rfl)).resume _ fun _ => rfl).answers
  case isFalse =>
    cases kind with
    | extensions => exact answers_optionsOrEnd h _
    | reserved => exact answers_endStatement h _

theorem answers_rangesItem (h : Abreast x entry s other t) (kind : RangesKind) :
    Answers x (s.rangesItem kind entry) (t.rangesItem kind other) := by
  have fails : FailsAlike x entry other (failStatement entry kind.declaration)
      (failStatement other kind.declaration) := failsAlike_failStatement kind.declaration
  have onward {u v : ParseState} (next : Abreast x entry u other v) :
      Answers x (u.rangesGoOn kind entry) (v.rangesGoOn kind other) :=
    answers_rangesGoOn next kind
  rw [rangesItem.eq_def, rangesItem.eq_def, h.kind_eq]
  dsimp only
  split
  case h_1 | h_2 => exact answers_range h fails onward
  case h_3 hkind | h_4 hkind | h_5 hkind | h_6 hkind =>
    exact onward (h.take (by rw [hkind]; rfl))
  case h_7 | h_8 => exact answers_fail h fails _

theorem answers_ranges (h : Abreast x entry s other t) {kind : RangesKind}
    (hkind : s.kind = .keyword kind.word) :
    Answers x (s.ranges kind entry) (t.ranges kind other) :=
  ((h.take (by rw [hkind]; rfl)).resume _ fun _ => rfl).answers

end ProtoFront
