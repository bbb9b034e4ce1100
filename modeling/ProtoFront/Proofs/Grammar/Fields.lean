import ProtoFront.Proofs.Grammar.Values
import ProtoFront.Parse.Fields

/-!
# Fields, enum values and ranges are read as the grammar has them
-/

namespace ProtoFront

open ParseState

variable {entry : Pending} {s t : ParseState} {forms : List Form} {kind : DeclarationKind}
variable {fail ok : ParseState → ParseState} {which : RangesKind}

theorem owes_optionsOrEnd : (s.optionsOrEnd kind entry).Owes [] ↔ s.Owes [.ending] := by
  have list : s.Owes [.named .optionList, .just .semicolon] → s.kind = .opener .square := fun h =>
    beq_iff_eq.mp (ready_of_owes .optionList rfl (by simp) h)
  rw [Form.ending, owes_both, owes_optional, owes_just rfl, optionsOrEnd]
  split
  case h_1 hkind =>
    rw [owes_wait, hkind]
    exact (or_iff_right fun h => absurd h.1 (by simp)).symm
  case h_2 hkind =>
    rw [owes_close, and_iff_right hkind]
    refine (or_iff_left fun h => ?_).symm
    rw [hkind] at list
    exact absurd (list h) (by simp)
  case h_3 hsquare hsemicolon =>
    refine iff_of_false (not_owes_fail (fails_failStatement entry kind)) ?_
    rintro (⟨hkind, -⟩ | h)
    · exact hsemicolon hkind
    · exact hsquare (list h)

/-! ## Fields -/

theorem owes_fieldNameAndNumber :
    (s.fieldNameAndNumber kind entry).Owes [] ↔ s.Owes [.numbered] := by
  have fails := fails_failStatement entry kind
  rw [Form.numbered, owes_both]
  refine owes_requireAmong rfl fails fun _ => ?_
  rw [← owes_takeAs .name, owes_both]
  refine owes_expect rfl fails fun _ => ?_
  rw [owes_both]
  exact owes_expect rfl fails fun _ => owes_optionsOrEnd

theorem fails_failMapField (entry : Pending) : Fails (failMapField entry) := by
  intro s
  rw [failMapField, diagnostics_failStatement]
  split
  · rw [ParseState.discard, diagnostics_addLeaf, diagnostics_skipTo]
  · rw [diagnostics_skipTo]

theorem owes_mapField (hmap : s.kind = .keyword .kwMap) (hangle : s.following = .opener .angle) :
    (s.mapField entry).Owes [] ↔ s.Owes [.mapType, .numbered] := by
  have fails := fails_failMapField entry
  have hnext : s.take.kind = .opener .angle := (s.kind_addLeaf none false).trans hangle
  rw [Form.mapType, owes_both, owes_just_of_kind hmap rfl, owes_both, owes_just_of_kind hnext rfl,
    owes_both]
  refine owes_requireAmong rfl fails fun _ => ?_
  rw [← owes_takeAs (.reference .mapKeyType), owes_both]
  refine owes_expect rfl fails fun _ => ?_
  rw [owes_both]
  refine owes_requireType fails ?_
  rw [owes_wait, Goal.form, Goal.form, owes_both_behind]

theorem owes_mapFieldAfterValue (unmarked : entry.failed = false) :
    (s.mapFieldAfterValue entry).Owes [] ↔ s.Owes [Goal.mapFieldAfterValue.form] := by
  rw [mapFieldAfterValue, unmarked, if_neg Bool.false_ne_true, Goal.form, owes_both]
  exact owes_expect rfl (fails_failMapField entry) fun _ => owes_fieldNameAndNumber

theorem owes_fieldAfterType (unmarked : entry.failed = false) :
    (s.fieldAfterType entry).Owes [] ↔ s.Owes [.numbered] := by
  rw [fieldAfterType, unmarked, if_neg Bool.false_ne_true, owes_fieldNameAndNumber]

/-- The type of a map is not the name of a type. -/
theorem not_owes_name_of_map (hmap : s.kind = .keyword .kwMap)
    (hangle : s.following = .opener .angle) : ¬s.Owes [.named .name, .numbered] := by
  have hnext : s.take.kind = .opener .angle := (s.kind_addLeaf none false).trans hangle
  rw [owes_named, Nonterminal.rule, owes_both, owes_optional, owes_both, owes_identifier,
    Form.nameTail, owes_many_stop rfl (by rw [hnext]; simp), Form.numbered, owes_both,
    owes_identifier, hnext, owes_just rfl, hmap]
  rintro (⟨-, hword, -⟩ | ⟨hdot, -⟩)
  · cases hword
  · simp at hdot

theorem startsType_of_fieldType (h : s.Owes ((.named .name ||| .mapType) :: forms)) :
    startsType s.kind = true := by
  rw [owes_either, Form.mapType, owes_both, owes_just rfl] at h
  rcases h with hname | ⟨hmap, -⟩
  · exact startsType_of_word hname.2
  · rw [hmap]
    rfl

/-- A field without its modifier. -/
theorem owes_fieldType :
    (if s.kind = .keyword .kwMap ∧ s.following = .opener .angle then s.mapField entry
      else s.require (startsType s.kind) [.typeName] (failStatement entry .field) fun s =>
        (s.resume entry .fieldAfterType).pushGoal
          (.qualifiedName (some (.reference .fieldType)))).Owes [] ↔
      s.Owes [.named .name ||| .mapType, .numbered] := by
  rw [owes_either]
  split
  case isTrue hmap =>
    rw [or_iff_right (not_owes_name_of_map hmap.1 hmap.2)]
    exact owes_mapField hmap.1 hmap.2
  case isFalse hmap =>
    have unmapped : ¬s.Owes [.mapType, .numbered] := by
      rw [Form.mapType, owes_both, owes_just rfl, owes_both, owes_just rfl]
      refine fun h => hmap ⟨h.1, ?_⟩
      rw [← h.2.1]
      exact (s.kind_addLeaf none false).symm
    rw [or_iff_left unmapped]
    exact owes_requireType (fails_failStatement entry .field) (owes_wait ..)

theorem owes_field : (s.field entry).Owes [] ↔ s.Owes [.named .field] := by
  rw [owes_named, Nonterminal.rule, owes_both, owes_either, owes_among rfl, owes_ahead, owes_both,
    owes_both, field]
  refine owes_fieldType.trans ?_
  split
  case isTrue hmodifies =>
    -- the modifier is one, and the grammar has no other reading of it
    have hmodifier := (Bool.and_eq_true_iff.mp hmodifies).1
    rw [and_iff_right hmodifier]
    refine (or_iff_left fun h => ?_).symm
    rw [modifies, hmodifies] at h
    exact absurd h.1 (by simp)
  case isFalse hmodifies =>
    have hplain : (!modifies s.kind s.following) = true := by
      rw [modifies, Bool.not_eq_true']
      exact Bool.eq_false_iff.mpr hmodifies
    rw [and_iff_right hplain]
    refine (or_iff_right fun h => hmodifies (Bool.and_eq_true_iff.mpr ⟨h.1, ?_⟩)).symm
    rw [← s.kind_addLeaf none false]
    exact startsType_of_fieldType h.2

/-! ## Enum values -/

/-- An integer, its sign first. -/
theorem owes_integer (hfail : Fails fail) (hok : ∀ t : ParseState,
      t.cursor.rest <:+ s.cursor.rest → ((ok t).Owes [] ↔ t.Owes forms)) :
    ((if s.kind = .minus then s.take else s).expect .intLiteral fail ok).Owes [] ↔
      s.Owes (.integer :: forms) := by
  have htake : s.take.cursor.rest <:+ s.cursor.rest := by
    rw [take, rest_addLeaf]
    exact List.tail_suffix _
  rw [Form.integer, owes_both, owes_optional, owes_just rfl, owes_just rfl]
  split
  case isTrue hminus =>
    have literal : s.kind ≠ .intLiteral := by
      rw [hminus]
      simp
    rw [or_iff_right fun h => literal h.1, and_iff_right hminus]
    refine owes_expect rfl hfail fun _ => hok _ ?_
    rw [take, rest_addLeaf]
    exact (List.tail_suffix _).trans htake
  case isFalse hminus =>
    rw [or_iff_left fun h => hminus h.1, ← owes_just rfl]
    exact owes_expect rfl hfail fun _ => hok _ htake

theorem owes_enumValue : (s.enumValue entry).Owes [] ↔ s.Owes [.named .enumValue] := by
  have fails := fails_failStatement entry .enumValue
  rw [owes_named, Nonterminal.rule, owes_both]
  refine owes_requireAmong rfl fails fun _ => ?_
  rw [← owes_takeAs .name, owes_both]
  refine owes_expect rfl fails fun _ => ?_
  rw [owes_both]
  exact owes_integer fails fun _ _ => owes_optionsOrEnd

/-! ## Ranges -/

theorem kind_of_owes_integer (h : s.Owes (.integer :: forms)) :
    s.kind = .minus ∨ s.kind = .intLiteral := by
  rw [Form.integer, owes_both, owes_optional, owes_just rfl, owes_just rfl] at h
  exact h.symm.imp And.left And.left

theorem kind_of_owes_range (h : s.Owes (.named .range :: forms)) :
    s.kind = .minus ∨ s.kind = .intLiteral := by
  rw [owes_named, Nonterminal.rule, owes_both] at h
  exact kind_of_owes_integer h

/-- A range. No identifier follows it, so the word behind its first number belongs to it. -/
theorem owes_range (spelled : Spelled s.cursor.rest) (hfail : Fails fail)
    (stops : ∀ t : ParseState, t.Owes forms → t.kind ≠ .identifier)
    (hok : ∀ t : ParseState, (ok t).Owes [] ↔ t.Owes forms) :
    (s.range fail ok).Owes [] ↔ s.Owes (.named .range :: forms) := by
  rw [owes_named, Nonterminal.rule, owes_both, range]
  have done (t : ParseState) : (ok (t.addParent (some s.position) s.nodes.size (some .range)
      false)).Owes [] ↔ t.Owes forms := (hok _).trans (owes_addParent ..)
  refine owes_integer hfail fun t hrest => ?_
  have spelled : Spelled t.cursor.rest := fun lexeme hlexeme =>
    spelled lexeme (hrest.subset hlexeme)
  rw [owes_optional, owes_both, owes_word, owes_either, owes_word]
  split
  case isTrue hto =>
    -- an identifier cannot stand behind the range, so the range goes on
    have hkind := kind_of_atWord spelled hto
    rw [or_iff_right fun h => stops t h hkind, and_iff_right hto]
    dsimp only
    split
    case isTrue hmax =>
      have hupper := kind_of_atWord (spelled.addLeaf none false) hmax
      rw [done, and_iff_right hmax]
      refine (or_iff_right fun h => ?_).symm
      rcases kind_of_owes_integer h with hsign | hliteral
      · exact absurd (hupper.symm.trans hsign) (by simp)
      · exact absurd (hupper.symm.trans hliteral) (by simp)
    case isFalse hmax =>
      have bounded : ¬(t.take.atWord .wordMax = true ∧ t.take.take.Owes forms) := fun h => hmax h.1
      rw [or_iff_left bounded]
      split
      case isTrue => exact owes_integer hfail fun u _ => done u
      case isFalse hnumber =>
        exact iff_of_false (not_owes_fail hfail) fun h => hnumber (kind_of_owes_integer h)
  case isFalse hto =>
    rw [or_iff_left fun h => hto h.1]
    exact done t

theorem kind_of_owes_rangesEnd (h : s.Owes [Form.rangesEnd which]) :
    s.kind = .semicolon ∨ s.kind = .opener .square := by
  cases which with
  | reserved =>
    rw [Form.rangesEnd, owes_just rfl] at h
    exact .inl h.1
  | extensions =>
    rw [Form.rangesEnd, Form.ending, owes_both, owes_optional, owes_just rfl] at h
    rcases h with ⟨hsemicolon, -⟩ | hlist
    · exact .inl hsemicolon
    · exact .inr (beq_iff_eq.mp (ready_of_owes .optionList rfl (by simp) hlist))

theorem not_owes_rangesEnd_of_comma (hkind : s.kind = .comma) : ¬s.Owes [Form.rangesEnd which] := by
  intro h
  rcases kind_of_owes_rangesEnd h with hend | hend
  · exact absurd (hkind.symm.trans hend) (by simp)
  · exact absurd (hkind.symm.trans hend) (by simp)

/-- No identifier follows an item of a statement made of ranges. -/
theorem kind_ne_of_owes_rangesTail (h : s.Owes [.many (.just .comma ++ Form.rangesItem which),
    Form.rangesEnd which]) : s.kind ≠ .identifier := by
  rw [owes_many, owes_both, owes_just rfl] at h
  intro hkind
  rcases h with hend | ⟨hcomma, -⟩
  · rcases kind_of_owes_rangesEnd hend with hend | hend <;>
      exact absurd (hkind.symm.trans hend) (by simp)
  · exact absurd (hkind.symm.trans hcomma) (by simp)

theorem owes_rangesGoOn : (s.rangesGoOn which entry).Owes [] ↔
    s.Owes [.many (.just .comma ++ Form.rangesItem which), Form.rangesEnd which] := by
  unfold rangesGoOn
  split
  case isTrue hcomma =>
    rw [owes_resume, List.nil_append, Goal.form, owes_both, Form.listed, owes_both,
      owes_many_again (not_owes_rangesEnd_of_comma hcomma), owes_both, owes_just_of_kind hcomma rfl]
  case isFalse hcomma =>
    rw [owes_many_stop rfl hcomma]
    cases which with
    | reserved => exact owes_endStatement .reserved
    | extensions => exact owes_optionsOrEnd

theorem owes_rangesItem (spelled : Spelled s.cursor.rest) :
    (s.rangesItem which entry).Owes [] ↔ s.Owes [(Goal.rangesItem which).form] := by
  have fails := fails_failStatement entry which.declaration
  have range : (s.range (failStatement entry which.declaration) (rangesGoOn which entry)).Owes [] ↔
      s.Owes [.named .range, .many (.just .comma ++ Form.rangesItem which), Form.rangesEnd which] :=
    owes_range spelled fails (fun _ => kind_ne_of_owes_rangesTail) fun _ => owes_rangesGoOn
  have number (h : s.Owes [.named .range, .many (.just .comma ++ Form.rangesItem which),
      Form.rangesEnd which]) : s.kind = .minus ∨ s.kind = .intLiteral := kind_of_owes_range h
  rw [Goal.form, owes_both, Form.listed, owes_both]
  unfold ParseState.rangesItem
  cases which with
  | extensions =>
    cases hkind : s.kind with
    | intLiteral | minus => exact range
    | _ =>
      refine iff_of_false (not_owes_fail fails) fun h => ?_
      rcases number h with hnumber | hnumber <;> exact absurd (hkind.symm.trans hnumber) (by simp)
  | reserved =>
    -- a range, a string or a word
    have item : s.Owes [Form.rangesItem .reserved,
          .many (.just .comma ++ Form.rangesItem .reserved), Form.rangesEnd .reserved] ↔
        s.Owes [.named .range, .many (.just .comma ++ Form.rangesItem .reserved),
          Form.rangesEnd .reserved] ∨
        (s.kind = .stringLiteral ∨ s.kind.isIdentifierLike = true) ∧
          s.take.Owes [.many (.just .comma ++ Form.rangesItem .reserved),
            Form.rangesEnd .reserved] := by
      rw [Form.rangesItem, owes_either, owes_either, owes_just rfl, owes_identifier, or_assoc,
        or_and_right]
    rw [item]
    cases hkind : s.kind with
    | intLiteral | minus =>
      rw [or_iff_left fun h => h.1.elim (by decide) (by decide)]
      exact range
    | stringLiteral | identifier | keyword | scalar =>
      rw [hkind] at number
      refine owes_rangesGoOn.trans ?_
      simp only [TokenKind.isIdentifierLike, or_true, true_or, true_and]
      exact (or_iff_right fun h => (number h).elim (by simp) (by simp)).symm
    | _ =>
      rw [hkind] at number
      refine iff_of_false (not_owes_fail fails) ?_
      rintro (h | ⟨h, -⟩)
      · exact (number h).elim (by simp) (by simp)
      · exact h.elim (by rintro ⟨⟩) (by rintro ⟨⟩)

theorem owes_ranges (hkind : s.kind = .keyword which.word) :
    (s.ranges which entry).Owes [] ↔ s.Owes [.named (.ranges which)] := by
  rw [ranges, owes_resume, owes_named, Nonterminal.rule, owes_both, owes_just_of_kind hkind rfl]
  rfl

end ProtoFront
