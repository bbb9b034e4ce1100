import ProtoFront.Token.Lexer

/-!
# Pieces in front of a line break

No piece reaches over a line break, unless it is a block comment. So in front of a line break a
source is cut as if it ended there (`pieces_append_break`), whatever else is invalid in it, if no
block comment is open at its end: that one may be closed behind the line break.
-/

namespace ProtoFront

namespace Lexer

variable {inClass : Char → Bool} {quote first c : Char} {cs rest : List Char}

/-! ## Each class of piece -/

theorem runLength_append_break (h : inClass '\n' = false) :
    runLength inClass (cs ++ '\n' :: rest) = runLength inClass cs := by
  rw [runLength, runLength]
  induction cs with
  | nil => simp [h]
  | cons c cs ih =>
    rw [List.cons_append, List.takeWhile_cons, List.takeWhile_cons]
    split
    · exact congrArg Nat.succ ih
    · rfl

theorem runLength_le (inClass : Char → Bool) (cs : List Char) : runLength inClass cs ≤ cs.length :=
  (List.takeWhile_sublist inClass).length_le

theorem exponentLength_append_break :
    exponentLength (cs ++ '\n' :: rest) = exponentLength cs := by
  rcases cs with _ | ⟨letter, _ | ⟨sign, digits⟩⟩
  · rfl
  · simp [exponentLength, runLength]
  · simp only [List.cons_append, exponentLength]
    rw [← List.cons_append, runLength_append_break rfl, runLength_append_break rfl]

theorem exponentLength_le (cs : List Char) : exponentLength cs ≤ cs.length := by
  rcases cs with _ | ⟨letter, _ | ⟨sign, digits⟩⟩
  · exact Nat.le_refl _
  · simp [exponentLength]
  · have hdigits := runLength_le Char.isDigit digits
    have hrest := runLength_le Char.isDigit (sign :: digits)
    rw [List.length_cons] at hrest
    simp only [exponentLength, List.length_cons]
    split
    · split
      · split <;> omega
      · split <;> omega
    · omega

theorem hexLength_append_break : hexLength (cs ++ '\n' :: rest) = hexLength cs := by
  rcases cs with _ | ⟨marker, digits⟩
  · rfl
  · simp only [List.cons_append, hexLength]
    rw [runLength_append_break rfl]

theorem hexLength_le (cs : List Char) : hexLength cs ≤ cs.length := by
  rcases cs with _ | ⟨marker, digits⟩
  · exact Nat.le_refl _
  · have hdigits := runLength_le isHexDigit digits
    simp only [hexLength, List.length_cons]
    split
    · split <;> omega
    · omega

theorem drop_append_break {n : Nat} (h : n ≤ cs.length) :
    (cs ++ '\n' :: rest).drop n = cs.drop n ++ '\n' :: rest :=
  List.drop_append_of_le_length h

theorem numberExtent_append_break :
    numberExtent first (cs ++ '\n' :: rest) = numberExtent first cs := by
  rw [numberExtent, numberExtent, hexLength_append_break]
  split
  case h_1 => rfl
  case h_2 =>
    dsimp only
    rw [runLength_append_break rfl, drop_append_break (runLength_le _ _)]
    rcases cs.drop (runLength Char.isDigit cs) with _ | ⟨point, digits⟩
    · rfl
    · by_cases hpoint : point = '.'
      · subst hpoint
        simp only [List.cons_append]
        rw [runLength_append_break rfl, drop_append_break (runLength_le _ _),
          exponentLength_append_break]
      · rw [List.cons_append]
        split
        case h_1 hcons => exact absurd (List.cons.inj hcons).1 hpoint
        case h_2 =>
          rw [← List.cons_append, exponentLength_append_break]
          -- the test for the point comes after the one for the exponent
          split
          all_goals
            next hexponent =>
              split
              case h_1 hcons => exact absurd (List.cons.inj hcons).1 hpoint
              case h_2 => rw [hexponent]

theorem numberExtent_le : (numberExtent first cs).2 ≤ cs.length := by
  have hwhole := runLength_le Char.isDigit cs
  have hlength : (cs.drop (runLength Char.isDigit cs)).length + runLength Char.isDigit cs =
      cs.length := by
    rw [List.length_drop]
    omega
  rw [numberExtent]
  split
  case h_1 n hhex =>
    have hle := hexLength_le cs
    split at hhex <;> omega
  case h_2 =>
    dsimp only
    split
    case h_1 digits hdrop =>
      have hfraction := runLength_le Char.isDigit digits
      have hexponent := exponentLength_le (digits.drop (runLength Char.isDigit digits))
      rw [List.length_drop] at hexponent
      rw [hdrop, List.length_cons] at hlength
      dsimp only
      omega
    case h_2 =>
      have hexponent := exponentLength_le (cs.drop (runLength Char.isDigit cs))
      split <;> (dsimp only; omega)

theorem dotExtent_append_break : dotExtent (cs ++ '\n' :: rest) = dotExtent cs := by
  have hdigits := runLength_le Char.isDigit cs
  rw [dotExtent, dotExtent, runLength_append_break rfl]
  split
  case h_1 => rfl
  case h_2 n hn =>
    rw [drop_append_break (by omega), exponentLength_append_break]

theorem dotExtent_le : (dotExtent cs).2 ≤ cs.length := by
  have hdigits := runLength_le Char.isDigit cs
  rw [dotExtent]
  split
  case h_1 => exact Nat.zero_le _
  case h_2 n hn =>
    have hexponent := exponentLength_le (cs.drop (n + 1))
    rw [List.length_drop] at hexponent
    dsimp only
    omega

theorem contentLength_append_break :
    contentLength quote (cs ++ '\n' :: rest) = contentLength quote cs := by
  fun_induction contentLength quote cs with
  | case1 => simp [contentLength]
  | case2 => simp_all [contentLength]
  | case3 => simp_all [contentLength]
  | case4 c tail plain stops =>
    by_cases hc : c = '\\'
    · subst hc
      rcases tail with _ | ⟨escaped, tail⟩
      · simp [contentLength]
      · exact (plain _ _ rfl rfl).elim
    · simp_all [contentLength]
  | case5 c tail plain goesOn ih => simp_all [contentLength]

theorem contentLength_le (quote : Char) (cs : List Char) : contentLength quote cs ≤ cs.length := by
  fun_induction contentLength quote cs <;> simp_all

theorem stringExtent_append_break (h : quote ≠ '\n') :
    stringExtent quote (cs ++ '\n' :: rest) = stringExtent quote cs := by
  rw [stringExtent, stringExtent, contentLength_append_break]
  rw [drop_append_break (contentLength_le _ _)]
  rcases cs.drop (contentLength quote cs) with _ | ⟨next, more⟩
  · simp [h.symm]
  · rfl

theorem stringExtent_le : (stringExtent quote cs).2 ≤ cs.length := by
  have hcontent := contentLength_le quote cs
  rw [stringExtent]
  split
  case isTrue hquote =>
    rcases hdrop : cs.drop (contentLength quote cs) with _ | ⟨next, more⟩
    · simp [hdrop] at hquote
    · have hlength := congrArg List.length hdrop
      rw [List.length_drop, List.length_cons] at hlength
      dsimp only
      omega
  case isFalse => exact hcontent

theorem commentLength?_append {n : Nat} {more : List Char} (h : commentLength? cs = some n) :
    commentLength? (cs ++ more) = some n := by
  fun_induction commentLength? cs generalizing n with
  | case1 => cases h
  | case2 => simpa [commentLength?] using h
  | case3 c tail plain ih =>
    obtain ⟨m, hm, rfl⟩ := Option.map_eq_some_iff.mp h
    rcases tail with _ | ⟨next, tail⟩
    · cases hm
    · rw [List.cons_append, commentLength?]
      · rw [ih hm]
        rfl
      · intro rest hc hnext
        exact plain tail hc (congrArg (· :: tail) (List.cons.inj hnext).1)

theorem commentLength?_le {n : Nat} (h : commentLength? cs = some n) : n ≤ cs.length := by
  fun_induction commentLength? cs generalizing n with
  | case1 => cases h
  | case2 =>
    obtain rfl := Option.some.inj h
    simp
  | case3 c tail plain ih =>
    obtain ⟨m, hm, rfl⟩ := Option.map_eq_some_iff.mp h
    exact Nat.succ_le_succ (ih hm)

/-- A comment that is closed ends where it is closed first. -/
theorem slashExtent_append_break (valid : (slashExtent cs).1 ≠ .invalid) :
    slashExtent (cs ++ '\n' :: rest) = slashExtent cs := by
  rcases cs with _ | ⟨next, more⟩
  · rfl
  · rw [List.cons_append]
    by_cases hslash : next = '/'
    · subst hslash
      simp only [slashExtent]
      rw [runLength_append_break rfl]
    · by_cases hstar : next = '*'
      · subst hstar
        simp only [slashExtent] at valid ⊢
        rcases hn : commentLength? more with _ | n
        · simp [hn] at valid
        · rw [commentLength?_append hn]
      · simp [slashExtent, hslash, hstar]

theorem slashExtent_le : (slashExtent cs).2 ≤ cs.length := by
  rw [slashExtent.eq_def]
  split
  case h_1 rest => exact Nat.succ_le_succ (runLength_le _ _)
  case h_2 rest =>
    split
    case h_1 n hn => exact Nat.succ_le_succ (commentLength?_le hn)
    case h_2 => exact Nat.le_refl _
  case h_3 => exact Nat.zero_le _

/-! ## Pieces -/

/-- A piece does not reach over the end. -/
theorem extent_le (c : Char) (cs : List Char) : (extent c cs).2 ≤ cs.length := by
  rw [extent]
  split
  · exact Nat.zero_le _
  split
  · exact runLength_le _ _
  split
  · exact numberExtent_le
  split
  · exact dotExtent_le
  split
  · exact stringExtent_le
  split
  · exact slashExtent_le
  · exact Nat.zero_le _

/-- No piece reaches over a line break behind it, but for a block comment that is not closed. -/
theorem extent_append_break (closed : c = '/' → (slashExtent cs).1 ≠ .invalid) :
    extent c (cs ++ '\n' :: rest) = extent c cs := by
  rw [extent, extent]
  split
  case isTrue => rfl
  case isFalse hblank =>
    split
    · dsimp only
      rw [runLength_append_break rfl, List.take_append_of_le_length (runLength_le _ _)]
    split
    · rw [numberExtent_append_break]
    split
    · rw [dotExtent_append_break]
    split
    · rw [stringExtent_append_break]
      rintro rfl
      exact hblank rfl
    split
    case isTrue hslash => rw [slashExtent_append_break (closed (beq_iff_eq.mp hslash))]
    case isFalse => rfl

/-- Any word may stand for a name, reserved or not. -/
theorem isIdentifierLike_ofWord (text : String) :
    (TokenKind.ofWord text).isIdentifierLike = true := by
  rw [TokenKind.ofWord]
  generalize hfound : (TokenKind.all.filter TokenKind.isKeyword).find? _ = found
  rcases found with _ | kind
  · rfl
  · have hkeyword := (List.mem_filter.mp (List.mem_of_find?_eq_some hfound)).2
    rw [Option.getD_some]
    cases kind with
    | keyword | scalar => rfl
    | _ => cases hkeyword

theorem ofWord_ne_eof (text : String) : TokenKind.ofWord text ≠ .eof := by
  intro heof
  have hword := isIdentifierLike_ofWord text
  rw [heof] at hword
  cases hword

theorem punctuation_ne_eof (c : Char) : (punctuation? c).getD .invalid ≠ .eof := by
  rcases hfound : punctuation? c with _ | kind
  · rintro ⟨⟩
  · have hkind := List.mem_of_find?_eq_some hfound
    rw [Option.getD_some]
    rintro rfl
    simp at hkind

/-- No piece is the end of the input. -/
theorem extent_ne_eof : (extent c cs).1 ≠ some .eof := by
  rw [extent]
  split
  · simp
  split
  · exact fun heq => ofWord_ne_eof _ (Option.some.inj heq)
  split
  · rw [numberExtent]
    split
    · simp
    · dsimp only
      split
      · simp
      · split <;> simp
  split
  · rw [dotExtent]
    split <;> simp
  split
  · rw [stringExtent]
    split <;> simp
  split
  · rw [slashExtent.eq_def]
    split
    · simp
    · split <;> simp
    · simp
  · exact fun heq => punctuation_ne_eof c (Option.some.inj heq)

theorem pieces_cons (c : Char) (cs : List Char) :
    pieces (c :: cs) =
      ⟨(extent c cs).1, c :: cs.take (extent c cs).2⟩ :: pieces (cs.drop (extent c cs).2) := by
  rw [pieces]

/-- The pieces, put together, are the source. -/
theorem flatten_pieces (cs : List Char) : ((pieces cs).map Piece.text).flatten = cs := by
  induction cs using pieces.induct with
  | case1 => rw [pieces]; rfl
  | case2 c cs kind? n hextent ih =>
    rw [pieces_cons, hextent, List.map_cons, List.flatten_cons, ih, List.cons_append,
      List.take_append_drop]

theorem kind?_ne_eof {piece : Piece} (h : piece ∈ pieces cs) : piece.kind? ≠ some .eof := by
  induction cs using pieces.induct with
  | case1 =>
    rw [pieces] at h
    cases h
  | case2 c cs kind? n hextent ih =>
    rw [pieces_cons] at h
    rcases List.mem_cons.mp h with rfl | hlater
    · exact extent_ne_eof
    · rw [hextent] at hlater
      exact ih hlater

/-- A block comment that is not closed. It takes all that is left of the source. -/
def Piece.IsOpenComment (piece : Piece) : Prop :=
  piece.kind? = some .invalid ∧ ['/', '*'] <+: piece.text

/-- A slash begins something invalid only if it begins a comment that is not closed. -/
theorem isOpenComment_of_slashExtent (h : (slashExtent cs).1 = .invalid) :
    Piece.IsOpenComment ⟨(extent '/' cs).1, '/' :: cs.take (extent '/' cs).2⟩ := by
  have slash : extent '/' cs = (slashExtent cs).map some id := rfl
  rw [slashExtent.eq_def] at h
  split at h
  case h_1 => cases h
  case h_2 rest =>
    split at h
    case h_1 => cases h
    case h_2 hopen =>
      rw [slash, slashExtent, hopen]
      exact ⟨rfl, _, rfl⟩
  case h_3 => cases h

/-- In front of a line break a source is cut as if it ended there, if no comment is open at its end.
The line break is a blank. -/
theorem pieces_append_break (closed : ∀ piece ∈ pieces cs, ¬piece.IsOpenComment) :
    pieces (cs ++ '\n' :: rest) = pieces cs ++ ⟨none, ['\n']⟩ :: pieces rest := by
  induction cs using pieces.induct with
  | case1 =>
    rw [List.nil_append, pieces_cons, pieces]
    rfl
  | case2 c cs kind? n hextent ih =>
    have hle := extent_le c cs
    rw [pieces_cons] at closed ⊢
    have first : c = '/' → (slashExtent cs).1 ≠ .invalid := by
      rintro rfl hopen
      exact closed _ List.mem_cons_self (isOpenComment_of_slashExtent hopen)
    rw [List.cons_append, pieces_cons, extent_append_break first]
    rw [hextent] at closed hle ⊢
    rw [drop_append_break hle, List.take_append_of_le_length hle,
      ih fun piece hpiece => closed piece (List.mem_cons_of_mem _ hpiece)]
    rfl

/-! ## Words in front of a blank -/

/-- A letter or an underscore, and then letters, digits and underscores. -/
def isWord : List Char → Bool
  | [] => false
  | c :: cs => isWordStart c && cs.all isWordChar

theorem isWordChar_of_isBlank (h : isBlank c = true) : isWordChar c = false := by
  simp only [isBlank, Bool.or_eq_true, beq_iff_eq] at h
  rcases h with (((rfl | rfl) | rfl) | rfl) | rfl <;> rfl

theorem isBlank_of_isWordStart (h : isWordStart c = true) : isBlank c = false := by
  refine Bool.eq_false_iff.mpr fun hblank => ?_
  simp only [isBlank, Bool.or_eq_true, beq_iff_eq] at hblank
  rcases hblank with (((rfl | rfl) | rfl) | rfl) | rfl <;> cases h

/-- In front of a blank a word is a piece. -/
theorem pieces_word {name : List Char} (word : isWord name = true) (blank : isBlank c = true) :
    pieces (name ++ c :: rest) =
      ⟨some (.ofWord (String.ofList name)), name⟩ :: ⟨none, [c]⟩ :: pieces rest := by
  rcases name with _ | ⟨d, ds⟩
  · cases word
  · obtain ⟨hstart, hrest⟩ := Bool.and_eq_true_iff.mp word
    have hlength : runLength isWordChar (ds ++ c :: rest) = ds.length := by
      rw [runLength, List.takeWhile_append_of_pos fun d hd => List.all_eq_true.mp hrest d hd,
        List.takeWhile_cons, isWordChar_of_isBlank blank]
      simp
    have hword : extent d (ds ++ c :: rest) =
        (some (.ofWord (String.ofList (d :: ds))), ds.length) := by
      simp [extent, isBlank_of_isWordStart hstart, hstart, hlength]
    have hblank : extent c rest = (none, 0) := by rw [extent, if_pos blank]
    rw [List.cons_append, pieces_cons, hword]
    simp only [List.take_left, List.drop_left]
    rw [pieces_cons, hblank]
    rfl

end Lexer

end ProtoFront
