import ProtoFront.Proofs.Token.Lexemes

/-!
# Tokens with spaces between them

A token may be cut out of its source and be written in front of a blank: it is the longest piece
there as well. So a source may be written anew, with one space between any two of its tokens, and
is read as before (`tokenize_respaced`).
-/

namespace ProtoFront

namespace Lexer

variable {inClass : Char → Bool} {quote first c : Char} {cs tail : List Char} {n : Nat}

/-! ## Each class of piece -/

/-- Nothing, or something that begins with a blank. -/
def IsEnding (tail : List Char) : Prop := ∀ c ∈ tail.head?, isBlank c = true

theorem IsEnding.head (ending : IsEnding (c :: tail)) : isBlank c = true := ending c rfl

theorem IsEnding.ne (ending : IsEnding (c :: tail)) (d : Char) (visible : isBlank d = false) :
    c ≠ d := by
  rintro rfl
  exact Bool.false_ne_true (visible.symm.trans ending.head)

theorem runLength_take_append (ending : ∀ c ∈ tail.head?, inClass c = false) :
    runLength inClass (cs.take n ++ tail) = min n (runLength inClass cs) := by
  rw [runLength, runLength]
  induction cs generalizing n with
  | nil => rcases tail with _ | ⟨d, tail⟩ <;> simp_all
  | cons c cs ih =>
    rcases n with _ | n
    · rcases tail with _ | ⟨d, tail⟩ <;> simp_all
    · rw [List.take_succ_cons, List.cons_append, List.takeWhile_cons, List.takeWhile_cons]
      split
      · rw [List.length_cons, List.length_cons, ih, Nat.succ_min_succ]
      · simp

theorem mem_of_isBlank (h : isBlank c = true) : c ∈ [' ', '\t', '\r', '\n', '\x0c'] := by
  simpa [isBlank, or_assoc] using h

theorem IsEnding.runLength_take (ending : IsEnding tail) (inClass : Char → Bool)
    (visible : [' ', '\t', '\r', '\n', '\x0c'].all (fun c => !inClass c) = true) (cs : List Char)
    (n : Nat) : runLength inClass (cs.take n ++ tail) = min n (runLength inClass cs) :=
  runLength_take_append fun c hc => by
    simpa using List.all_eq_true.mp visible c (mem_of_isBlank (ending c hc))

theorem IsEnding.exponentLength_eq_zero (ending : IsEnding tail) : exponentLength tail = 0 := by
  rcases tail with _ | ⟨c, tail⟩
  · rfl
  · simp [exponentLength, ending.ne 'e' rfl, ending.ne 'E' rfl]

theorem IsEnding.exponentLength_take (ending : IsEnding tail) (cs : List Char) :
    exponentLength (cs.take (exponentLength cs) ++ tail) = exponentLength cs := by
  fun_cases exponentLength cs with
  | case1 | case2 | case6 | case7 => exact ending.exponentLength_eq_zero
  | case3 letter hletter sign digits hsign n hdigits =>
    have htake := ending.runLength_take Char.isDigit rfl digits (n + 1)
    rw [hdigits, Nat.min_self] at htake
    simp [exponentLength, hletter, hsign, htake]
  | case4 letter hletter sign digits hsign hdigits =>
    rw [hdigits]
    exact ending.exponentLength_eq_zero
  | case5 letter hletter sign digits hsign n hdigits =>
    have htake := ending.runLength_take Char.isDigit rfl (sign :: digits) (n + 1)
    rw [hdigits, Nat.min_self] at htake
    rw [hdigits]
    simp only [List.take_succ_cons, List.cons_append] at htake ⊢
    simp [exponentLength, hletter, hsign, htake]

theorem IsEnding.hexLength_eq_zero (ending : IsEnding tail) : hexLength tail = 0 := by
  rcases tail with _ | ⟨c, tail⟩
  · rfl
  · simp [hexLength, ending.ne 'x' rfl, ending.ne 'X' rfl]

theorem IsEnding.hexLength_take (ending : IsEnding tail) (h : hexLength cs ≤ n) :
    hexLength (cs.take n ++ tail) = hexLength cs := by
  have htake := ending.runLength_take isHexDigit rfl
  rcases cs with _ | ⟨marker, digits⟩
  · rw [List.take_nil, List.nil_append, ending.hexLength_eq_zero]
    rfl
  rcases n with _ | n
  · rw [Nat.le_zero.mp h]
    exact ending.hexLength_eq_zero
  rw [List.take_succ_cons, List.cons_append, hexLength, hexLength] at *
  rw [htake]
  split
  · next hmarker =>
    rw [if_pos hmarker] at h
    rcases hdigits : runLength isHexDigit digits with _ | more
    · rw [Nat.min_zero]
    · rw [hdigits] at h
      rw [Nat.min_eq_right (by dsimp only at h; omega)]
  · rfl

/-- Digits that are cut off behind their end end there. -/
theorem IsEnding.drop_digits (ending : IsEnding tail) (h : runLength Char.isDigit cs ≤ n) :
    runLength Char.isDigit (cs.take n ++ tail) = runLength Char.isDigit cs ∧
      (cs.take n ++ tail).drop (runLength Char.isDigit cs) =
        (cs.drop (runLength Char.isDigit cs)).take (n - runLength Char.isDigit cs) ++ tail := by
  have hlength := runLength_le Char.isDigit cs
  refine ⟨?_, ?_⟩
  · rw [ending.runLength_take _ rfl, Nat.min_eq_right h]
  · rw [List.drop_append_of_le_length (by rw [List.length_take]; omega), List.drop_take]

/-- Cutting something off in front of a blank does not bring a point to the front. -/
theorem IsEnding.take_ne_point (ending : IsEnding tail) (point : ∀ digits, cs ≠ '.' :: digits)
    (n : Nat) (digits : List Char) : cs.take n ++ tail ≠ '.' :: digits := by
  have hblank : tail ≠ '.' :: digits := by
    rintro rfl
    exact ending.ne '.' rfl rfl
  rcases cs with _ | ⟨c, cs⟩
  · simpa using hblank
  rcases n with _ | n
  · simpa using hblank
  · intro heq
    exact point cs (congrArg (· :: cs) (List.cons.inj heq).1)

section

variable (nohex : (if first == '0' then hexLength cs else 0) = 0)
include nohex

theorem numberExtent_of_point {digits : List Char}
    (point : cs.drop (runLength Char.isDigit cs) = '.' :: digits) :
    numberExtent first cs = (.floatLiteral, runLength Char.isDigit cs + 1 +
      runLength Char.isDigit digits +
        exponentLength (digits.drop (runLength Char.isDigit digits))) := by
  simp only [numberExtent, nohex, point]

theorem numberExtent_of_no_point
    (point : ∀ digits, cs.drop (runLength Char.isDigit cs) ≠ '.' :: digits) :
    numberExtent first cs =
      (if exponentLength (cs.drop (runLength Char.isDigit cs)) = 0 then .intLiteral
        else .floatLiteral,
        runLength Char.isDigit cs + exponentLength (cs.drop (runLength Char.isDigit cs))) := by
  rw [numberExtent, nohex]
  dsimp only
  split
  · next hpoint => exact absurd hpoint (point _)
  · split
    · next hzero => rw [hzero, if_pos rfl, Nat.add_zero]
    · next hsucc => rw [hsucc, if_neg (Nat.succ_ne_zero _)]

end

theorem IsEnding.hexes_take (ending : IsEnding tail)
    (h : (if first == '0' then hexLength cs else 0) ≤ n) :
    (if first == '0' then hexLength (cs.take n ++ tail) else 0) =
      if first == '0' then hexLength cs else 0 := by
  split
  · next hzero =>
    rw [if_pos hzero] at h
    exact ending.hexLength_take h
  · rfl

section

variable (ending : IsEnding tail) (nohex : (if first == '0' then hexLength cs else 0) = 0)
include ending nohex

theorem IsEnding.numberExtent_take_point {digits : List Char}
    (point : cs.drop (runLength Char.isDigit cs) = '.' :: digits) :
    numberExtent first (cs.take (numberExtent first cs).2 ++ tail) = numberExtent first cs := by
  rw [numberExtent_of_point nohex point]
  generalize hlength : runLength Char.isDigit cs + 1 + runLength Char.isDigit digits +
    exponentLength (digits.drop (runLength Char.isDigit digits)) = length
  have nohex' := (ending.hexes_take (nohex.trans_le (Nat.zero_le length))).trans nohex
  obtain ⟨hwhole, hpoint⟩ :=
    ending.drop_digits (show runLength Char.isDigit cs ≤ length by omega)
  obtain ⟨hfraction, hrest⟩ := ending.drop_digits
    (show runLength Char.isDigit digits ≤ length - runLength Char.isDigit cs - 1 by omega)
  have point' : (cs.take length ++ tail).drop (runLength Char.isDigit (cs.take length ++ tail)) =
      '.' :: (digits.take (length - runLength Char.isDigit cs - 1) ++ tail) := by
    rw [hwhole, hpoint, point, ← List.cons_append, ← List.take_succ_cons,
      show length - runLength Char.isDigit cs - 1 + 1 =
        length - runLength Char.isDigit cs by omega]
  rw [numberExtent_of_point nohex' point', hwhole, hfraction, hrest,
    show length - runLength Char.isDigit cs - 1 - runLength Char.isDigit digits =
      exponentLength (digits.drop (runLength Char.isDigit digits)) by omega,
    ending.exponentLength_take, hlength]

theorem IsEnding.numberExtent_take_no_point
    (point : ∀ digits, cs.drop (runLength Char.isDigit cs) ≠ '.' :: digits) :
    numberExtent first (cs.take (numberExtent first cs).2 ++ tail) = numberExtent first cs := by
  rw [numberExtent_of_no_point nohex point]
  generalize hlength : runLength Char.isDigit cs +
    exponentLength (cs.drop (runLength Char.isDigit cs)) = length
  have nohex' := (ending.hexes_take (nohex.trans_le (Nat.zero_le length))).trans nohex
  obtain ⟨hwhole, hrest⟩ :=
    ending.drop_digits (show runLength Char.isDigit cs ≤ length by omega)
  rw [show length - runLength Char.isDigit cs =
    exponentLength (cs.drop (runLength Char.isDigit cs)) by omega] at hrest
  have point' : ∀ digits, (cs.take length ++ tail).drop
      (runLength Char.isDigit (cs.take length ++ tail)) ≠ '.' :: digits := by
    rw [hwhole, hrest]
    exact ending.take_ne_point point _
  rw [numberExtent_of_no_point nohex' point', hwhole, hrest, ending.exponentLength_take, hlength]

end

theorem IsEnding.numberExtent_take (ending : IsEnding tail) (first : Char) (cs : List Char) :
    numberExtent first (cs.take (numberExtent first cs).2 ++ tail) = numberExtent first cs := by
  rcases hhex : (if first == '0' then hexLength cs else 0) with _ | n
  · by_cases point : ∃ digits, cs.drop (runLength Char.isDigit cs) = '.' :: digits
    · obtain ⟨digits, point⟩ := point
      exact ending.numberExtent_take_point hhex point
    · exact ending.numberExtent_take_no_point hhex (not_exists.mp point)
  · have hnumber : numberExtent first cs = (.intLiteral, n + 1) := by rw [numberExtent, hhex]
    rw [hnumber, numberExtent, ending.hexes_take hhex.le, hhex]

theorem IsEnding.dotExtent_take (ending : IsEnding tail) (cs : List Char) :
    dotExtent (cs.take (dotExtent cs).2 ++ tail) = dotExtent cs := by
  rcases hdigits : runLength Char.isDigit cs with _ | n
  · have hdot : dotExtent cs = (.dot, 0) := by rw [dotExtent, hdigits]
    have hblank := ending.runLength_take Char.isDigit rfl cs 0
    rw [hdot, dotExtent, hblank, Nat.zero_min]
  · have hdot : dotExtent cs = (.floatLiteral, n + 1 + exponentLength (cs.drop (n + 1))) := by
      rw [dotExtent, hdigits]
    rw [hdot]
    generalize hlength : n + 1 + exponentLength (cs.drop (n + 1)) = length
    obtain ⟨hfraction, hrest⟩ :=
      ending.drop_digits (show runLength Char.isDigit cs ≤ length by omega)
    rw [hdigits] at hfraction hrest
    rw [dotExtent, hfraction]
    dsimp only
    rw [hrest, show length - (n + 1) = exponentLength (cs.drop (n + 1)) by omega,
      ending.exponentLength_take, hlength]

/-- A string is over behind its closing quote. -/
theorem contentLength_take (closed : (cs.drop (contentLength quote cs)).head? = some quote)
    (plain : quote ≠ '\\') (tail : List Char) :
    contentLength quote (cs.take (contentLength quote cs + 1) ++ tail) =
      contentLength quote cs := by
  fun_induction contentLength quote cs with
  | case1 => cases closed
  | case2 => exact absurd (Option.some.inj closed).symm plain
  | case3 escaped rest visible ih =>
    simp only [List.take_succ_cons, List.cons_append, contentLength, if_neg visible, ih closed]
  | case4 c rest single stops =>
    obtain rfl := Option.some.inj closed
    rw [List.take_succ_cons, List.take_zero, List.cons_append, List.nil_append, contentLength,
      if_pos stops]
    exact fun _ _ hc _ => plain hc
  | case5 c rest single goesOn ih =>
    rw [List.take_succ_cons, List.cons_append, contentLength, if_neg goesOn, ih closed]
    rintro escaped more rfl -
    simp at goesOn

theorem stringExtent_take (closed : (stringExtent quote cs).1 ≠ .invalid)
    (plain : quote ≠ '\\') (tail : List Char) :
    stringExtent quote (cs.take (stringExtent quote cs).2 ++ tail) = stringExtent quote cs := by
  by_cases hquote : ((cs.drop (contentLength quote cs)).head? == some quote) = true
  · have hstring : stringExtent quote cs = (.stringLiteral, contentLength quote cs + 1) := by
      rw [stringExtent, if_pos hquote]
    have hcontent := contentLength_take (beq_iff_eq.mp hquote) plain tail
    rw [beq_iff_eq, List.head?_drop] at hquote
    have hlength := (List.getElem?_eq_some_iff.mp hquote).1
    rw [hstring, stringExtent, hcontent, if_pos]
    rw [beq_iff_eq, List.head?_drop, List.getElem?_append_left (by rw [List.length_take]; omega),
      List.getElem?_take_of_lt (Nat.lt_succ_self _), hquote]
  · rw [stringExtent, if_neg hquote] at closed
    exact absurd rfl closed

theorem IsEnding.slashExtent_take (ending : IsEnding tail) (valid : (slashExtent cs).1 ≠ .invalid)
    (plain : (slashExtent cs).1.isComment = false) :
    slashExtent (cs.take (slashExtent cs).2 ++ tail) = slashExtent cs := by
  fun_cases slashExtent cs with
  | case1 => cases plain
  | case2 rest n hn =>
    rw [slashExtent, hn] at plain
    cases plain
  | case3 rest hn =>
    rw [slashExtent, hn] at valid
    exact absurd rfl valid
  | case4 =>
    rcases tail with _ | ⟨c, tail⟩
    · rfl
    · have hslash := ending.ne '/' rfl
      have hstar := ending.ne '*' rfl
      simp [slashExtent, hslash, hstar]

/-- A token that is written in front of a blank ends there. -/
theorem IsEnding.extent_take (ending : IsEnding tail) (valid : (extent c cs).1 ≠ some .invalid)
    (plain : ∀ kind ∈ (extent c cs).1, kind.isComment = false) :
    extent c (cs.take (extent c cs).2 ++ tail) = extent c cs := by
  by_cases hblank : isBlank c = true
  · have blank : ∀ cs, extent c cs = (none, 0) := fun cs => by rw [extent, if_pos hblank]
    rw [blank, blank]
  by_cases hword : isWordStart c = true
  · have word : ∀ cs, extent c cs = (some (.ofWord (String.ofList
        (c :: cs.take (runLength isWordChar cs)))), runLength isWordChar cs) := fun cs => by
      rw [extent, if_neg hblank, if_pos hword]
    have hrun := ending.runLength_take isWordChar rfl cs (runLength isWordChar cs)
    rw [Nat.min_self] at hrun
    rw [word, word, hrun, List.take_append_of_le_length, List.take_take, Nat.min_self]
    rw [List.length_take, Nat.min_eq_left (runLength_le _ _)]
  by_cases hdigit : c.isDigit = true
  · have number : ∀ cs, extent c cs = (numberExtent c cs).map some id := fun cs => by
      rw [extent, if_neg hblank, if_neg hword, if_pos hdigit]
    rw [number, number, Prod.map_snd, id_eq, ending.numberExtent_take]
  by_cases hdot : (c == '.') = true
  · have dot : ∀ cs, extent c cs = (dotExtent cs).map some id := fun cs => by
      rw [extent, if_neg hblank, if_neg hword, if_neg hdigit, if_pos hdot]
    rw [dot, dot, Prod.map_snd, id_eq, ending.dotExtent_take]
  by_cases hquote : (c == '"' || c == '\'') = true
  · have string : ∀ cs, extent c cs = (stringExtent c cs).map some id := fun cs => by
      rw [extent, if_neg hblank, if_neg hword, if_neg hdigit, if_neg hdot, if_pos hquote]
    have hplain : c ≠ '\\' := by
      rintro rfl
      cases hquote
    rw [string] at valid
    rw [string, string, Prod.map_snd, id_eq,
      stringExtent_take (fun hopen => valid (congrArg some hopen)) hplain]
  by_cases hslash : (c == '/') = true
  · have slash : ∀ cs, extent c cs = (slashExtent cs).map some id := fun cs => by
      rw [extent, if_neg hblank, if_neg hword, if_neg hdigit, if_neg hdot, if_neg hquote,
        if_pos hslash]
    rw [slash] at valid plain
    rw [slash, slash, Prod.map_snd, id_eq,
      ending.slashExtent_take (fun hopen => valid (congrArg some hopen)) (plain _ rfl)]
  · have single : ∀ cs, extent c cs = (some ((punctuation? c).getD .invalid), 0) := fun cs => by
      rw [extent, if_neg hblank, if_neg hword, if_neg hdigit, if_neg hdot, if_neg hquote,
        if_neg hslash]
    rw [single, single]

/-! ## Pieces -/

/-- A piece that is cut out of any text in front of a blank. -/
def Piece.IsWritten (piece : Piece) : Prop :=
  ∀ tail, IsEnding tail → pieces (piece.text ++ tail) = piece :: pieces tail

/-- All pieces are, but for what is invalid and for comments. -/
theorem isWritten_of_mem {piece : Piece} (h : piece ∈ pieces cs)
    (valid : piece.kind? ≠ some .invalid)
    (plain : ∀ kind ∈ piece.kind?, kind.isComment = false) : piece.IsWritten := by
  induction cs using pieces.induct with
  | case1 =>
    rw [pieces] at h
    cases h
  | case2 c cs kind? n hextent ih =>
    rw [pieces_cons] at h
    rcases List.mem_cons.mp h with rfl | hlater
    · intro tail ending
      have hcut := ending.extent_take valid plain
      have hlength : (cs.take (extent c cs).2).length = (extent c cs).2 := by
        rw [List.length_take, Nat.min_eq_left (extent_le c cs)]
      rw [List.cons_append, pieces_cons, hcut, List.take_left' hlength, List.drop_left' hlength]
    · rw [hextent] at hlater
      exact ih hlater

/-- One space. -/
def space : Piece := ⟨none, [' ']⟩

/-- Pieces with spaces between them are cut apart again. -/
theorem pieces_intercalate {parts : List Piece} (written : ∀ piece ∈ parts, piece.IsWritten) :
    pieces ([' '].intercalate (parts.map Piece.text)) = parts.intersperse space := by
  induction parts with
  | nil => rw [pieces.eq_def]; rfl
  | cons piece parts ih =>
    have first := written piece List.mem_cons_self
    rcases parts with _ | ⟨next, parts⟩
    · have last := first [] (by rintro c ⟨⟩)
      rw [List.append_nil, pieces] at last
      rw [List.map_singleton, List.intercalate_singleton, last]
      rfl
    · have hspace : ∀ rest, pieces (' ' :: rest) = space :: pieces rest := fun rest => by
        rw [pieces_cons]
        rfl
      rw [List.map_cons, List.map_cons, List.intercalate_cons_cons, List.append_assoc,
        List.singleton_append, first _ (by rintro c ⟨⟩; rfl), hspace, ← List.map_cons,
        ih fun piece hpiece => written piece (List.mem_cons_of_mem _ hpiece)]
      rfl

theorem filter_intersperse {keepComments : Bool} {parts : List Piece}
    (kept : ∀ piece ∈ parts, piece.isKept keepComments = true) :
    (parts.intersperse space).filter (Piece.isKept keepComments) = parts := by
  induction parts with
  | nil => rfl
  | cons piece parts ih =>
    have first := kept piece List.mem_cons_self
    have rest := ih fun piece hpiece => kept piece (List.mem_cons_of_mem _ hpiece)
    rcases parts with _ | ⟨next, parts⟩
    · rw [List.intersperse_singleton, List.filter_singleton, first]
      rfl
    · rw [List.intersperse_cons_cons, List.filter_cons_of_pos first,
        List.filter_cons_of_neg (by rintro ⟨⟩), rest]

theorem map_kind {source : List Char} {tokens : List Token} {parts : List Piece}
    (h : List.Forall₂ (Covers source) tokens parts) :
    tokens.map Token.kind = parts.filterMap Piece.kind? := by
  induction h with
  | nil => rfl
  | cons covers _ ih => rw [List.map_cons, List.filterMap_cons_some covers.kind, ih]

/-- What is a token without comments may be written anew, and is a token with comments, too. -/
theorem isWritten_of_kept {source : String} {piece : Piece} (h : piece ∈ keptPieces source)
    (valid : ∀ token ∈ plainTokens source, token.kind ≠ .invalid) :
    piece.IsWritten ∧ ∀ keepComments, piece.isKept keepComments = true := by
  obtain ⟨hmem, hkept⟩ := List.mem_filter.mp h
  obtain ⟨kind, hkind, hplain⟩ : ∃ kind, piece.kind? = some kind ∧ kind.isComment = false := by
    rw [Piece.isKept] at hkept
    rcases hkind : piece.kind? with _ | kind
    · rw [hkind] at hkept
      cases hkept
    · exact ⟨kind, rfl, by simpa [hkind] using hkept⟩
  refine ⟨isWritten_of_mem hmem (valid_pieces valid piece hmem) ?_, fun keepComments => ?_⟩
  · rintro _ hkind'
    obtain rfl := Option.some.inj (hkind.symm.trans hkind')
    exact hplain
  · rw [Piece.isKept, hkind, Option.any_some, hplain]
    rfl

end Lexer

open Lexer

/-- A source may be written anew, with one space between any two of its tokens: if no token is
invalid, there are the same tokens again, with the same texts. The comments are left out, so it does
not matter any more whether comments are kept. -/
theorem tokenize_respaced (source : String) (keepComments : Bool)
    (valid : ∀ token ∈ (tokenize source false).tokens, token.kind ≠ .invalid) :
    let buffer := tokenize source false
    let texts := (List.range (buffer.size - 1)).map buffer.text
    let respaced := tokenize (" ".intercalate texts) keepComments
    respaced.tokens.map Token.kind = buffer.tokens.map Token.kind ∧
      ∀ index, respaced.text index = buffer.text index := by
  intro buffer texts respaced
  have hvalid : ∀ token ∈ plainTokens source, token.kind ≠ .invalid := fun token htoken =>
    valid token (Array.mem_toList_iff.mp
      (toList_tokens source false ▸ List.mem_append_left _ htoken))
  have hpieces : ∀ piece ∈ keptPieces source,
      piece.IsWritten ∧ ∀ keepComments, piece.isKept keepComments = true :=
    fun piece hpiece => isWritten_of_kept hpiece hvalid
  have hsize : buffer.size - 1 = (keptPieces source).length := by
    rw [TokenBuffer.size, ← Array.length_toList, toList_tokens, List.length_append,
      length_sourceTokens]
    rfl
  have htexts : texts.map String.toList = (keptPieces source).map Piece.text := by
    refine List.ext_getElem (by simp [texts, hsize]) fun index _ hindex => ?_
    rw [List.length_map] at hindex
    have htext := text_tokenize (List.getElem?_eq_getElem hindex)
    simp [texts, buffer, htext]
  have same : (pieces (" ".intercalate texts).toList).filter (Piece.isKept keepComments) =
      keptPieces source := by
    rw [String.toList_intercalate, htexts]
    exact (congrArg _ (pieces_intercalate fun piece hpiece => (hpieces piece hpiece).1)).trans
      (filter_intersperse fun piece hpiece => (hpieces piece hpiece).2 keepComments)
  refine ⟨?_, fun index => ?_⟩
  · rw [← Array.toList_inj, Array.toList_map, Array.toList_map, toList_tokens, toList_tokens,
      List.map_append, List.map_append, map_kind (covers_sourceTokens _ _),
      map_kind (covers_sourceTokens _ _), same]
    rfl
  · rw [text_eq_elim, text_eq_elim, same]
    rfl

/-- The numbers end in front of what might go on with them, and the string holds a comment. -/
theorem tokenize_respaced_adjacent :
    (∀ token ∈ (tokenize "a.b=-1.e5/*c*/\"\\\" //\"0x1F/.5" false).tokens,
      token.kind ≠ .invalid) ∧
      (tokenize "a . b = - 1.e5 \"\\\" //\" 0x1F / .5" true).tokens.map Token.kind =
        (tokenize "a.b=-1.e5/*c*/\"\\\" //\"0x1F/.5" false).tokens.map Token.kind := by
  have valid : ∀ token ∈ (tokenize "a.b=-1.e5/*c*/\"\\\" //\"0x1F/.5" false).tokens,
      token.kind ≠ .invalid := by decide +kernel
  obtain ⟨kinds, -⟩ := tokenize_respaced "a.b=-1.e5/*c*/\"\\\" //\"0x1F/.5" true valid
  have respaced : " ".intercalate ((List.range
      ((tokenize "a.b=-1.e5/*c*/\"\\\" //\"0x1F/.5" false).size - 1)).map
        (tokenize "a.b=-1.e5/*c*/\"\\\" //\"0x1F/.5" false).text) =
      "a . b = - 1.e5 \"\\\" //\" 0x1F / .5" := by decide +kernel
  rw [respaced] at kinds
  exact ⟨valid, kinds⟩

end ProtoFront
