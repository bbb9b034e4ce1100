import ProtoFront.Proofs.Token.Places

/-!
# Nothing of a source is lost

The tokens of a source stand in it one behind the other, and all that is between them is blank. A
token knows where it stands: its line and its column are counted from the text in front of it, the
line table leads back to its first byte, and its text is read from there (`TokenBuffer.Spans`). Its
kind fits the text: where a kind has a spelling the text is that one, and an identifier is no
reserved word (`TokenKind.Fits`).

A buffer for which all this holds is `TokenBuffer.Lossless`. The buffer of a source is, if the
comments are kept (`lossless_tokenize`).
-/

namespace ProtoFront

/-! ## Comments left out -/

/-- A buffer with the comments left out. -/
def TokenBuffer.withoutComments (buffer : TokenBuffer) : TokenBuffer :=
  { buffer with tokens := buffer.tokens.filter fun token => !token.kind.isComment }

theorem Lexer.tokensFrom_withoutComments (place : Place) (pieces : List Piece) :
    tokensFrom false place pieces =
      (tokensFrom true place pieces).filter fun token => !token.kind.isComment := by
  induction pieces generalizing place with
  | nil => rfl
  | cons piece rest ih =>
    rw [tokensFrom, tokensFrom, ih]
    rcases piece.kind? with _ | kind
    · rfl
    · cases hcomment : kind.isComment <;> simp [hcomment]

theorem tokenize_withoutComments (source : String) :
    tokenize source false = (tokenize source true).withoutComments := by
  simp [tokenize, TokenBuffer.withoutComments, Lexer.tokensFrom_withoutComments, Lexer.endToken,
    TokenKind.isComment]

theorem tokens_tokenize_ne (source : String) (keepComments : Bool) :
    (tokenize source keepComments).tokens ≠ #[] := by
  simp [tokenize]

/-! ## Kinds and texts -/

namespace TokenKind

variable {kind : TokenKind} {text : String}

theorem mem_all (kind : TokenKind) : kind ∈ all := by
  cases kind with
  | opener pair => cases pair <;> decide
  | closer pair => cases pair <;> decide
  | keyword word => cases word <;> decide
  | scalar type => cases type <;> decide
  | _ => decide

/-- A token of the kind may be written so: as the kind is spelled, if it has a spelling, and not
like a reserved word if it is an identifier. -/
structure Fits (kind : TokenKind) (text : String) : Prop where
  spelled : ∀ spelling, kind.spelling? = some spelling → text = spelling
  free : kind = .identifier → ∀ reserved : TokenKind, reserved.isKeyword = true →
    reserved.spelling? ≠ some text

theorem Fits.of_spelling (h : kind.spelling? = some text) : kind.Fits text where
  spelled spelling hspelling := Option.some.inj (h.symm.trans hspelling)
  free hidentifier := by
    subst hidentifier
    cases h

/-- A kind that is written in many ways fits any text, unless it is an identifier. -/
theorem Fits.of_unspelled (h : kind.spelling? = none) (other : kind.isIdentifierLike = false) :
    kind.Fits text where
  spelled spelling hspelling := by
    rw [h] at hspelling
    cases hspelling
  free hidentifier := by
    subst hidentifier
    cases other

theorem Fits.of_isNumber (h : kind.isNumber = true) : kind.Fits text := by
  cases kind with
  | intLiteral | floatLiteral => exact .of_unspelled rfl rfl
  | _ => cases h

/-- A word is reserved if any reserved word is spelled like it. -/
theorem fits_ofWord (text : String) : (ofWord text).Fits text := by
  rw [ofWord]
  cases hfound : (all.filter isKeyword).find? fun kind => kind.spelling? == some text with
  | none =>
    refine ⟨fun spelling hspelling => ?_, fun _ reserved hreserved hspelling => ?_⟩
    · cases hspelling
    · have hother := List.find?_eq_none.mp hfound reserved
        (List.mem_filter.mpr ⟨mem_all reserved, hreserved⟩)
      exact hother (beq_iff_eq.mpr hspelling)
  | some kind =>
    have hspelling := List.find?_some hfound
    exact .of_spelling (beq_iff_eq.mp hspelling)

end TokenKind

namespace Lexer

variable {first quote c : Char} {cs before : List Char} {kind : TokenKind}

theorem isNumber_numberExtent : (numberExtent first cs).1.isNumber = true := by
  rw [numberExtent]
  split
  · rfl
  · dsimp only
    split
    · rfl
    · split <;> rfl

theorem fits_dotExtent :
    (dotExtent cs).1.Fits (String.ofList ('.' :: cs.take (dotExtent cs).2)) := by
  rw [dotExtent]
  split
  · exact .of_spelling rfl
  · exact .of_isNumber rfl

theorem fits_stringExtent {text : String} : (stringExtent quote cs).1.Fits text := by
  rw [stringExtent]
  split
  · exact .of_unspelled rfl rfl
  · exact .of_unspelled rfl rfl

theorem fits_slashExtent :
    (slashExtent cs).1.Fits (String.ofList ('/' :: cs.take (slashExtent cs).2)) := by
  rw [slashExtent.eq_def]
  split
  · exact .of_unspelled rfl rfl
  · split
    · exact .of_unspelled rfl rfl
    · exact .of_unspelled rfl rfl
  · exact .of_spelling rfl

theorem fits_punctuation : ((punctuation? c).getD .invalid).Fits (String.ofList [c]) := by
  rcases hfound : punctuation? c with _ | kind
  · exact .of_unspelled rfl rfl
  · have hspelling := List.find?_some hfound
    exact .of_spelling (beq_iff_eq.mp hspelling)

theorem fits_extent (h : (extent c cs).1 = some kind) :
    kind.Fits (String.ofList (c :: cs.take (extent c cs).2)) := by
  rw [extent] at h ⊢
  split at h
  · cases h
  next hblank =>
  rw [if_neg hblank]
  split at h
  next hword =>
    rw [if_pos hword]
    obtain rfl := Option.some.inj h
    exact TokenKind.fits_ofWord _
  next hword =>
  rw [if_neg hword]
  split at h
  next hdigit =>
    rw [if_pos hdigit]
    obtain rfl := Option.some.inj h
    exact .of_isNumber isNumber_numberExtent
  next hdigit =>
  rw [if_neg hdigit]
  split at h
  next hdot =>
    rw [if_pos hdot]
    obtain rfl := beq_iff_eq.mp hdot
    obtain rfl := Option.some.inj h
    exact fits_dotExtent
  next hdot =>
  rw [if_neg hdot]
  split at h
  next hquote =>
    rw [if_pos hquote]
    obtain rfl := Option.some.inj h
    exact fits_stringExtent
  next hquote =>
  rw [if_neg hquote]
  split at h
  next hslash =>
    rw [if_pos hslash]
    obtain rfl := beq_iff_eq.mp hslash
    obtain rfl := Option.some.inj h
    exact fits_slashExtent
  next hslash =>
    rw [if_neg hslash]
    obtain rfl := Option.some.inj h
    exact fits_punctuation

/-- What has no kind is one blank. -/
theorem isBlank_of_extent (h : (extent c cs).1 = none) :
    isBlank c = true ∧ (extent c cs).2 = 0 := by
  rw [extent] at h ⊢
  split at h
  next hblank =>
    rw [if_pos hblank]
    exact ⟨hblank, rfl⟩
  · repeat' split at h
    all_goals cases h

theorem isBlank_eq_false_of_extent (h : (extent c cs).1 = some kind) : isBlank c = false := by
  rw [extent] at h
  split at h
  · cases h
  next hblank => exact Bool.eq_false_iff.mpr hblank

/-- What the pieces of a source are: what has no kind is blank, what has one starts with something
else, and the kind fits the text. -/
structure Piece.Sound (piece : Piece) : Prop where
  blank : piece.kind? = none → ∀ c ∈ piece.text, isBlank c = true
  starts : piece.kind? ≠ none → ∃ c cs, piece.text = c :: cs ∧ isBlank c = false
  fits : ∀ kind, piece.kind? = some kind → kind ≠ .eof ∧ kind.Fits (String.ofList piece.text)

theorem sound_extent (c : Char) (cs : List Char) :
    Piece.Sound ⟨(extent c cs).1, c :: cs.take (extent c cs).2⟩ where
  blank hnone := by
    obtain ⟨hblank, hlength⟩ := isBlank_of_extent hnone
    simpa [hlength] using hblank
  starts hsome := by
    obtain ⟨kind, hkind⟩ := Option.ne_none_iff_exists'.mp hsome
    exact ⟨c, _, rfl, isBlank_eq_false_of_extent hkind⟩
  fits kind hkind := ⟨fun heof => extent_ne_eof (heof ▸ hkind), fits_extent hkind⟩

theorem sound_pieces {piece : Piece} (h : piece ∈ pieces cs) : piece.Sound := by
  induction cs using pieces.induct with
  | case1 =>
    rw [pieces] at h
    cases h
  | case2 c cs kind? n hextent ih =>
    rw [pieces_cons] at h
    rcases List.mem_cons.mp h with rfl | hlater
    · exact sound_extent c cs
    · rw [hextent] at hlater
      exact ih hlater

/-! ## Spots -/

/-- A piece that becomes a token, with all the text in front of it. -/
structure Spot where
  before : List Char
  kind : TokenKind
  text : List Char

/-- The token of a spot. -/
def Spot.token (spot : Spot) : Token :=
  ⟨spot.kind, spot.before.count '\n', byteLength (lastLine spot.before), byteLength spot.text⟩

/-- The pieces that become tokens, if the comments are kept and `before` is in front of them. -/
def spots (before : List Char) : List Piece → List Spot
  | [] => []
  | piece :: rest =>
    match piece.kind? with
    | none => spots (before ++ piece.text) rest
    | some kind => ⟨before, kind, piece.text⟩ :: spots (before ++ piece.text) rest

theorem tokensFrom_spots (before : List Char) (parts : List Piece) :
    tokensFrom true (before.foldl Place.next ⟨0, 0⟩) parts =
      (spots before parts).map Spot.token := by
  induction parts generalizing before with
  | nil => rfl
  | cons piece parts ih =>
    have later := ih (before ++ piece.text)
    rw [List.foldl_append] at later
    rw [tokensFrom, spots, later]
    rcases piece.kind? with _ | kind
    · rfl
    · simp [Spot.token, foldl_next]

/-- A spot is that of a piece, and what it covers lies in the text. -/
theorem mem_spots {spot : Spot} {parts : List Piece} (h : spot ∈ spots before parts) :
    ⟨some spot.kind, spot.text⟩ ∈ parts ∧ before <+: spot.before ∧
      spot.before ++ spot.text <+: before ++ (parts.map Piece.text).flatten := by
  induction parts generalizing before with
  | nil => cases h
  | cons piece parts ih =>
    rw [spots] at h
    rw [List.map_cons, List.flatten_cons, ← List.append_assoc]
    have later (hlater : spot ∈ spots (before ++ piece.text) parts) :
        ⟨some spot.kind, spot.text⟩ ∈ piece :: parts ∧ before <+: spot.before ∧
          spot.before ++ spot.text <+:
            before ++ piece.text ++ (parts.map Piece.text).flatten := by
      obtain ⟨hpiece, hbefore, hcovered⟩ := ih hlater
      exact ⟨List.mem_cons_of_mem _ hpiece, (List.prefix_append _ _).trans hbefore, hcovered⟩
    split at h
    · exact later h
    next kind hkind =>
      rcases List.mem_cons.mp h with rfl | hlater
      · exact ⟨hkind ▸ List.mem_cons_self, List.prefix_refl _, List.prefix_append _ _⟩
      · exact later hlater

/-- What an earlier spot covers is in front of a later one. -/
theorem pairwise_spots (before : List Char) (parts : List Piece) :
    (spots before parts).Pairwise fun earlier later =>
      earlier.before ++ earlier.text <+: later.before := by
  induction parts generalizing before with
  | nil => exact .nil
  | cons piece parts ih =>
    rw [spots]
    split
    · exact ih _
    · exact .cons (fun spot hspot => (mem_spots hspot).2.1) (ih _)

/-- What is not blank is covered by a spot. -/
theorem exists_spot (before : List Char) {parts : List Piece} {front after : List Char}
    (blank : ∀ piece ∈ parts, piece.kind? = none → ∀ c ∈ piece.text, isBlank c = true)
    (htext : (parts.map Piece.text).flatten = front ++ c :: after) (h : isBlank c = false) :
    ∃ spot ∈ spots before parts, spot.before <+: before ++ front ∧
      before ++ front ++ [c] <+: spot.before ++ spot.text := by
  induction parts generalizing before front with
  | nil => simp at htext
  | cons piece parts ih =>
    have blank' : ∀ piece ∈ parts, piece.kind? = none → ∀ c ∈ piece.text, isBlank c = true :=
      fun piece hpiece => blank piece (List.mem_cons_of_mem _ hpiece)
    have later (rest : List Char) (hfront : front = piece.text ++ rest)
        (hrest : (parts.map Piece.text).flatten = rest ++ c :: after) :
        ∃ spot ∈ spots before (piece :: parts), spot.before <+: before ++ front ∧
          before ++ front ++ [c] <+: spot.before ++ spot.text := by
      obtain ⟨spot, hspot, hcovers⟩ := ih (before ++ piece.text) blank' hrest
      rw [List.append_assoc before, ← hfront] at hcovers
      refine ⟨spot, ?_, hcovers⟩
      rw [spots]
      split
      · exact hspot
      · exact List.mem_cons_of_mem _ hspot
    rw [List.map_cons, List.flatten_cons, List.append_eq_append_iff] at htext
    obtain ⟨rest, hfront, hrest⟩ | ⟨rest, hpiece, hrest⟩ := htext
    · exact later rest hfront hrest
    · rcases rest with _ | ⟨d, rest⟩
      · exact later [] (by simpa using hpiece.symm) hrest.symm
      · -- the character is in this piece, which is not blank
        obtain ⟨rfl, -⟩ := List.cons.inj hrest
        have hmem : c ∈ piece.text := by simp [hpiece]
        rw [spots]
        split
        next hnone =>
          rw [blank piece List.mem_cons_self hnone c hmem] at h
          cases h
        · refine ⟨_, List.mem_cons_self, List.prefix_append _ _, rest, ?_⟩
          simp [hpiece]

/-- The spots of a source. -/
def sourceSpots (source : String) : List Spot := spots [] (pieces source.toList)

theorem toList_tokens_spots (source : String) : (tokenize source true).tokens.toList =
    (sourceSpots source).map Spot.token ++ [endToken (linesFrom 0 source.toList)] := by
  rw [sourceSpots, ← tokensFrom_spots]
  rfl

end Lexer

/-! ## Buffers -/

namespace TokenBuffer

/-- The token at `index` has `before` in front of it and covers `text`, and all that the buffer says
about it agrees with that. -/
structure Spans (buffer : TokenBuffer) (index : Nat) (before text : List Char) : Prop where
  within : before ++ text <+: buffer.source.toList
  place : buffer.lineColumn? index =
    some (before.count '\n', byteLength (before.rtakeWhile (· != '\n')))
  offset : buffer.offset? index = some (byteLength before)
  span : buffer.span index = (byteLength before, byteLength before + byteLength text)
  text : buffer.text index = String.ofList text

/-- A buffer with all that is in its source: each token stands at its place and is written as its
kind wants it, no two of them overlap, only blanks are left between them, and there is one end
marker, behind the last line. -/
structure Lossless (buffer : TokenBuffer) : Prop where
  spans : ∀ index < buffer.size, ∃ before text, buffer.Spans index before text ∧
    (buffer.kindAt index).Fits (String.ofList text) ∧
    (text = [] ↔ buffer.kindAt index = .eof)
  ordered : ∀ i j, i < j → buffer.kindAt j ≠ .eof → (buffer.span i).2 ≤ (buffer.span j).1
  covered : ∀ before c after, buffer.source.toList = before ++ c :: after →
    c ∉ [' ', '\t', '\r', '\n', '\x0c'] →
    ∃ index, buffer.kindAt index ≠ .eof ∧ (buffer.span index).1 ≤ byteLength before ∧
      byteLength before + c.utf8Size ≤ (buffer.span index).2
  ended : 0 < buffer.size ∧ ∀ index < buffer.size,
    buffer.kindAt index = .eof ↔ index + 1 = buffer.size
  ending : ∃ before, buffer.Spans (buffer.size - 1) before [] ∧
    (buffer.source.toList = before ∨ buffer.source.toList = before ++ ['\r'])

end TokenBuffer

namespace Lexer

variable {source : String} {spot : Spot} {index : Nat}

/-- A token that is counted from the text in front of it spans what it covers. -/
theorem spans_of_place {buffer : TokenBuffer} {token : Token} {before text : List Char}
    (lines : buffer.lines.toList = linesFrom 0 buffer.source.toList)
    (htoken : buffer.token? index = some token)
    (hplace : before.foldl Place.next ⟨0, 0⟩ = ⟨token.line, token.column⟩)
    (hlength : token.length = byteLength text)
    (within : before ++ text <+: buffer.source.toList) : buffer.Spans index before text := by
  obtain ⟨after, hsource⟩ := within
  have hoffset := TokenBuffer.offset?_of_covers lines htoken
    (by rw [← hsource, List.append_assoc]) hplace
  refine ⟨⟨after, hsource⟩, ?_, hoffset, ?_, ?_⟩
  · rw [foldl_next, Place.mk.injEq] at hplace
    rw [TokenBuffer.lineColumn?, htoken, Option.map_some, ← hplace.1, ← hplace.2]
    rfl
  · rw [TokenBuffer.span, htoken, hoffset]
    dsimp only
    rw [hlength]
  · have hcovers : Covers buffer.source.toList token ⟨some token.kind, text⟩ :=
      ⟨rfl, hlength, before, after, hsource.symm, hplace⟩
    exact TokenBuffer.text_of_covers lines htoken hcovers

theorem token?_spot (h : (sourceSpots source)[index]? = some spot) :
    (tokenize source true).token? index = some spot.token := by
  rw [TokenBuffer.token?, ← Array.getElem?_toList, toList_tokens_spots, List.getElem?_append_left,
    List.getElem?_map, h, Option.map_some]
  rw [List.length_map]
  exact (List.getElem?_eq_some_iff.mp h).1

theorem kindAt_spot (h : (sourceSpots source)[index]? = some spot) :
    (tokenize source true).kindAt index = spot.kind := by
  rw [TokenBuffer.kindAt, token?_spot h]
  rfl

theorem sound_spot (h : (sourceSpots source)[index]? = some spot) :
    Piece.Sound ⟨some spot.kind, spot.text⟩ :=
  sound_pieces (mem_spots (List.mem_of_getElem? h)).1

theorem text_spot (h : (sourceSpots source)[index]? = some spot) :
    ∃ c cs, spot.text = c :: cs ∧ isBlank c = false :=
  (sound_spot h).starts nofun

theorem spans_spot (h : (sourceSpots source)[index]? = some spot) :
    (tokenize source true).Spans index spot.before spot.text := by
  have within := (mem_spots (List.mem_of_getElem? h)).2.2
  rw [flatten_pieces] at within
  exact spans_of_place rfl (token?_spot h) (foldl_next _) rfl within

theorem token?_end (source : String) : (tokenize source true).token? (sourceSpots source).length =
    some (endToken (linesFrom 0 source.toList)) := by
  rw [TokenBuffer.token?, ← Array.getElem?_toList, toList_tokens_spots,
    List.getElem?_append_right (by rw [List.length_map])]
  simp

theorem kindAt_end (source : String) :
    (tokenize source true).kindAt (sourceSpots source).length = .eof := by
  rw [TokenBuffer.kindAt, token?_end]
  rfl

theorem size_tokenize (source : String) :
    (tokenize source true).size = (sourceSpots source).length + 1 := by
  rw [TokenBuffer.size, ← Array.length_toList, toList_tokens_spots]
  simp

/-- Behind all spots there is the end marker, and nothing behind that. -/
theorem exists_spot_of_kindAt (h : (tokenize source true).kindAt index ≠ .eof) :
    ∃ spot, (sourceSpots source)[index]? = some spot := by
  by_contra hnone
  rw [← Option.isSome_iff_exists, Option.not_isSome_iff_eq_none, List.getElem?_eq_none_iff] at hnone
  rcases Nat.eq_or_lt_of_le hnone with rfl | hbehind
  · exact h (kindAt_end source)
  · refine h ?_
    rw [TokenBuffer.kindAt, TokenBuffer.token?, Array.getElem?_eq_none]
    have hsize := size_tokenize source
    rw [TokenBuffer.size] at hsize
    omega

/-- The last line is the one at which the text ends. -/
theorem getLast?_linesFrom (cs : List Char) (start : Nat) :
    ((linesFrom start cs).getLast?.map Line.length) = some (lineLength (lastLine cs)) := by
  obtain ⟨line, hline, -, hlength⟩ := line_of_place cs [] start
  rw [List.append_nil] at hline
  rw [List.getLast?_eq_getElem?, length_linesFrom, Nat.add_sub_cancel, hline, Option.map_some,
    hlength, List.takeWhile_nil, List.append_nil]

/-- The place of the end marker is behind the last line, without one carriage return. -/
theorem place_endToken (cs : List Char) : ∃ before, (cs = before ∨ cs = before ++ ['\r']) ∧
    before.foldl Place.next ⟨0, 0⟩ =
      ⟨(endToken (linesFrom 0 cs)).line, (endToken (linesFrom 0 cs)).column⟩ := by
  have hend : endToken (linesFrom 0 cs) =
      ⟨.eof, cs.count '\n', lineLength (lastLine cs), 0⟩ := by
    rw [endToken, getLast?_linesFrom, length_linesFrom]
    rfl
  rw [hend]
  rcases List.eq_nil_or_concat' cs with rfl | ⟨front, c, rfl⟩
  · exact ⟨[], .inl rfl, rfl⟩
  · by_cases hreturn : c = '\r'
    · subst hreturn
      have hbyte : Char.utf8Size '\r' = 1 := rfl
      exact ⟨front, .inr rfl, by simp [foldl_next, lineLength, lastLine, hbyte]⟩
    · refine ⟨front ++ [c], .inl rfl, ?_⟩
      by_cases hbreak : c = '\n' <;>
        simp [foldl_next, lineLength, lastLine, Place.next, hreturn, hbreak]

/-- Every token starts on its line, or right behind it. -/
theorem exists_line_of_mem_tokens {keepComments : Bool} {token : Token}
    (h : token ∈ (tokenize source keepComments).tokens) :
    ∃ line, (tokenize source keepComments).lines[token.line]? = some line ∧
      token.column ≤ line.length := by
  have kept : token ∈ (tokenize source true).tokens := by
    cases keepComments with
    | true => exact h
    | false =>
      rw [tokenize_withoutComments, TokenBuffer.withoutComments] at h
      exact (Array.mem_filter.mp h).1
  change ∃ line, (linesFrom 0 source.toList).toArray[token.line]? = some line ∧ _
  rw [← Array.mem_toList_iff, toList_tokens_spots, List.mem_append, List.mem_map,
    List.mem_singleton] at kept
  rw [List.getElem?_toArray]
  obtain ⟨spot, hspot, rfl⟩ | rfl := kept
  · obtain ⟨index, hindex⟩ := List.mem_iff_getElem?.mp hspot
    obtain ⟨c, cs, htext, hblank⟩ := text_spot hindex
    obtain ⟨after, hsource⟩ := (spans_spot hindex).within
    obtain ⟨line, hline, -, hlength⟩ := line_of_place spot.before (spot.text ++ after) 0
    rw [← List.append_assoc, hsource] at hline
    refine ⟨line, hline, ?_⟩
    -- the token starts with a byte of its line, so a carriage return can be left out
    have hbreak : c ≠ '\n' := by
      rintro rfl
      cases hblank
    have hbytes := Char.utf8Size_pos c
    rw [hlength, htext, List.cons_append, List.takeWhile_cons, if_pos (bne_iff_ne.mpr hbreak),
      lineLength, byteLength_append, byteLength_cons]
    change byteLength (lastLine spot.before) ≤ _
    split <;> omega
  · have hlast := getLast?_linesFrom source.toList 0
    obtain ⟨line, hline, hlength⟩ := Option.map_eq_some_iff.mp hlast
    refine ⟨line, ?_, ?_⟩
    · rw [endToken, ← List.getLast?_eq_getElem?, hline]
    · rw [endToken, hline]
      exact Nat.le_refl _

theorem spans_end (source : String) :
    ∃ before, (tokenize source true).Spans (sourceSpots source).length before [] ∧
      (source.toList = before ∨ source.toList = before ++ ['\r']) := by
  obtain ⟨before, hsource, hplace⟩ := place_endToken source.toList
  have within : before ++ [] <+: source.toList := by
    rw [List.append_nil]
    rcases hsource with h | h
    · exact h ▸ List.prefix_refl before
    · exact ⟨['\r'], h.symm⟩
  exact ⟨before, spans_of_place rfl (token?_end source) hplace rfl within, hsource⟩

/-- Every token spans a text that its kind allows, and only the end marker spans none. -/
theorem exists_spans (h : index < (tokenize source true).size) :
    ∃ before text, (tokenize source true).Spans index before text ∧
      ((tokenize source true).kindAt index).Fits (String.ofList text) ∧
      (text = [] ↔ (tokenize source true).kindAt index = .eof) := by
  rcases hspot : (sourceSpots source)[index]? with _ | spot
  · -- behind the spots there is only the end marker
    have hbehind := List.getElem?_eq_none_iff.mp hspot
    have hsize := size_tokenize source
    obtain rfl : index = (sourceSpots source).length := by omega
    obtain ⟨before, spans, -⟩ := spans_end source
    refine ⟨before, [], spans, ?_, ?_⟩
    · rw [kindAt_end]
      exact .of_unspelled rfl rfl
    · rw [kindAt_end]
      exact iff_of_true rfl rfl
  · obtain ⟨hkind, hfits⟩ := (sound_spot hspot).fits spot.kind rfl
    refine ⟨spot.before, spot.text, spans_spot hspot, ?_, ?_⟩
    · rw [kindAt_spot hspot]
      exact hfits
    · obtain ⟨c, cs, htext, -⟩ := text_spot hspot
      rw [kindAt_spot hspot, htext]
      exact iff_of_false (List.cons_ne_nil c cs) hkind

theorem span_le_span {later : Nat} (hlt : index < later)
    (h : (tokenize source true).kindAt later ≠ .eof) :
    ((tokenize source true).span index).2 ≤ ((tokenize source true).span later).1 := by
  obtain ⟨spot, hspot⟩ := exists_spot_of_kindAt h
  obtain ⟨hlength, rfl⟩ := List.getElem?_eq_some_iff.mp hspot
  have hearlier := List.getElem?_eq_getElem (Nat.lt_trans hlt hlength)
  obtain ⟨between, hbetween⟩ := List.pairwise_iff_getElem.mp
    (pairwise_spots [] (pieces source.toList)) index later (Nat.lt_trans hlt hlength) hlength hlt
  have hbytes := congrArg byteLength hbetween
  rw [byteLength_append, byteLength_append] at hbytes
  rw [(spans_spot hearlier).span, (spans_spot hspot).span]
  exact Nat.le_of_add_right_le hbytes.le

/-- What is not blank lies in the span of a token. -/
theorem exists_span_of_not_blank {after : List Char}
    (hsource : source.toList = before ++ c :: after) (h : isBlank c = false) :
    ∃ index, (tokenize source true).kindAt index ≠ .eof ∧
      ((tokenize source true).span index).1 ≤ byteLength before ∧
      byteLength before + c.utf8Size ≤ ((tokenize source true).span index).2 := by
  obtain ⟨spot, hspot, ⟨front, hfront⟩, ⟨back, hback⟩⟩ := exists_spot []
    (fun piece hpiece => (sound_pieces hpiece).blank)
    ((flatten_pieces source.toList).trans hsource) h
  obtain ⟨index, hindex⟩ := List.mem_iff_getElem?.mp hspot
  have hstart := congrArg byteLength hfront
  have hstop := congrArg byteLength hback
  simp only [byteLength_append, byteLength_cons, byteLength_nil] at hstart hstop
  refine ⟨index, ?_, ?_⟩
  · rw [kindAt_spot hindex]
    exact ((sound_spot hindex).fits spot.kind rfl).1
  · rw [(spans_spot hindex).span]
    dsimp only
    omega

theorem kindAt_tokenize_eq_eof_iff (h : index < (tokenize source true).size) :
    (tokenize source true).kindAt index = .eof ↔ index + 1 = (tokenize source true).size := by
  rw [size_tokenize] at h ⊢
  constructor
  · intro heof
    by_contra hfront
    have hlength : index < (sourceSpots source).length := by omega
    have hspot := List.getElem?_eq_getElem hlength
    rw [kindAt_spot hspot] at heof
    exact ((sound_spot hspot).fits _ rfl).1 heof
  · intro hlast
    obtain rfl := Nat.succ.inj hlast
    exact kindAt_end source

end Lexer

open Lexer

/-- The tokens of a source hold all of it, if the comments are kept: they stand at their places, in
order and apart from each other, with the texts that their kinds want, and only blanks are between
them. If the comments are not kept, they are left out and nothing else changes. -/
theorem lossless_tokenize (source : String) :
    (tokenize source true).source = source ∧ (tokenize source true).Lossless ∧
      tokenize source false = { tokenize source true with
        tokens := (tokenize source true).tokens.filter fun token => !token.kind.isComment } := by
  have hsize := size_tokenize source
  refine ⟨rfl, ?_, tokenize_withoutComments source⟩
  exact {
    spans := fun index hindex => exists_spans hindex
    ordered := fun i j hij hj => span_le_span hij hj
    covered := fun before c after hsource hc =>
      exists_span_of_not_blank hsource (by simpa [isBlank, and_assoc] using hc)
    ended := ⟨by omega, fun index hindex => kindAt_tokenize_eq_eof_iff hindex⟩
    ending := by
      rw [hsize, Nat.add_sub_cancel]
      exact spans_end source }

end ProtoFront
