import ProtoFront.Proofs.Parse.Order

/-!
# The parser at its position

The list of lexemes that the parser carries along stands for a cursor with a position in the whole
buffer, comments included. In every state that reads a buffer (`ParseState.Reads`) the parser sees
what such a cursor sees, and by reading a token it moves as the cursor does (`ParseState.Sees`).
-/

namespace ProtoFront

open ParseState

namespace TokenBuffer

variable {buffer : TokenBuffer} {rest : List Lexeme} {next : Lexeme} {position : Nat}

/-! ## Moving on -/

theorem advance_of_eof (h : buffer.kindAt position = .eof) : buffer.advance position = position :=
  if_pos h

theorem advance_of_ne_eof (h : buffer.kindAt position ≠ .eof) :
    buffer.advance position = buffer.skipComments (position + 1) :=
  if_neg h

/-- Looking ahead sees what the cursor would stand at. -/
theorem peek_succ (buffer : TokenBuffer) (position n : Nat) :
    buffer.peek position (n + 1) = buffer.peek (buffer.advance position) n := by
  by_cases ends : buffer.kindAt position = .eof
  · rw [peek, if_pos ends, advance_of_eof ends]
    cases n with
    | zero => exact ends.symm
    | succ n => rw [peek, if_pos ends]
  · rw [peek, if_neg ends, advance_of_ne_eof ends]

/-- What is passed over are comments. -/
theorem isComment_of_lt_skipComments {index : Nat} (hle : position ≤ index)
    (hlt : index < buffer.skipComments position) : (buffer.kindAt index).isComment = true := by
  fun_induction skipComments buffer position with
  | case1 position hcomment ih =>
    rcases Nat.lt_or_eq_of_le hle with hbehind | rfl
    · exact ih hbehind hlt
    · exact hcomment
  | case2 => exact absurd hlt (Nat.not_lt.mpr hle)

/-- If the input does not end in front of a position, then it does not in front of the next one. -/
theorem infront_advance (infront : ∀ index < position, buffer.kindAt index ≠ .eof) :
    ∀ index < buffer.advance position, buffer.kindAt index ≠ .eof := by
  by_cases ends : buffer.kindAt position = .eof
  · rwa [advance_of_eof ends]
  · rw [advance_of_ne_eof ends]
    intro index hindex
    rcases Nat.lt_trichotomy index position with hlt | rfl | hlt
    · exact infront index hlt
    · exact ends
    · exact kindAt_ne_eof_of_isComment (isComment_of_lt_skipComments hlt hindex)

/-- The input ends where there is an end marker for the first time. -/
theorem endIndex_eq (ends : buffer.kindAt position = .eof)
    (infront : ∀ index < position, buffer.kindAt index ≠ .eof) : buffer.endIndex = position := by
  rcases Nat.lt_trichotomy buffer.endIndex position with hlt | heq | hlt
  · exact absurd buffer.kindAt_endIndex (infront _ hlt)
  · exact heq
  · exact absurd ends (kindAt_ne_eof_of_lt (List.nil_suffix) hlt)

/-! ## What is left -/

/-- A cursor that runs from a position on stands there. -/
theorem position_lexemesFrom (infront : ∀ index < position, buffer.kindAt index ≠ .eof) :
    (buffer.cursorAt (buffer.lexemesFrom position)).position = position := by
  by_cases ends : buffer.kindAt position = .eof
  · rw [lexemesFrom_of_eof ends]
    exact endIndex_eq ends infront
  · rw [kindAt] at ends
    split at ends
    case h_1 token htoken => rw [lexemesFrom_of_token? htoken ends]; rfl
    case h_2 => exact absurd rfl ends

/-- What is left is what a cursor at the position of its first token runs through. -/
theorem lexemesFrom_cursorAt (h : rest <:+ buffer.significant) :
    buffer.lexemesFrom (buffer.cursorAt rest).position = rest := by
  have left {position : Nat} (suffix : rest <:+ buffer.lexemesFrom position) :
      buffer.lexemesFrom (buffer.cursorAt rest).position = rest := by
    fun_induction lexemesFrom buffer position with
    | case1 | case2 =>
      obtain rfl := List.suffix_nil.mp suffix
      exact lexemesFrom_of_eof buffer.kindAt_endIndex
    | case3 position token htoken there ih =>
      rcases List.suffix_cons_iff.mp suffix with rfl | hlater
      · exact lexemesFrom_of_token? htoken there
      · exact ih hlater
  exact left h

/-- Behind the first of the tokens that are left, a cursor stands where it goes next. -/
theorem position_tail (h : rest <:+ buffer.significant) :
    (buffer.cursorAt rest.tail).position = buffer.advance (buffer.cursorAt rest).position := by
  have infront : ∀ index < (buffer.cursorAt rest).position, buffer.kindAt index ≠ .eof :=
    fun index => kindAt_ne_eof_of_lt h
  have hleft := lexemesFrom_cursorAt h
  cases rest with
  | nil => exact (advance_of_eof buffer.kindAt_endIndex).symm
  | cons next more =>
    obtain ⟨token, htoken, there, -, -⟩ := mem_significant (h.subset List.mem_cons_self)
    have hmore := (lexemesFrom_of_token? htoken there).symm.trans hleft
    rw [List.tail_cons, ← (List.cons.inj hmore).2]
    exact position_lexemesFrom (infront_advance infront)

end TokenBuffer

/-! ## States -/

/-- A state sees a buffer through its position. What it knows of the next token and of the one
behind it is what the buffer holds there, it never stands at a comment, and a token that it reads
is the one at its position, from which it moves on to the next one. -/
structure ParseState.Sees (buffer : TokenBuffer) (s : ParseState) : Prop where
  kind : s.kind = buffer.kindAt s.position
  plain : buffer.skipComments s.position = s.position
  following : s.following = buffer.peek s.position 1
  word : ∀ word, s.atWord word = true ↔
    buffer.kindAt s.position = .identifier ∧ buffer.text s.position = word.spelling
  place : s.kind ≠ .eof → buffer.lineColumn? s.position =
    some (s.cursor.origin.line, s.cursor.origin.column)
  rest : s.cursor.rest = buffer.lexemesFrom s.position
  leaf : ∀ tag? failed, (s.addLeaf tag? failed).nodes =
    if buffer.kindAt s.position = .eof then s.nodes
    else s.nodes.push ⟨some s.position, 1, failed, tag?⟩
  moves : ∀ tag? failed, (s.addLeaf tag? failed).position = buffer.advance s.position

namespace ParseState.Reads

variable {buffer : TokenBuffer} {s : ParseState}

theorem kind_eq_kindAt (h : s.Reads buffer) : s.kind = buffer.kindAt s.position := by
  rw [h.kind_eq, h.position_eq, TokenBuffer.kindAt_cursorAt h.rest]

theorem position_addLeaf (h : s.Reads buffer) (tag? : Option NodeKind) (failed : Bool) :
    (s.addLeaf tag? failed).position = buffer.advance s.position := by
  rw [(h.addLeaf tag? failed).position_eq, ParseState.rest_addLeaf,
    TokenBuffer.position_tail h.rest, h.position_eq]

theorem sees (h : s.Reads buffer) : s.Sees buffer where
  kind := h.kind_eq_kindAt
  plain := by
    refine TokenBuffer.skipComments_of_plain ?_
    rw [← h.kind_eq_kindAt, h.kind_eq]
    exact TokenBuffer.isComment_cursorAt h.rest
  following := by
    -- what follows comes next once the next token has been read
    rw [TokenBuffer.peek_succ, ← h.position_addLeaf none false, TokenBuffer.peek,
      ← (h.addLeaf none false).kind_eq_kindAt, kind_addLeaf]
  word word := by
    rcases hrest : s.cursor.rest with _ | ⟨next, rest⟩
    · have ends : buffer.kindAt s.position = .eof := by
        rw [← h.kind_eq_kindAt, kind, Cursor.kind, hrest]
      rw [atWord, Cursor.word?, hrest, ends]
      simp
    · have hnext : next ∈ buffer.significant := h.rest.subset (by rw [hrest]; simp)
      have hposition : s.position = next.index := by rw [position, Cursor.position, hrest]
      rw [hposition, TokenBuffer.kindAt_index hnext, ← TokenBuffer.word?_eq_some hnext, atWord,
        Cursor.word?, hrest]
      exact beq_iff_eq
  place there := by
    rcases hrest : s.cursor.rest with _ | ⟨next, rest⟩
    · rw [kind, Cursor.kind, hrest] at there
      exact absurd rfl there
    · have hnext : next ∈ buffer.significant := h.rest.subset (by rw [hrest]; simp)
      obtain ⟨token, htoken, -, -, hlexeme⟩ := TokenBuffer.mem_significant hnext
      rw [position, Cursor.position, Cursor.origin, hrest, TokenBuffer.lineColumn?, htoken,
        hlexeme]
      rfl
  rest := by
    rw [h.position_eq, TokenBuffer.lexemesFrom_cursorAt h.rest]
  leaf tag? failed := by
    rw [← h.kind_eq_kindAt, kind, position, Cursor.kind, Cursor.position, ParseState.addLeaf]
    rcases hrest : s.cursor.rest with _ | ⟨next, rest⟩
    · rfl
    · exact (if_neg (TokenBuffer.kind_ne_eof (h.rest.subset (by rw [hrest]; simp)))).symm
  moves := h.position_addLeaf

end ParseState.Reads

/-- In every state that a parse of a buffer comes to, the parser sees the buffer. -/
theorem TokenBuffer.sees_run (buffer : TokenBuffer) (fragment : Fragment) (syncLimit steps : Nat) :
    ((initial buffer.cursor fragment syncLimit).run steps).Sees buffer := by
  have sound := buffer.sound_initial fragment syncLimit
  have reads : (initial buffer.cursor fragment syncLimit).Reads buffer :=
    ⟨List.suffix_refl _, rfl⟩
  exact (sound.run_keeps (·.Reads buffer) reads (fun _ sound reads => reads.step sound) steps).sees

end ProtoFront
