import Mathlib.Data.List.Infix
import ProtoFront.Proofs.Likeness.Buffers
import ProtoFront.Proofs.Token.Lossless

/-!
# Where reports are made

A report is about the token in front of which the parser stands, or about the end of the input if
no token is left. Since the parser never goes back, what it has reported comes in the order of the
buffer, and all of it is in front of the next token, or about it (`ParseState.Ordered`).
-/

namespace ProtoFront

open ParseState

variable {buffer : TokenBuffer} {entry now : Pending} {s t final : ParseState} {before : Nat}

/-! ## The places of a cursor -/

namespace TokenBuffer

variable {rest more : List Lexeme}

/-- The cursor in front of a rest of the input. -/
def cursorAt (buffer : TokenBuffer) (rest : List Lexeme) : Cursor := ⟨rest, buffer.endIndex⟩

/-- The numbers of the lexemes that are left, and of the end, come in order. -/
theorem pairwise_rest (h : rest <:+ buffer.significant) :
    (rest.map Lexeme.index ++ [buffer.endIndex]).Pairwise (· < ·) := by
  obtain ⟨front, hfront⟩ := h
  have ordered := buffer.ordered_cursor
  rw [show buffer.cursor.rest = front ++ rest from hfront.symm, List.map_append,
    List.append_assoc] at ordered
  exact (List.pairwise_append.mp ordered).2.1

theorem position_cursorAt (rest : List Lexeme) : (buffer.cursorAt rest).position =
    (rest.map Lexeme.index ++ [buffer.endIndex]).head (by simp) := by
  cases rest <;> rfl

/-- Behind a token that has been read, the parser stands further down. -/
theorem position_lt (h : more <:+ rest) (hrest : rest <:+ buffer.significant)
    (read : more.length < rest.length) :
    (buffer.cursorAt rest).position < (buffer.cursorAt more).position := by
  obtain ⟨front, rfl⟩ := h
  rcases front with _ | ⟨next, front⟩
  · exact absurd read (Nat.lt_irrefl _)
  · have ordered := pairwise_rest hrest
    rw [List.cons_append, List.map_cons, List.cons_append, List.pairwise_cons] at ordered
    refine ordered.1 _ ?_
    rw [position_cursorAt, List.map_append, List.append_assoc]
    exact List.mem_append_right _ (List.head_mem _)

theorem position_le (h : more <:+ rest) (hrest : rest <:+ buffer.significant) :
    (buffer.cursorAt rest).position ≤ (buffer.cursorAt more).position := by
  rcases Nat.lt_or_eq_of_le h.length_le with hlt | heq
  · exact Nat.le_of_lt (position_lt h hrest hlt)
  · rw [h.eq_of_length heq]

/-- The cursor knows the kind of the token at its place. -/
theorem kindAt_cursorAt (h : rest <:+ buffer.significant) :
    buffer.kindAt (buffer.cursorAt rest).position = (buffer.cursorAt rest).kind := by
  cases rest with
  | nil => exact buffer.kindAt_endIndex
  | cons next rest => exact kindAt_index (h.subset List.mem_cons_self)

theorem isComment_cursorAt (h : rest <:+ buffer.significant) :
    (buffer.cursorAt rest).kind.isComment = false := by
  cases rest with
  | nil => rfl
  | cons next rest =>
    obtain ⟨token, -, -, hcomment, hnext⟩ := mem_significant (h.subset List.mem_cons_self)
    change next.kind.isComment = false
    rw [hnext]
    exact hcomment

/-- In front of a place of the cursor the input does not end. -/
theorem kindAt_ne_eof_of_lt (h : rest <:+ buffer.significant) {index : Nat}
    (hindex : index < (buffer.cursorAt rest).position) : buffer.kindAt index ≠ .eof := by
  cases rest with
  | nil =>
    have hlt : index < buffer.endIndex := hindex
    have hlength := Nat.lt_of_lt_of_le hlt List.findIdx_le_length
    have hnot := List.not_of_lt_findIdx hlt
    rw [kindAt, token?, ← Array.getElem?_toList, List.getElem?_eq_getElem hlength]
    simpa using hnot
  | cons next rest =>
    have hmem : next.index ∈ buffer.significantIndices := by
      rw [← buffer.map_index_significant]
      exact List.mem_map_of_mem (h.subset List.mem_cons_self)
    exact (mem_significantIndices.mp hmem).1 index (Nat.le_of_lt hindex)

end TokenBuffer

/-! ## Reports in order -/

namespace ParseState

theorem Reads.cursor_eq (h : s.Reads buffer) : s.cursor = buffer.cursorAt s.cursor.rest := by
  rw [TokenBuffer.cursorAt, ← h.endIndex]

theorem Reads.position_eq (h : s.Reads buffer) :
    s.position = (buffer.cursorAt s.cursor.rest).position := by
  rw [position, h.cursor_eq]
  rfl

theorem Reads.kind_eq (h : s.Reads buffer) : s.kind = (buffer.cursorAt s.cursor.rest).kind := by
  rw [kind, h.cursor_eq]
  rfl

/-- Everything that has been reported was reported in front of a rest of the input that has not
been taken up again, and in order. -/
structure Ordered (buffer : TokenBuffer) (s : ParseState) : Prop where
  made : ∀ diagnostic ∈ s.diagnostics, ∃ rest, rest <:+ buffer.significant ∧
    s.cursor.rest <:+ rest ∧ diagnostic.token = (buffer.cursorAt rest).position ∧
    diagnostic.found = (buffer.cursorAt rest).kind
  ordered : s.diagnostics.toList.Pairwise fun earlier later => earlier.token ≤ later.token

namespace Ordered

/-- What has been reported is not behind the next token. -/
theorem token_le (h : s.Ordered buffer) (reads : s.Reads buffer) {diagnostic : Diagnostic}
    (reported : diagnostic ∈ s.diagnostics) : diagnostic.token ≤ s.position := by
  obtain ⟨rest, hrest, hsuffix, htoken, -⟩ := h.made diagnostic reported
  rw [htoken, reads.position_eq]
  exact TokenBuffer.position_le hsuffix hrest

/-- Reading on changes nothing of what has been reported. -/
theorem mono (h : s.Ordered buffer) (rest : t.cursor.rest <:+ s.cursor.rest)
    (diagnostics : t.diagnostics = s.diagnostics) : t.Ordered buffer := by
  refine ⟨fun diagnostic reported => ?_, by rw [diagnostics]; exact h.ordered⟩
  rw [diagnostics] at reported
  obtain ⟨whole, hwhole, hsuffix, about⟩ := h.made diagnostic reported
  exact ⟨whole, hwhole, rest.trans hsuffix, about⟩

theorem addLeaf (h : s.Ordered buffer) (tag? : Option NodeKind) (failed : Bool) :
    (s.addLeaf tag? failed).Ordered buffer :=
  h.mono (by rw [rest_addLeaf]; exact List.tail_suffix _) (s.diagnostics_addLeaf tag? failed)

/-- A report is about the next token, which is not in front of those that have been reported. -/
theorem report (h : s.Ordered buffer) (reads : s.Reads buffer) (expected : List Expectation) :
    (s.report expected).Ordered buffer := by
  refine ⟨fun diagnostic reported => ?_, ?_⟩
  · rcases Array.mem_push.mp reported with hearlier | rfl
    · exact h.made diagnostic hearlier
    · exact ⟨s.cursor.rest, reads.rest, List.suffix_refl _, reads.position_eq, reads.kind_eq⟩
  · change (s.diagnostics.push _).toList.Pairwise _
    rw [Array.toList_push, List.pairwise_append]
    refine ⟨h.ordered, List.pairwise_singleton _ _, fun earlier hearlier later hlater => ?_⟩
    obtain rfl := List.mem_singleton.mp hlater
    exact h.token_le reads (Array.mem_toList_iff.mp hearlier)

end Ordered

end ParseState

theorem Moves.reads (h : Moves entry s now t) (reads : s.Reads buffer) : t.Reads buffer :=
  ⟨h.rest_suffix.trans reads.rest, h.endIndex_eq.trans reads.endIndex⟩

theorem Moves.ordered (h : Moves entry s now t) (reads : s.Reads buffer)
    (hs : s.Ordered buffer) : t.Ordered buffer := by
  induction h with
  | start => exact hs
  | leaf tag? _ _ _ ih => exact (ih reads hs).addLeaf tag? false
  | discard _ _ _ ih => exact (ih reads hs).addLeaf none true
  | report expected moves ih => exact (ih reads hs).report (moves.reads reads) expected
  | breaks _ _ ih => exact ih reads hs
  | resync start _ _ ih => exact (ih reads hs).mono (List.suffix_refl _) rfl
  | range moves _ _ _ _ ih ih' =>
    exact (ih' (moves.reads reads) (ih reads hs)).mono (List.suffix_refl _) rfl

theorem Ends.rest_suffix (h : Ends before now t final) :
    final.cursor.rest <:+ t.cursor.rest := by
  rcases h.cursor_eq with hcursor | hcursor
  · exact hcursor ▸ List.suffix_refl _
  · rw [hcursor]
    exact List.tail_suffix _

theorem ParseState.Ordered.step (h : s.Ordered buffer) (sound : Sound s) (reads : s.Reads buffer) :
    s.step.Ordered buffer := by
  by_cases running : s.pending = []
  · rwa [ParseState.step, running]
  · obtain ⟨top, u, -, -, -, rfl, now, t, moves, ends⟩ := sound.handled running
    have hu : u.Ordered buffer := ⟨h.made, h.ordered⟩
    exact (moves.ordered ⟨reads.rest, reads.endIndex⟩ hu).mono ends.rest_suffix ends.diagnostics_eq

theorem TokenBuffer.ordered_run (buffer : TokenBuffer) (fragment : Fragment) (syncLimit : Nat)
    (fuel : Nat) : ((initial buffer.cursor fragment syncLimit).run fuel).Ordered buffer := by
  have start : (initial buffer.cursor fragment syncLimit).Ordered buffer :=
    ⟨fun diagnostic hnone => absurd hnone (Array.not_mem_empty diagnostic), .nil⟩
  exact (buffer.sound_initial fragment syncLimit).run_keeps_reading (Ordered buffer)
    ⟨List.suffix_refl _, rfl⟩ start (fun _ sound reads ordered => ordered.step sound reads) fuel

/-! ## Places in a source -/

/-- In a source nothing is behind the first end marker. -/
theorem token?_tokenize_of_within {source : String} {keepComments : Bool} {index : Nat}
    (within : ∀ other < index, (tokenize source keepComments).kindAt other ≠ .eof) :
    ∃ token, (tokenize source keepComments).token? index = some token := by
  have tokens : (tokenize source keepComments).tokens.toList =
      Lexer.tokensFrom keepComments ⟨0, 0⟩ (Lexer.pieces source.toList) ++
        [Lexer.endToken (Lexer.linesFrom 0 source.toList)] := rfl
  generalize Lexer.tokensFrom keepComments ⟨0, 0⟩ (Lexer.pieces source.toList) = front at tokens
  have ended : (tokenize source keepComments).kindAt front.length = .eof := by
    rw [TokenBuffer.kindAt, TokenBuffer.token?, ← Array.getElem?_toList, tokens,
      List.getElem?_concat_length]
    rfl
  have hindex : index < (front ++ [Lexer.endToken (Lexer.linesFrom 0 source.toList)]).length := by
    rw [List.length_append, List.length_singleton]
    exact Nat.lt_succ_of_le (Nat.not_lt.mp fun hlt => within front.length hlt ended)
  rw [TokenBuffer.token?, ← Array.getElem?_toList, tokens]
  exact ⟨_, List.getElem?_eq_getElem hindex⟩

/-- The place of a report in a source is on a line of the line table, or right behind it. -/
theorem Diagnostic.location_tokenize {source : String} {keepComments : Bool}
    {diagnostic : Diagnostic} (within : ∀ index < diagnostic.token,
      (tokenize source keepComments).kindAt index ≠ .eof) :
    ∃ line number column, (tokenize source keepComments).lines[number]? = some line ∧
      column ≤ line.length ∧
      diagnostic.location (tokenize source keepComments) = (number + 1, column + 1) := by
  obtain ⟨token, htoken⟩ := token?_tokenize_of_within within
  obtain ⟨line, hline, hcolumn⟩ := Lexer.exists_line_of_mem_tokens (Array.mem_of_getElem? htoken)
  refine ⟨line, token.line, token.column, hline, hcolumn, ?_⟩
  rw [location, TokenBuffer.lineColumn?, htoken]
  rfl

/-- What a parse reports comes in the order of the buffer. Each report names the kind of the token
that it is about, which is no comment and not behind the first end marker; where the buffer has no
end marker, the end of the input is behind its last token. In the buffer of a source the place of a
report is on a line, from its first column to the one right behind its last. -/
theorem diagnostics_in_order (buffer : TokenBuffer) (fragment : Fragment) (syncLimit : Nat)
    (nonempty : buffer.tokens ≠ #[]) :
    ∃ parsed, buffer.parse fragment syncLimit = .ok parsed ∧
      parsed.diagnostics.Pairwise (fun earlier later => earlier.token ≤ later.token) ∧
      ∀ diagnostic ∈ parsed.diagnostics,
        diagnostic.found = buffer.kindAt diagnostic.token ∧
        diagnostic.found.isComment = false ∧
        (∀ index < diagnostic.token, buffer.kindAt index ≠ .eof) ∧
        ∀ source keepComments, buffer = tokenize source keepComments →
          ∃ line, buffer.lines[(diagnostic.location buffer).1 - 1]? = some line ∧
            1 ≤ (diagnostic.location buffer).1 ∧ 1 ≤ (diagnostic.location buffer).2 ∧
            (diagnostic.location buffer).2 ≤ line.length + 1 := by
  have ordered := buffer.ordered_run fragment syncLimit (stepBound buffer.cursor.rest.length)
  refine ⟨_, buffer.parse_eq_ok fragment syncLimit nonempty, ordered.ordered, ?_⟩
  intro diagnostic reported
  obtain ⟨rest, hrest, -, htoken, hfound⟩ :=
    ordered.made diagnostic (Array.mem_toList_iff.mp reported)
  have within : ∀ index < diagnostic.token, buffer.kindAt index ≠ .eof := fun index hindex =>
    TokenBuffer.kindAt_ne_eof_of_lt hrest (htoken ▸ hindex)
  refine ⟨?_, ?_, within, ?_⟩
  · rw [hfound, htoken, TokenBuffer.kindAt_cursorAt hrest]
  · rw [hfound]
    exact TokenBuffer.isComment_cursorAt hrest
  · rintro source keepComments rfl
    obtain ⟨line, number, column, hline, hcolumn, hlocation⟩ :=
      Diagnostic.location_tokenize within
    rw [hlocation]
    exact ⟨line, hline, Nat.le_add_left _ _, Nat.le_add_left _ _, Nat.succ_le_succ hcolumn⟩

/-- Two statements of a message are broken, on two lines. -/
theorem diagnostics_in_order_brokenLines :
    let buffer := tokenize "message A \x7b 1;\n 2; \x7d" false
    buffer.tokens ≠ #[] ∧ ∃ parsed, buffer.parse .file 0 = .ok parsed ∧
      parsed.diagnostics.map (fun diagnostic => (diagnostic.found, diagnostic.token)) =
        [(.intLiteral, 3), (.intLiteral, 5)] ∧
      parsed.diagnostics.map (·.location buffer) = [(1, 13), (2, 2)] ∧
      parsed.diagnostics.Pairwise (fun earlier later => earlier.token ≤ later.token) ∧
      ∀ diagnostic ∈ parsed.diagnostics, diagnostic.found = buffer.kindAt diagnostic.token ∧
        ∃ line, buffer.lines[(diagnostic.location buffer).1 - 1]? = some line ∧
          (diagnostic.location buffer).2 ≤ line.length + 1 := by
  intro buffer
  have nonempty : buffer.tokens ≠ #[] := tokens_tokenize_ne _ false
  obtain ⟨parsed, hparsed, ordered, about⟩ := diagnostics_in_order buffer .file 0 nonempty
  obtain rfl := Except.ok.inj ((buffer.parse_eq_ok .file 0 nonempty).symm.trans hparsed)
  refine ⟨nonempty, _, hparsed, by decide +kernel, by decide +kernel, ordered,
    fun diagnostic reported => ?_⟩
  obtain ⟨hfound, -, -, placed⟩ := about diagnostic reported
  obtain ⟨line, hline, -, -, hcolumn⟩ := placed _ false rfl
  exact ⟨hfound, line, hline, hcolumn⟩

end ProtoFront
