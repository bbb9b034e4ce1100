import ProtoFront.Proofs.Parse.Input
import ProtoFront.Proofs.Token.Places

/-!
# The significant tokens of a source

All tokens of a source are significant, except the comments and the end marker behind them. If the
first of two sources with a line break between them is cut into valid pieces, the tokens are those
of the first one and, further down, those of the second one, with the same texts.
-/

namespace ProtoFront

namespace Lexer

variable {source : String} {token : Token} {piece : Piece} {index : Nat}

/-- The pieces of a source that become tokens when the comments are not kept. -/
def keptPieces (source : String) : List Piece :=
  (pieces source.toList).filter (Piece.isKept false)

/-- The tokens of a source in front of the end marker, with its comments or without them. -/
def sourceTokens (keepComments : Bool) (source : String) : List Token :=
  tokensFrom keepComments ⟨0, 0⟩ (pieces source.toList)

/-- The tokens of a source in front of the end marker. -/
def plainTokens (source : String) : List Token :=
  tokensFrom false ⟨0, 0⟩ (pieces source.toList)

/-- The pieces that are kept and the tokens correspond. -/
theorem covers_sourceTokens (keepComments : Bool) (source : String) :
    List.Forall₂ (Covers source.toList) (sourceTokens keepComments source)
      ((pieces source.toList).filter (Piece.isKept keepComments)) :=
  covers_tokensFrom [] (flatten_pieces source.toList).symm

theorem length_sourceTokens (keepComments : Bool) (source : String) :
    (sourceTokens keepComments source).length =
      ((pieces source.toList).filter (Piece.isKept keepComments)).length :=
  (covers_sourceTokens keepComments source).length_eq

theorem length_plainTokens (source : String) :
    (plainTokens source).length = (keptPieces source).length ∧
      ∀ (index : Nat) token piece, (plainTokens source)[index]? = some token →
        (keptPieces source)[index]? = some piece → Covers source.toList token piece := by
  obtain ⟨hlength, hget⟩ := List.forall₂_iff_get.mp (covers_sourceTokens false source)
  refine ⟨hlength, fun index token piece htoken hpiece => ?_⟩
  obtain ⟨ht, rfl⟩ := List.getElem?_eq_some_iff.mp htoken
  obtain ⟨hp, rfl⟩ := List.getElem?_eq_some_iff.mp hpiece
  exact hget index ht hp

theorem exists_covers {keepComments : Bool}
    (h : ((pieces source.toList).filter (Piece.isKept keepComments))[index]? = some piece) :
    ∃ token, (sourceTokens keepComments source)[index]? = some token ∧
      Covers source.toList token piece := by
  obtain ⟨hlength, covers⟩ := List.forall₂_iff_get.mp (covers_sourceTokens keepComments source)
  obtain ⟨hindex, rfl⟩ := List.getElem?_eq_some_iff.mp h
  have htoken := hlength.symm ▸ hindex
  exact ⟨_, List.getElem?_eq_getElem htoken, covers index htoken hindex⟩

theorem exists_token (h : (keptPieces source)[index]? = some piece) :
    ∃ token, (plainTokens source)[index]? = some token ∧ Covers source.toList token piece :=
  exists_covers h

theorem exists_piece (h : (plainTokens source)[index]? = some token) :
    ∃ piece, (keptPieces source)[index]? = some piece ∧ Covers source.toList token piece := by
  obtain ⟨hlength, covers⟩ := length_plainTokens source
  have hindex := (List.getElem?_eq_some_iff.mp h).1
  have hpiece := List.getElem?_eq_getElem (show index < (keptPieces source).length by omega)
  exact ⟨_, hpiece, covers index token _ h hpiece⟩

/-- The kinds of the tokens are those of the pieces, without the blanks and the comments. -/
theorem map_kind_plainTokens (source : String) : (plainTokens source).map Token.kind =
    ((pieces source.toList).filterMap Piece.kind?).filter fun kind => !kind.isComment := by
  suffices h : ∀ place parts, (tokensFrom false place parts).map Token.kind =
      (parts.filterMap Piece.kind?).filter fun kind => !kind.isComment from h _ _
  intro place parts
  induction parts generalizing place with
  | nil => rfl
  | cons piece parts ih =>
    obtain ⟨kind?, text⟩ := piece
    rcases kind? with _ | kind
    · exact ih _
    · rw [tokensFrom, List.filterMap_cons, List.filter_cons]
      cases hcomment : kind.isComment <;> simp [hcomment, ih]

/-- In front of the end marker there are no other end markers, and no comments. -/
theorem kind_of_mem_plainTokens (h : token ∈ plainTokens source) :
    token.kind ≠ .eof ∧ token.kind.isComment = false := by
  obtain ⟨index, hindex⟩ := List.mem_iff_getElem?.mp h
  obtain ⟨piece, hpiece, covers⟩ := exists_piece hindex
  obtain ⟨hmem, hkept⟩ := List.mem_filter.mp (List.mem_of_getElem? hpiece)
  rw [Piece.isKept, covers.kind, Option.any_some] at hkept
  refine ⟨fun heof => kind?_ne_eof hmem (heof ▸ covers.kind), ?_⟩
  simpa using hkept

/-- A source is cut into valid pieces if its tokens are valid. -/
theorem valid_pieces (h : ∀ token ∈ plainTokens source, token.kind ≠ .invalid) :
    ∀ piece ∈ pieces source.toList, piece.kind? ≠ some .invalid := by
  intro piece hpiece hinvalid
  have hkept : piece ∈ keptPieces source := by
    refine List.mem_filter.mpr ⟨hpiece, ?_⟩
    rw [Piece.isKept, hinvalid]
    rfl
  obtain ⟨index, hindex⟩ := List.mem_iff_getElem?.mp hkept
  obtain ⟨token, htoken, covers⟩ := exists_token hindex
  have hkind := covers.kind
  rw [hinvalid] at hkind
  exact h token (List.mem_of_getElem? htoken) (Option.some.inj hkind).symm

end Lexer

open Lexer

section

variable (source : String)

theorem toList_tokens (keepComments : Bool) : (tokenize source keepComments).tokens.toList =
    sourceTokens keepComments source ++ [endToken (linesFrom 0 source.toList)] := rfl

theorem toList_tokens_tokenize : (tokenize source false).tokens.toList =
    plainTokens source ++ [endToken (linesFrom 0 source.toList)] := rfl

theorem takeWhile_tokens_tokenize :
    (tokenize source false).tokens.toList.takeWhile (fun token => token.kind != .eof) =
      plainTokens source := by
  rw [toList_tokens_tokenize, List.takeWhile_append_of_pos fun token htoken =>
    bne_iff_ne.mpr (kind_of_mem_plainTokens htoken).1]
  exact List.append_nil _

/-- The significant tokens of a source are all those in front of the end marker. -/
theorem significant_tokenize : (tokenize source false).significant =
    (plainTokens source).zipIdx.map fun entry =>
      (tokenize source false).lexeme entry.1 entry.2 := by
  have there : ∀ entry ∈ (plainTokens source).zipIdx, (entry.1.kind != .eof) = true :=
    fun entry hentry => bne_iff_ne.mpr
      (kind_of_mem_plainTokens (List.fst_mem_of_mem_zipIdx hentry)).1
  rw [TokenBuffer.significant_eq, TokenBuffer.lexemesOf, toList_tokens_tokenize,
    List.zipIdx_append, List.takeWhile_append_of_pos there, List.filter_append,
    List.filter_eq_self.mpr]
  · exact congrArg _ (List.append_nil _)
  · intro entry hentry
    rw [(kind_of_mem_plainTokens (List.fst_mem_of_mem_zipIdx hentry)).2]
    rfl

theorem endIndex_tokenize : (tokenize source false).endIndex = (plainTokens source).length := by
  rw [← TokenBuffer.length_takeWhile_eof, takeWhile_tokens_tokenize]

variable {source} {piece : Piece} {index : Nat}

theorem token?_tokenize {keepComments : Bool} {token : Token}
    (h : (sourceTokens keepComments source)[index]? = some token) :
    (tokenize source keepComments).token? index = some token := by
  rw [TokenBuffer.token?, ← Array.getElem?_toList, toList_tokens,
    List.getElem?_append_left (List.getElem?_eq_some_iff.mp h).1, h]

/-- A token without length has no text. -/
theorem TokenBuffer.text_of_length_eq_zero {buffer : TokenBuffer} {token : Token}
    (htoken : buffer.token? index = some token) (empty : token.length = 0) :
    buffer.text index = "" := by
  rw [text, htoken]
  rcases buffer.offset? index with _ | start
  · rfl
  · dsimp only
    rw [empty, Nat.add_zero, slice?]
    rcases buffer.source.pos? ⟨start⟩ with _ | pos
    · rfl
    · rw [Option.getD_eq_iff]
      refine .inl ?_
      dsimp only
      rw [if_pos le_rfl, Option.some_inj, ← String.toByteArray_inj, String.toByteArray_extract]
      simp

/-- The text of a token of a source. -/
theorem text_tokenize {keepComments : Bool}
    (h : ((pieces source.toList).filter (Piece.isKept keepComments))[index]? = some piece) :
    (tokenize source keepComments).text index = String.ofList piece.text := by
  obtain ⟨token, htoken, covers⟩ := exists_covers h
  exact TokenBuffer.text_of_covers rfl (token?_tokenize htoken) covers

/-- The texts of a source are those of the pieces that are kept. The end marker has none. -/
theorem text_eq_elim (source : String) (keepComments : Bool) (index : Nat) :
    (tokenize source keepComments).text index =
      ((pieces source.toList).filter (Piece.isKept keepComments))[index]?.elim ""
        fun piece => String.ofList piece.text := by
  rcases hpiece : ((pieces source.toList).filter (Piece.isKept keepComments))[index]? with
    _ | piece
  · have hbehind := List.getElem?_eq_none_iff.mp hpiece
    rw [← length_sourceTokens] at hbehind
    have htoken : (tokenize source keepComments).token? index =
        [endToken (linesFrom 0 source.toList)][
          index - (sourceTokens keepComments source).length]? := by
      rw [TokenBuffer.token?, ← Array.getElem?_toList, toList_tokens,
        List.getElem?_append_right hbehind]
    rcases hbelow : index - (sourceTokens keepComments source).length with _ | beyond
    · rw [hbelow] at htoken
      exact TokenBuffer.text_of_length_eq_zero htoken rfl
    · rw [hbelow] at htoken
      rw [TokenBuffer.text, htoken]
      rfl
  · exact text_tokenize hpiece

end

/-- A lexeme that has been made of a piece of the source. -/
structure TokenBuffer.Made (buffer : TokenBuffer) (lexeme : Lexeme) (piece : Piece) : Prop where
  mem : lexeme ∈ buffer.significant
  kind : piece.kind? = some lexeme.kind
  text : buffer.text lexeme.index = String.ofList piece.text

/-- The lexemes of a source and the pieces that are kept correspond. -/
theorem forall₂_significant (source : String) :
    List.Forall₂ (tokenize source false).Made (tokenize source false).significant
      (keptPieces source) := by
  have hlength : (tokenize source false).significant.length = (keptPieces source).length := by
    rw [significant_tokenize, List.length_map, List.length_zipIdx, (length_plainTokens source).1]
  refine List.forall₂_iff_get.mpr ⟨hlength, fun index hlexeme hpiece => ?_⟩
  have hkept := List.getElem?_eq_getElem hpiece
  obtain ⟨token, htoken, covers⟩ := exists_token hkept
  have there : (tokenize source false).significant[index]? =
      some ((tokenize source false).lexeme token index) := by
    rw [significant_tokenize, List.getElem?_map, List.getElem?_zipIdx, htoken, Nat.zero_add]
    rfl
  obtain ⟨_, hlexeme⟩ := List.getElem?_eq_some_iff.mp there
  rw [List.get_eq_getElem, List.get_eq_getElem, hlexeme]
  exact ⟨List.mem_of_getElem? there, covers.kind, text_tokenize hkept⟩

/-- The lexemes of a source are counted. -/
theorem index_significant (source : String) :
    (tokenize source false).significant.map Lexeme.index =
      List.range (keptPieces source).length := by
  rw [significant_tokenize, List.map_map, ← (length_plainTokens source).1, List.range_eq_range',
    ← List.zipIdx_map_snd 0]
  rfl

/-! ## One source behind another -/

section

variable {first second : String} {index : Nat}

/-- The number of lines of a source. -/
def lineCount (source : String) : Nat := (tokenize source false).lines.size

theorem toList_join :
    (first ++ "\n" ++ second).toList = first.toList ++ '\n' :: second.toList := by
  rw [String.toList_append, String.toList_append, List.append_assoc]
  rfl

theorem not_isOpenComment (valid : ∀ piece ∈ pieces first.toList, piece.kind? ≠ some .invalid) :
    ∀ piece ∈ pieces first.toList, ¬piece.IsOpenComment :=
  fun piece hpiece hopen => valid piece hpiece hopen.1

theorem kept_join (second : String) (keepComments : Bool)
    (closed : ∀ piece ∈ pieces first.toList, ¬piece.IsOpenComment) :
    (pieces (first ++ "\n" ++ second).toList).filter (Piece.isKept keepComments) =
      (pieces first.toList).filter (Piece.isKept keepComments) ++
        (pieces second.toList).filter (Piece.isKept keepComments) := by
  rw [toList_join, pieces_append_break closed, List.filter_append]
  rfl

theorem text_join_left (second : String) {keepComments : Bool}
    (closed : ∀ piece ∈ pieces first.toList, ¬piece.IsOpenComment)
    (h : index < (sourceTokens keepComments first).length) :
    (tokenize (first ++ "\n" ++ second) keepComments).text index =
      (tokenize first keepComments).text index := by
  rw [length_sourceTokens] at h
  rw [text_eq_elim, text_eq_elim, kept_join second keepComments closed,
    List.getElem?_append_left h]

theorem text_join_right (second : String) (keepComments : Bool)
    (closed : ∀ piece ∈ pieces first.toList, ¬piece.IsOpenComment) (index : Nat) :
    (tokenize (first ++ "\n" ++ second) keepComments).text
        (index + (sourceTokens keepComments first).length) =
      (tokenize second keepComments).text index := by
  rw [text_eq_elim, text_eq_elim, kept_join second keepComments closed, length_sourceTokens,
    List.getElem?_append_right (Nat.le_add_left _ _), Nat.add_sub_cancel]

/-- Behind the line break a source begins at the next line. -/
theorem sourceTokens_join (keepComments : Bool)
    (closed : ∀ piece ∈ pieces first.toList, ¬piece.IsOpenComment) :
    sourceTokens keepComments (first ++ "\n" ++ second) = sourceTokens keepComments first ++
      (sourceTokens keepComments second).map (Token.down (lineCount first)) := by
  rw [sourceTokens, toList_join, pieces_append_break closed, tokensFrom_append, flatten_pieces,
    tokensFrom, sourceTokens, sourceTokens, ← tokensFrom_down]
  have hline := line_foldl_next first.toList ⟨0, 0⟩
  rw [Nat.zero_add] at hline
  have hplace : [('\n' : Char)].foldl Place.next (first.toList.foldl Place.next ⟨0, 0⟩) =
      (⟨0, 0⟩ : Place).down (lineCount first) := by
    rw [lineCount, tokenize, List.size_toArray, length_linesFrom, ← hline, Place.down]
    simp [Place.next]
  rw [hplace]

theorem plainTokens_join (valid : ∀ piece ∈ pieces first.toList, piece.kind? ≠ some .invalid) :
    plainTokens (first ++ "\n" ++ second) =
      plainTokens first ++ (plainTokens second).map (Token.down (lineCount first)) :=
  sourceTokens_join false (not_isOpenComment valid)

/-- The lines of the second source begin as many bytes later as there are in front of it. -/
theorem lines_join (first second : String) (keepComments : Bool) :
    (tokenize (first ++ "\n" ++ second) keepComments).lines.toList =
      (tokenize first keepComments).lines.toList ++
        (tokenize second keepComments).lines.toList.map fun line =>
          { line with start := line.start + (first.utf8ByteSize + 1) } := by
  have hbytes : byteLength first.toList = first.utf8ByteSize := by
    rw [← utf8ByteSize_ofList, String.ofList_toList]
  rw [tokenize, toList_join, linesFrom_append_break, Nat.add_assoc, hbytes, linesFrom_add]
  rfl

theorem lineCount_pos (source : String) : 0 < lineCount source := by
  rw [lineCount, tokenize, List.size_toArray, length_linesFrom]
  exact Nat.succ_pos _

/-- There are as many lines as in both sources. -/
theorem lineCount_join :
    lineCount (first ++ "\n" ++ second) = lineCount first + lineCount second := by
  have hlength := congrArg List.length (lines_join first second false)
  rwa [List.length_append, List.length_map] at hlength

/-- The last line is that of the second source. -/
theorem lastLength_join : (tokenize (first ++ "\n" ++ second) false).lines.back?.map Line.length =
    (tokenize second false).lines.back?.map Line.length := by
  have hne : (tokenize second false).lines.toList ≠ [] := by
    rw [← List.length_pos_iff_ne_nil]
    exact lineCount_pos second
  rw [← Array.getLast?_toList, lines_join, List.getLast?_append_of_ne_nil _ (by simpa using hne),
    List.getLast?_map, Option.map_map, Array.getLast?_toList]
  rfl

theorem endToken_tokenize (source : String) : endToken (linesFrom 0 source.toList) =
    ⟨.eof, lineCount source - 1,
      ((tokenize source false).lines.back?.map Line.length).getD 0, 0⟩ := by
  rw [endToken, lineCount, tokenize, List.size_toArray, List.back?_toArray]

/-- The tokens of the second source come behind those of the first one, whose end marker is left
out. -/
theorem tokens_join (second : String) (keepComments : Bool)
    (closed : ∀ piece ∈ pieces first.toList, ¬piece.IsOpenComment) :
    (tokenize (first ++ "\n" ++ second) keepComments).tokens.toList =
      sourceTokens keepComments first ++
        (tokenize second keepComments).tokens.toList.map (Token.down (lineCount first)) := by
  have hpos := lineCount_pos second
  rw [toList_tokens, toList_tokens, sourceTokens_join keepComments closed, List.map_append,
    List.append_assoc, endToken_tokenize, endToken_tokenize, lineCount_join, lastLength_join,
    List.map_singleton, Token.down,
    show lineCount first + lineCount second - 1 = lineCount second - 1 + lineCount first by omega]

theorem token?_join (second : String) (keepComments : Bool)
    (closed : ∀ piece ∈ pieces first.toList, ¬piece.IsOpenComment) (index : Nat) :
    (tokenize (first ++ "\n" ++ second) keepComments).token?
        (index + (sourceTokens keepComments first).length) =
      ((tokenize second keepComments).token? index).map (Token.down (lineCount first)) := by
  rw [TokenBuffer.token?, ← Array.getElem?_toList, tokens_join second keepComments closed,
    List.getElem?_append_right (Nat.le_add_left _ _), Nat.add_sub_cancel, List.getElem?_map,
    Array.getElem?_toList]
  rfl

end

end ProtoFront
