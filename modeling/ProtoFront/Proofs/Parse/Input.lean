import Mathlib.Data.List.TakeWhile
import ProtoFront.Parse.Cursor

/-!
# The significant tokens of a buffer

The lexemes of a buffer are its tokens in front of the first end marker, comments left out, in the
order of the buffer.
-/

namespace ProtoFront

theorem TokenKind.isComment_of_isIdentifierLike {kind : TokenKind}
    (h : kind.isIdentifierLike = true) : kind.isComment = false := by
  cases kind <;> first | rfl | cases h

/-- Only identifiers spell words of their context. -/
def Spelled (lexemes : List Lexeme) : Prop :=
  ∀ lexeme ∈ lexemes, lexeme.word? ≠ none → lexeme.kind = .identifier

namespace TokenBuffer

variable (buffer : TokenBuffer)

/-- The numbers of the tokens that the parser reads. -/
def significantIndices : List Nat :=
  ((List.range buffer.size).takeWhile fun index => buffer.kindAt index != .eof).filter
    fun index => !(buffer.kindAt index).isComment

variable {buffer} {lexeme : Lexeme}

/-! ## The list that a cursor runs through -/

theorem token?_of_drop_eq_cons {position : Nat} {token : Token} {behind : List Token}
    (h : buffer.tokens.toList.drop position = token :: behind) :
    buffer.token? position = some token := by
  rw [token?, ← Array.getElem?_toList, ← List.head?_drop, h, List.head?_cons]

theorem skipComments_of_isComment {position : Nat}
    (h : (buffer.kindAt position).isComment = true) :
    buffer.skipComments position = buffer.skipComments (position + 1) := by
  rw [skipComments, dif_pos h]

theorem skipComments_of_plain {position : Nat}
    (h : (buffer.kindAt position).isComment = false) : buffer.skipComments position = position := by
  rw [skipComments, dif_neg (Bool.eq_false_iff.mp h)]

theorem lexemesFrom_of_eof {position : Nat} (h : buffer.kindAt position = .eof) :
    buffer.lexemesFrom position = [] := by
  fun_cases lexemesFrom buffer position with
  | case1 => rfl
  | case2 => rfl
  | case3 token htoken there => exact absurd ((kindAt_eq_of_token? htoken).symm.trans h) there

theorem lexemesFrom_of_token? {position : Nat} {token : Token}
    (h : buffer.token? position = some token) (there : token.kind ≠ .eof) :
    buffer.lexemesFrom position =
      buffer.lexeme token position :: buffer.lexemesFrom (buffer.advance position) := by
  rw [lexemesFrom]
  split
  case h_1 hnone => cases h.symm.trans hnone
  case h_2 other hother =>
    obtain rfl := Option.some.inj (h.symm.trans hother)
    rw [dif_neg there]

/-- The lexemes of tokens in a row, the first of which has the number `start`, up to an end
marker. -/
def lexemesOf (buffer : TokenBuffer) (start : Nat) (tokens : List Token) : List Lexeme :=
  (((tokens.zipIdx start).takeWhile fun entry => entry.1.kind != .eof).filter
    fun entry => !entry.1.kind.isComment).map fun entry => buffer.lexeme entry.1 entry.2

theorem lexemesOf_cons (buffer : TokenBuffer) (start : Nat) (token : Token)
    (tokens : List Token) : buffer.lexemesOf start (token :: tokens) =
      if token.kind = .eof then []
      else if token.kind.isComment then buffer.lexemesOf (start + 1) tokens
      else buffer.lexeme token start :: buffer.lexemesOf (start + 1) tokens := by
  rw [lexemesOf, List.zipIdx_cons, List.takeWhile_cons]
  by_cases ends : token.kind = .eof
  · simp [ends]
  · cases hcomment : token.kind.isComment <;> simp [ends, hcomment, lexemesOf]

/-- What a cursor comes across from a position on are the lexemes of the tokens there. -/
theorem lexemesFrom_skipComments (buffer : TokenBuffer) (position : Nat) :
    buffer.lexemesFrom (buffer.skipComments position) =
      buffer.lexemesOf position (buffer.tokens.toList.drop position) := by
  generalize hbehind : buffer.tokens.toList.drop position = behind
  induction behind generalizing position with
  | nil =>
    have past : buffer.kindAt position = .eof := by
      rw [kindAt, token?, ← Array.getElem?_toList, ← List.head?_drop, hbehind]
      rfl
    rw [skipComments_of_plain (by rw [past]; rfl), lexemesFrom_of_eof past]
    rfl
  | cons token behind ih =>
    have htoken := token?_of_drop_eq_cons hbehind
    have hkind := kindAt_eq_of_token? htoken
    have later := ih (position + 1) (by rw [← List.tail_drop, hbehind, List.tail_cons])
    rw [lexemesOf_cons]
    split
    case isTrue ends =>
      rw [skipComments_of_plain (by rw [hkind, ends]; rfl), lexemesFrom_of_eof (hkind.trans ends)]
    case isFalse there =>
      split
      case isTrue hcomment => rw [skipComments_of_isComment (hkind ▸ hcomment), later]
      case isFalse hplain =>
        rw [skipComments_of_plain (hkind ▸ Bool.eq_false_iff.mpr hplain),
          lexemesFrom_of_token? htoken there, advance, if_neg (hkind ▸ there), later]

/-- The significant tokens are those in front of the first end marker, without the comments. -/
theorem significant_eq (buffer : TokenBuffer) :
    buffer.significant = buffer.lexemesOf 0 buffer.tokens.toList :=
  buffer.lexemesFrom_skipComments 0

/-! ## Significant tokens -/

/-- A lexeme is the lexeme of a token in the buffer. -/
theorem mem_significant (h : lexeme ∈ buffer.significant) :
    ∃ token, buffer.token? lexeme.index = some token ∧ token.kind ≠ .eof ∧
      token.kind.isComment = false ∧ lexeme = buffer.lexeme token lexeme.index := by
  rw [significant_eq, lexemesOf, List.mem_map] at h
  obtain ⟨⟨token, index⟩, hentry, rfl⟩ := h
  rw [List.mem_filter] at hentry
  obtain ⟨hfront, hcomment⟩ := hentry
  have hmem := (List.takeWhile_sublist _).subset hfront
  refine ⟨token, ?_, ?_, by simpa using hcomment, rfl⟩
  · rw [List.mem_zipIdx_iff_getElem?] at hmem
    rw [token?, ← Array.getElem?_toList]
    exact hmem
  · have hkind := List.mem_takeWhile_imp hfront
    simpa using hkind

theorem index_lt_size (h : lexeme ∈ buffer.significant) : lexeme.index < buffer.size := by
  obtain ⟨token, htoken, -⟩ := mem_significant h
  rw [token?] at htoken
  exact (Array.getElem?_eq_some_iff.mp htoken).1

theorem kind_ne_eof (h : lexeme ∈ buffer.significant) : lexeme.kind ≠ .eof := by
  obtain ⟨token, -, hkind, -, hlexeme⟩ := mem_significant h
  rw [hlexeme]
  exact hkind

theorem kindAt_index (h : lexeme ∈ buffer.significant) :
    buffer.kindAt lexeme.index = lexeme.kind := by
  obtain ⟨token, htoken, -, -, hlexeme⟩ := mem_significant h
  rw [kindAt, htoken, hlexeme]
  rfl

theorem word?_eq_ofText? (h : lexeme ∈ buffer.significant) : lexeme.word? =
    if lexeme.kind = .identifier then ContextWord.ofText? (buffer.text lexeme.index) else none := by
  obtain ⟨token, -, -, -, hlexeme⟩ := mem_significant h
  rw [hlexeme]
  rfl

/-- A lexeme spells a word of its context if it is an identifier with that text. -/
theorem word?_eq_some (h : lexeme ∈ buffer.significant) {word : ContextWord} :
    lexeme.word? = some word ↔
      lexeme.kind = .identifier ∧ buffer.text lexeme.index = word.spelling := by
  have text {text : String} : ContextWord.ofText? text = some word ↔ text = word.spelling := by
    constructor
    · intro hfound
      rw [ContextWord.ofText?] at hfound
      have hspelling := List.find?_some hfound
      exact (beq_iff_eq.mp hspelling).symm
    · rintro rfl
      cases word <;> rfl
  obtain ⟨token, -, -, -, hlexeme⟩ := mem_significant h
  rw [hlexeme, TokenBuffer.lexeme, Option.ite_none_right_eq_some, text]

/-- The lexemes of a buffer spell words of their context only where they are identifiers. -/
theorem spelled_significant (buffer : TokenBuffer) : Spelled buffer.significant := by
  intro lexeme hlexeme hword
  obtain ⟨word, hspells⟩ := Option.ne_none_iff_exists'.mp hword
  exact ((word?_eq_some hlexeme).mp hspells).1

theorem endIndex_le_size : buffer.endIndex ≤ buffer.size := by
  rw [endIndex, size, ← Array.length_toList]
  exact List.findIdx_le_length

/-- The end comes behind the tokens that are no end markers. -/
theorem length_takeWhile_eof :
    (buffer.tokens.toList.takeWhile fun token => token.kind != .eof).length = buffer.endIndex := by
  rw [List.takeWhile_eq_take_findIdx_not, List.length_take, endIndex]
  simp only [bne, Bool.not_not]
  exact Nat.min_eq_left List.findIdx_le_length

theorem takeWhile_congr {α : Type} {p q : α → Bool} {l : List α} (h : ∀ x ∈ l, p x = q x) :
    l.takeWhile p = l.takeWhile q := by
  induction l with
  | nil => rfl
  | cons x l ih =>
    rw [List.takeWhile_cons, List.takeWhile_cons, h x List.mem_cons_self,
      ih fun y hy => h y (List.mem_cons_of_mem _ hy)]

/-- The lexemes are the significant tokens, each once and in order. -/
theorem map_index_significant (buffer : TokenBuffer) :
    buffer.significant.map Lexeme.index = buffer.significantIndices := by
  have kind {entry : Token × Nat} (h : entry ∈ buffer.tokens.toList.zipIdx) :
      buffer.kindAt entry.2 = entry.1.kind := by
    rw [List.mem_zipIdx_iff_getElem?, Array.getElem?_toList] at h
    rw [kindAt, token?, h]
  have range : buffer.tokens.toList.zipIdx.map Prod.snd = List.range buffer.size := by
    rw [List.zipIdx_map_snd, List.range_eq_range', size, Array.length_toList]
  rw [significantIndices, ← range, List.takeWhile_map, List.filter_map, significant_eq,
    lexemesOf, List.map_map]
  have before : buffer.tokens.toList.zipIdx.takeWhile (fun entry => entry.1.kind != .eof) =
      buffer.tokens.toList.zipIdx.takeWhile
        ((fun index => buffer.kindAt index != .eof) ∘ Prod.snd) :=
    takeWhile_congr fun entry hentry => by rw [Function.comp_apply, kind hentry]
  have comments : ∀ entry ∈ buffer.tokens.toList.zipIdx.takeWhile
        ((fun index => buffer.kindAt index != .eof) ∘ Prod.snd),
      (!entry.1.kind.isComment) =
        ((fun index => !(buffer.kindAt index).isComment) ∘ Prod.snd) entry :=
    fun entry hentry => by
      rw [Function.comp_apply, kind ((List.takeWhile_sublist _).subset hentry)]
  rw [before, List.filter_congr comments]
  rfl

/-- The lexemes of tokens in front of a significant one come in front of its lexeme. -/
theorem significant_eq_append {front rest : List Token} {next : Token}
    (tokens : buffer.tokens.toList = front ++ next :: rest)
    (there : ∀ token ∈ front, token.kind ≠ .eof) (plain : next.kind ≠ .eof)
    (hcomment : next.kind.isComment = false) : ∃ read after,
      buffer.significant = read ++ buffer.lexeme next front.length :: after ∧
        read.map Lexeme.kind = (front.map Token.kind).filter fun kind => !kind.isComment := by
  have infront : ∀ entry ∈ front.zipIdx, (entry.1.kind != .eof) = true := fun entry hentry =>
    bne_iff_ne.mpr (there entry.1 (List.fst_mem_of_mem_zipIdx hentry))
  have hnext : ((next, front.length).1.kind != .eof) = true := bne_iff_ne.mpr plain
  have hsignificant : (!(next, front.length).1.kind.isComment) = true := by rw [hcomment]; rfl
  rw [significant_eq, lexemesOf, tokens, List.zipIdx_append, List.zipIdx_cons, Nat.zero_add,
    List.takeWhile_append_of_pos infront, List.takeWhile_cons, if_pos hnext, List.filter_append,
    List.filter_cons, if_pos hsignificant, List.map_append, List.map_cons]
  refine ⟨_, _, rfl, ?_⟩
  have kinds : front.map Token.kind = front.zipIdx.map (Token.kind ∘ Prod.fst) := by
    rw [← List.map_map, List.zipIdx_map_fst]
  rw [kinds, List.filter_map, List.map_map]
  rfl

/-! ## Which tokens are significant -/

theorem mem_takeWhile_range {p : Nat → Bool} {length index : Nat} :
    index ∈ (List.range length).takeWhile p ↔ index < length ∧ ∀ other ≤ index, p other = true := by
  rw [List.takeWhile_eq_take_findIdx_not, List.take_range, List.mem_range, Nat.lt_min]
  constructor
  · rintro ⟨hbefore, hlength⟩
    refine ⟨hlength, fun other hother => ?_⟩
    have hnot := List.not_of_lt_findIdx (Nat.lt_of_le_of_lt hother hbefore)
    simpa using hnot
  · rintro ⟨hlength, hall⟩
    refine ⟨List.lt_findIdx_of_not (by rwa [List.length_range]) fun other hother => ?_, hlength⟩
    rw [List.getElem_range, hall other hother]
    exact Bool.false_ne_true

theorem mem_significantIndices {index : Nat} : index ∈ buffer.significantIndices ↔
    (∀ other ≤ index, buffer.kindAt other ≠ .eof) ∧ (buffer.kindAt index).isComment = false := by
  rw [significantIndices, List.mem_filter, mem_takeWhile_range, Bool.not_eq_true']
  constructor
  · rintro ⟨⟨-, hall⟩, hcomment⟩
    exact ⟨fun other hother => by simpa using hall other hother, hcomment⟩
  · rintro ⟨hall, hcomment⟩
    refine ⟨⟨?_, fun other hother => by simpa using hall other hother⟩, hcomment⟩
    by_contra hpast
    refine hall index (Nat.le_refl _) ?_
    rw [kindAt, token?, Array.getElem?_eq_none (Nat.not_lt.mp hpast)]

/-- Each token comes once, and the order is that of the buffer. -/
theorem pairwise_significantIndices (buffer : TokenBuffer) :
    buffer.significantIndices.Pairwise (· < ·) :=
  (List.pairwise_lt_range.sublist (List.takeWhile_sublist _)).filter _

/-- A message whose body is cut off, without an end marker. -/
def cutMessage : TokenBuffer :=
  ⟨"message A \x7b", #[⟨.keyword .kwMessage, 0, 0, 7⟩, ⟨.identifier, 0, 8, 1⟩,
    ⟨.opener .brace, 0, 10, 1⟩], #[⟨0, 11⟩]⟩

end TokenBuffer

end ProtoFront
