import ProtoFront.Proofs.Parse.Order
import ProtoFront.Proofs.Recovery.Brackets

/-!
# What a skip takes along

Brackets are skipped in pairs. A skip goes on behind tokens whose brackets are properly nested if
none of them outside of brackets is to stop it (`Passes`, `extentTo_append`), and a group is skipped
through the bracket that closes it (`groupExtent_group`), whatever is nested in it. What is skipped
becomes leaves with a mark, one for each token that is no comment, and nothing else changes
(`discardMany_append`).
-/

namespace ProtoFront

open ParseState

variable {buffer : TokenBuffer} {s : ParseState} {kinds : List TokenKind}
variable {stop : TokenKind → Bool} {pair : Bracket} {inner : List Bracket}
variable {next : Lexeme} {inside passed rest : List Lexeme}
variable {front tokens behind : List Token} {start : Nat}

/-- Brackets are properly nested in a text of these kinds, the input does not end in it, and no
token outside of brackets is to stop a skip. -/
inductive Passes (stop : TokenKind → Bool) : List TokenKind → Prop
  | nil : Passes stop []
  | plain {kind : TokenKind} {rest : List TokenKind} (opener : kind.isOpener = false)
      (closer : kind.isCloser = false) (there : kind ≠ .eof) (goesOn : stop kind = false)
      (passes : Passes stop rest) : Passes stop (kind :: rest)
  | group (pair : Bracket) {inside rest : List TokenKind} (balanced : Balanced inside)
      (after : Passes stop rest) : Passes stop (.opener pair :: inside ++ .closer pair :: rest)

theorem Passes.balanced (h : Passes stop kinds) : Balanced kinds := by
  induction h with
  | nil => exact .nil
  | plain opener closer there _ _ ih => exact .plain opener closer there ih
  | group pair balanced _ ih => exact .group pair balanced ih

/-- Comments stop no skip. -/
theorem Passes.filter_comments (h : Passes stop kinds) :
    Passes stop (kinds.filter fun kind => !kind.isComment) := by
  induction h with
  | nil => exact .nil
  | @plain kind rest opener closer there goesOn _ ih =>
    rw [List.filter_cons]
    split
    · exact .plain opener closer there goesOn ih
    · exact ih
  | group pair balanced _ ih =>
    rw [List.cons_append, List.filter_cons_of_pos rfl, List.filter_append,
      List.filter_cons_of_pos rfl]
    exact .group pair balanced.filter_comments ih

/-! ## How far a skip reaches -/

theorem groupExtent_opener (kind : next.kind = .opener pair) :
    groupExtent inner (next :: rest) = groupExtent (pair :: inner) rest + 1 := by
  rw [groupExtent, kind]

theorem groupExtent_closer (hinner : inner ≠ []) (kind : next.kind = .closer pair) :
    groupExtent (pair :: inner) (next :: rest) = groupExtent inner rest + 1 := by
  obtain ⟨first, outer, rfl⟩ := List.exists_cons_of_ne_nil hinner
  rw [groupExtent, kind]
  dsimp only
  rw [closeThrough?_cons]

/-- What is balanced in a group belongs to it, and the group goes on behind it. -/
theorem groupExtent_append (h : Balanced kinds) (hkinds : inside.map Lexeme.kind = kinds)
    (hinner : inner ≠ []) :
    groupExtent inner (inside ++ rest) = groupExtent inner rest + inside.length := by
  induction h generalizing inside inner rest with
  | nil =>
    obtain rfl := List.map_eq_nil_iff.mp hkinds
    rfl
  | plain opener closer _ _ ih =>
    obtain ⟨next, others, rfl, rfl, hothers⟩ := List.map_eq_cons_iff.mp hkinds
    rw [List.cons_append, groupExtent_plain hinner opener closer, ih hothers hinner]
    rfl
  | group pair _ _ ih ih' =>
    rw [List.cons_append] at hkinds
    obtain ⟨first, others, rfl, hfirst, hothers⟩ := List.map_eq_cons_iff.mp hkinds
    obtain ⟨held, more, rfl, hheld, hmore⟩ := List.map_eq_append_iff.mp hothers
    obtain ⟨last, after, rfl, hlast, hafter⟩ := List.map_eq_cons_iff.mp hmore
    rw [List.cons_append, List.append_assoc, List.cons_append, groupExtent_opener hfirst,
      ih hheld (List.cons_ne_nil _ _), groupExtent_closer hinner hlast, ih' hafter hinner]
    simp only [List.length_cons, List.length_append]
    omega

/-- A group ends with the bracket that closes it. -/
theorem groupExtent_group (h : Balanced (inside.map Lexeme.kind))
    (kind : next.kind = .closer pair) :
    groupExtent [pair] (inside ++ next :: rest) = inside.length + 1 := by
  have last : groupExtent [pair] (next :: rest) = 1 := by
    rw [groupExtent, kind]
    dsimp only
    rw [closeThrough?_cons]
  rw [groupExtent_append h rfl (List.cons_ne_nil _ _), last, Nat.add_comm]

/-- A skip goes on behind what is balanced, if nothing in it outside of brackets stops the skip. -/
theorem extentTo_append (noOpener : ∀ pair, stop (.opener pair) = false) (h : Passes stop kinds)
    (hkinds : passed.map Lexeme.kind = kinds) :
    extentTo stop (passed ++ rest) = extentTo stop rest + passed.length := by
  induction h generalizing passed rest with
  | nil =>
    obtain rfl := List.map_eq_nil_iff.mp hkinds
    rfl
  | plain opener closer _ goesOn _ ih =>
    obtain ⟨next, others, rfl, rfl, hothers⟩ := List.map_eq_cons_iff.mp hkinds
    have step : extentTo stop (next :: (others ++ rest)) = extentTo stop (others ++ rest) + 1 := by
      rw [extentTo, if_neg (Bool.eq_false_iff.mp goesOn)]
      split <;> simp_all [TokenKind.isOpener, TokenKind.isCloser]
    rw [List.cons_append, step, ih hothers]
    rfl
  | group pair balanced _ ih =>
    rw [List.cons_append] at hkinds
    obtain ⟨first, others, rfl, hfirst, hothers⟩ := List.map_eq_cons_iff.mp hkinds
    obtain ⟨held, more, rfl, rfl, hmore⟩ := List.map_eq_append_iff.mp hothers
    obtain ⟨last, after, rfl, hlast, hafter⟩ := List.map_eq_cons_iff.mp hmore
    have goesOn : ¬stop first.kind = true := by
      rw [hfirst]
      exact Bool.eq_false_iff.mp (noOpener pair)
    have group : groupExtent [pair] (held ++ last :: (after ++ rest)) = held.length + 1 :=
      groupExtent_group balanced hlast
    have behind : (held ++ last :: (after ++ rest)).drop (held.length + 1) = after ++ rest := by
      rw [List.drop_append, List.drop_of_length_le (Nat.le_succ _)]
      simp
    rw [List.cons_append, List.append_assoc, List.cons_append, extentTo, if_neg goesOn, hfirst]
    dsimp only
    rw [group, behind, ih hafter]
    simp only [List.length_cons, List.length_append]
    omega

/-- A skip ends in front of a token that stops it, of a closing bracket, and of the end. -/
theorem extentTo_eq_zero
    (h : ∀ next ∈ rest.head?, stop next.kind = true ∨ next.kind.isCloser = true) :
    extentTo stop rest = 0 := by
  rcases rest with _ | ⟨next, rest⟩
  · rw [extentTo]
  · rw [extentTo]
    split
    · rfl
    · next goesOn =>
      obtain ⟨pair, hpair⟩ := TokenKind.eq_closer_of_isCloser ((h next rfl).resolve_left goesOn)
      rw [hpair]

/-! ## What is made of skipped tokens -/

/-- The leaf of a token that is skipped. -/
def Node.skipped (index : Nat) : Node := ⟨some index, 1, true, none⟩

/-- Skipped lexemes become leaves, and nothing else changes. -/
theorem discardMany_append (h : s.cursor.rest = passed ++ rest) :
    discardMany passed.length s =
      { s with
        cursor := { s.cursor with rest }
        nodes := s.nodes ++ (passed.map fun lexeme => Node.skipped lexeme.index).toArray } := by
  induction passed generalizing s with
  | nil =>
    rw [List.nil_append] at h
    rw [← h]
    simp [discardMany]
  | cons next passed ih =>
    have hdiscard : s.discard =
        { s with
          cursor := { s.cursor with rest := passed ++ rest }
          nodes := s.nodes.push (Node.skipped next.index) } := by
      rw [ParseState.discard, addLeaf, h]
      rfl
    rw [List.length_cons, discardMany, ih (by rw [hdiscard]), hdiscard]
    simp

/-! ## Where the parser stands in a buffer -/

namespace TokenBuffer

/-- The cursor in front of the first significant token that has the number `start` or a higher
one. -/
def cursorFrom (buffer : TokenBuffer) (start : Nat) : Cursor :=
  ⟨buffer.significant.filter fun lexeme => start ≤ lexeme.index, buffer.endIndex⟩

theorem lexemesOf_append (buffer : TokenBuffer) (start : Nat) (behind : List Token)
    (there : ∀ token ∈ tokens, token.kind ≠ .eof) :
    buffer.lexemesOf start (tokens ++ behind) =
      buffer.lexemesOf start tokens ++ buffer.lexemesOf (start + tokens.length) behind := by
  have infront : ∀ entry ∈ tokens.zipIdx start, (entry.1.kind != .eof) = true :=
    fun entry hentry => bne_iff_ne.mpr (there entry.1 (List.fst_mem_of_mem_zipIdx hentry))
  rw [lexemesOf, lexemesOf, lexemesOf, List.zipIdx_append, List.takeWhile_append_of_pos infront,
    List.filter_append, List.map_append, List.takeWhile_eq_self_iff.mpr infront]

theorem index_lexemesOf {lexeme : Lexeme} (h : lexeme ∈ buffer.lexemesOf start tokens) :
    start ≤ lexeme.index ∧ lexeme.index < start + tokens.length := by
  obtain ⟨⟨token, index⟩, hentry, rfl⟩ := List.mem_map.mp h
  have hmem := (List.takeWhile_sublist _).subset (List.mem_of_mem_filter hentry)
  exact ⟨List.le_snd_of_mem_zipIdx hmem, List.snd_lt_add_of_mem_zipIdx hmem⟩

theorem kind_lexemesOf (buffer : TokenBuffer) (start : Nat)
    (there : ∀ token ∈ tokens, token.kind ≠ .eof) :
    (buffer.lexemesOf start tokens).map Lexeme.kind =
      (tokens.map Token.kind).filter fun kind => !kind.isComment := by
  induction tokens generalizing start with
  | nil => rfl
  | cons token tokens ih =>
    obtain ⟨plain, later⟩ := List.forall_mem_cons.mp there
    rw [lexemesOf_cons, if_neg plain, List.map_cons]
    cases hcomment : token.kind.isComment with
    | true => simp [hcomment, ih _ later]
    | false => simp [hcomment, ih _ later, lexeme]

/-- The next lexeme is that of the first token that is no comment, if this is no end marker. -/
theorem head?_lexemesOf (h : next ∈ (buffer.lexemesOf start tokens).head?) :
    ∃ token ∈ tokens.find? fun token => !token.kind.isComment,
      token.kind = next.kind ∧ token.kind ≠ .eof := by
  induction tokens generalizing start with
  | nil => cases h
  | cons token tokens ih =>
    rw [lexemesOf_cons] at h
    split at h
    · cases h
    · next there =>
      rw [List.find?_cons]
      split at h
      · next hcomment =>
        rw [hcomment]
        exact ih h
      · next hplain =>
        obtain rfl := Option.some.inj h
        rw [Bool.not_eq_true] at hplain
        rw [hplain]
        exact ⟨token, rfl, rfl, there⟩

/-- What is left from a token on. -/
theorem rest_cursorFrom (tokens : buffer.tokens.toList = front ++ behind)
    (there : ∀ token ∈ front, token.kind ≠ .eof) :
    (buffer.cursorFrom front.length).rest = buffer.lexemesOf front.length behind := by
  have significant : buffer.significant =
      buffer.lexemesOf 0 front ++ buffer.lexemesOf front.length behind := by
    have h := buffer.lexemesOf_append 0 behind there
    rwa [Nat.zero_add, ← tokens, ← significant_eq] at h
  have read :
      (buffer.lexemesOf 0 front).filter (fun lexeme => front.length ≤ lexeme.index) = [] := by
    rw [List.filter_eq_nil_iff]
    intro lexeme hlexeme
    have hindex := (index_lexemesOf hlexeme).2
    rw [decide_eq_true_eq]
    omega
  have unread : (buffer.lexemesOf front.length behind).filter
      (fun lexeme => front.length ≤ lexeme.index) = buffer.lexemesOf front.length behind := by
    rw [List.filter_eq_self]
    intro lexeme hlexeme
    exact decide_eq_true (index_lexemesOf hlexeme).1
  rw [cursorFrom, significant, List.filter_append, read, unread, List.nil_append]

end TokenBuffer

/-- The parser has everything in front of it from the token at which it stands. -/
theorem ParseState.Reads.cursor_eq_from (h : s.Reads buffer) :
    s.cursor = buffer.cursorFrom s.position := by
  have whole := h.rest
  obtain ⟨front, hfront⟩ := h.rest
  have read : front.filter (fun lexeme => s.position ≤ lexeme.index) = [] := by
    rw [List.filter_eq_nil_iff]
    intro lexeme hlexeme
    obtain ⟨before, after, rfl⟩ := List.append_of_mem hlexeme
    have there : lexeme :: after ++ s.cursor.rest <:+ buffer.significant :=
      ⟨before, by rw [← hfront, List.append_assoc]⟩
    have hlength : s.cursor.rest.length < (lexeme :: after ++ s.cursor.rest).length := by
      rw [List.length_append, List.length_cons]
      omega
    have hlt := TokenBuffer.position_lt (List.suffix_append _ _) there hlength
    rw [← h.position_eq] at hlt
    rw [decide_eq_true_eq]
    exact Nat.not_le.mpr hlt
  have unread : s.cursor.rest.filter (fun lexeme => s.position ≤ lexeme.index) =
      s.cursor.rest := by
    rw [List.filter_eq_self]
    intro lexeme hlexeme
    obtain ⟨before, after, hrest⟩ := List.append_of_mem hlexeme
    have hle := TokenBuffer.position_le ⟨before, hrest.symm⟩ whole
    rw [← h.position_eq] at hle
    exact decide_eq_true hle
  rw [h.cursor_eq, TokenBuffer.cursorAt, TokenBuffer.cursorFrom, ← hfront, List.filter_append, read,
    unread, List.nil_append]

/-! ## Skipping what is nested -/

/-- The leaves of tokens that are skipped, the first of which has the number `start`. -/
def skippedLeaves (start : Nat) (tokens : List Token) : List Node :=
  ((tokens.zipIdx start).filter fun entry => !entry.1.kind.isComment).map
    fun entry => Node.skipped entry.2

/-- The state when some tokens have been skipped that begin where the parser stands: they are
leaves, the parser stands behind them, and nothing else has changed. -/
def ParseState.pastSkipped (s : ParseState) (buffer : TokenBuffer) (tokens : List Token) :
    ParseState :=
  { s with
    cursor := buffer.cursorFrom (s.position + tokens.length)
    nodes := s.nodes ++ (skippedLeaves s.position tokens).toArray }

theorem skippedLeaves_eq (buffer : TokenBuffer) (start : Nat)
    (there : ∀ token ∈ tokens, token.kind ≠ .eof) :
    (buffer.lexemesOf start tokens).map (fun lexeme => Node.skipped lexeme.index) =
      skippedLeaves start tokens := by
  have all : ∀ entry ∈ tokens.zipIdx start, (entry.1.kind != .eof) = true :=
    fun entry hentry => bne_iff_ne.mpr (there entry.1 (List.fst_mem_of_mem_zipIdx hentry))
  rw [TokenBuffer.lexemesOf, List.takeWhile_eq_self_iff.mpr all, List.map_map, skippedLeaves]
  rfl

section

variable (reads : s.Reads buffer) (place : buffer.tokens.toList = front ++ tokens ++ behind)
variable (here : s.position = front.length)
include reads place here

/-- What is in front of the parser, and behind some tokens of it. -/
theorem ParseState.Reads.rest_eq_append (there : ∀ token ∈ tokens, token.kind ≠ .eof) :
    s.cursor.rest = buffer.lexemesOf s.position tokens ++
        buffer.lexemesOf (s.position + tokens.length) behind ∧
      buffer.cursorFrom (s.position + tokens.length) =
        { s.cursor with rest := buffer.lexemesOf (s.position + tokens.length) behind } := by
  have infront : ∀ token ∈ front, token.kind ≠ .eof := by
    intro token htoken
    obtain ⟨index, hindex, rfl⟩ := List.getElem_of_mem htoken
    have hkind := TokenBuffer.kindAt_ne_eof_of_lt reads.rest
      (show index < (buffer.cursorAt s.cursor.rest).position by rwa [← reads.position_eq, here])
    have hat : buffer.token? index = some front[index] := by
      rw [TokenBuffer.token?, ← Array.getElem?_toList, place, List.append_assoc,
        List.getElem?_append_left hindex, List.getElem?_eq_getElem hindex]
    rwa [TokenBuffer.kindAt, hat] at hkind
  have within : ∀ token ∈ front ++ tokens, token.kind ≠ .eof := fun token htoken =>
    (List.mem_append.mp htoken).elim (infront token) (there token)
  have unread : s.cursor.rest = buffer.lexemesOf s.position (tokens ++ behind) := by
    rw [reads.cursor_eq_from, here]
    exact TokenBuffer.rest_cursorFrom (by rw [place, List.append_assoc]) infront
  have left : (buffer.cursorFrom (s.position + tokens.length)).rest =
      buffer.lexemesOf (s.position + tokens.length) behind := by
    rw [here, ← List.length_append]
    exact TokenBuffer.rest_cursorFrom place within
  refine ⟨by rw [unread, TokenBuffer.lexemesOf_append _ _ _ there], ?_⟩
  change _ = Cursor.mk _ s.cursor.endIndex
  rw [reads.endIndex, ← left]
  rfl

/-- To skip some tokens is to skip their lexemes. -/
theorem ParseState.Reads.discardMany_eq (there : ∀ token ∈ tokens, token.kind ≠ .eof) :
    discardMany (buffer.lexemesOf s.position tokens).length s = s.pastSkipped buffer tokens := by
  obtain ⟨hrest, hcursor⟩ := reads.rest_eq_append place here there
  rw [discardMany_append hrest, pastSkipped, hcursor, skippedLeaves_eq buffer _ there]

/-- A skip takes along what is nested. The parser stands in front of some tokens whose brackets are
properly nested. If none of them outside of brackets is to stop a skip, and the next token behind
them that is no comment is to stop it, is a closing bracket, or is the end, the skip takes just
these tokens along; and a group is skipped through the bracket that closes it. Each token that is no
comment becomes a leaf with a mark, and nothing changes but the nodes and the place of the
parser. -/
theorem skips_nested :
    (∀ stop : TokenKind → Bool, (∀ pair, stop (.opener pair) = false) →
      Passes stop (tokens.map Token.kind) →
      (∀ next ∈ behind.find? (fun token => !token.kind.isComment),
        stop next.kind = true ∨ next.kind.isCloser = true ∨ next.kind = .eof) →
      s.skipTo stop = s.pastSkipped buffer tokens) ∧
    (∀ pair opening inside closing, tokens = opening :: inside ++ [closing] →
      opening.kind = .opener pair → Balanced (inside.map Token.kind) →
      closing.kind = .closer pair → s.skipGroup = s.pastSkipped buffer tokens) := by
  constructor
  · intro stop noOpener passes stops
    have there : ∀ token ∈ tokens, token.kind ≠ .eof := fun token htoken =>
      passes.balanced.ne_eof _ (List.mem_map_of_mem htoken)
    have hkinds := buffer.kind_lexemesOf s.position there
    have ends : extentTo stop (buffer.lexemesOf (s.position + tokens.length) behind) = 0 := by
      refine extentTo_eq_zero fun next hnext => ?_
      obtain ⟨token, hfind, hkind, hthere⟩ := TokenBuffer.head?_lexemesOf hnext
      rw [← hkind]
      rcases stops token hfind with hstop | hcloser | heof
      · exact .inl hstop
      · exact .inr hcloser
      · exact absurd heof hthere
    rw [skipTo, (reads.rest_eq_append place here there).1,
      extentTo_append noOpener (hkinds ▸ passes.filter_comments) rfl, ends, Nat.zero_add,
      reads.discardMany_eq place here there]
  · rintro pair opening inside closing rfl hopening balanced hclosing
    have group : Balanced ((opening :: inside ++ [closing]).map Token.kind) := by
      rw [List.map_append, List.map_cons, hopening, List.map_singleton, hclosing]
      exact .group pair balanced .nil
    have there : ∀ token ∈ opening :: inside ++ [closing], token.kind ≠ .eof := fun token htoken =>
      group.ne_eof _ (List.mem_map_of_mem htoken)
    have within := (List.forall_mem_cons.mp (List.forall_mem_append.mp there).1).2
    have hlexemes : buffer.lexemesOf s.position (opening :: inside ++ [closing]) =
        buffer.lexeme opening s.position :: buffer.lexemesOf (s.position + 1) inside ++
          [buffer.lexeme closing (s.position + 1 + inside.length)] := by
      rw [List.cons_append, TokenBuffer.lexemesOf_cons, TokenBuffer.lexemesOf_append _ _ _ within,
        TokenBuffer.lexemesOf_cons]
      simp [hopening, hclosing, TokenKind.isComment, TokenBuffer.lexemesOf]
    have hinside : Balanced ((buffer.lexemesOf (s.position + 1) inside).map Lexeme.kind) := by
      rw [buffer.kind_lexemesOf _ within]
      exact balanced.filter_comments
    have hrest := (reads.rest_eq_append place here there).1
    rw [hlexemes, List.append_assoc, List.cons_append] at hrest
    rw [skipGroup_of_rest hrest hopening, List.singleton_append, groupExtent_group hinside hclosing,
      ← reads.discardMany_eq place here there, hlexemes]
    simp

end

theorem skips_nested_angles :
    let buffer := tokenize "( /* ) */ < , > ) , b" true
    let s := initial buffer.cursor .file 10
    let tokens := buffer.tokens.toList.take 6
    let stop : TokenKind → Bool := (· == .comma)
    s.Reads buffer ∧ buffer.tokens.toList = [] ++ tokens ++ buffer.tokens.toList.drop 6 ∧
      s.position = 0 ∧ Passes stop (tokens.map Token.kind) ∧
      s.skipTo stop = s.pastSkipped buffer tokens ∧ s.skipGroup = s.pastSkipped buffer tokens ∧
      (s.pastSkipped buffer tokens).kind = .comma ∧
      (s.pastSkipped buffer tokens).nodes = s.nodes ++
        #[Node.skipped 0, Node.skipped 2, Node.skipped 3, Node.skipped 4, Node.skipped 5] := by
  intro buffer s tokens stop
  have reads : s.Reads buffer := ⟨List.suffix_refl _, rfl⟩
  have place : buffer.tokens.toList = [] ++ tokens ++ buffer.tokens.toList.drop 6 :=
    (List.take_append_drop 6 _).symm
  have here : s.position = ([] : List Token).length := by decide +kernel
  have kinds : tokens.map Token.kind = [.opener .paren, .blockComment, .opener .angle, .comma,
      .closer .angle, .closer .paren] := by decide +kernel
  have inside : Balanced [.blockComment, .opener .angle, .comma, .closer .angle] :=
    .plain rfl rfl (by decide) (.group .angle (.plain rfl rfl (by decide) .nil) .nil)
  have passes : Passes stop (tokens.map Token.kind) := by
    rw [kinds]
    exact .group .paren inside .nil
  obtain ⟨skipTo, skipGroup⟩ := skips_nested reads place here
  refine ⟨reads, place, here, passes, ?_, ?_, by decide +kernel, by decide +kernel⟩
  · exact skipTo stop (fun _ => rfl) passes (by decide +kernel)
  · have held : (tokens.tail.take 4).map Token.kind =
        [.blockComment, .opener .angle, .comma, .closer .angle] := by decide +kernel
    exact skipGroup .paren tokens[0]! (tokens.tail.take 4) tokens[5]! (by decide +kernel)
      (by decide +kernel) (held ▸ inside) (by decide +kernel)

end ProtoFront
