import Mathlib.Data.List.DropRight
import Mathlib.Data.List.Forall2
import Mathlib.Data.List.TakeWhile
import ProtoFront.Proofs.Token.Breaks

/-!
# Where tokens stand

The place of a token is counted from the beginning of the source, and the line table leads from it
to the byte at which the token starts. So the text of a token is that of the piece which it was made
of (`TokenBuffer.text_of_covers`). Behind a line break everything stands as it does in a source of
its own, further down.
-/

namespace ProtoFront

/-! ## Slices -/

theorem pos?_of_isValid {text : String} {offset : String.Pos.Raw} (h : offset.IsValid text) :
    ∃ pos : text.Pos, text.pos? offset = some pos ∧ pos.offset = offset := by
  refine ⟨text.pos offset h, ?_, String.offset_pos⟩
  rw [String.pos?, String.Slice.pos?, dif_pos (by simpa using h)]
  rfl

/-- What is between two texts is the slice between their ends. -/
theorem slice?_append (before text after : String) :
    slice? (before ++ text ++ after) before.utf8ByteSize
      (before.utf8ByteSize + text.utf8ByteSize) = some text := by
  have hstart : String.Pos.Raw.IsValid (before ++ text ++ after) ⟨before.utf8ByteSize⟩ :=
    String.Pos.Raw.isValid_iff_exists_append.mpr
      ⟨before, text ++ after, String.append_assoc .., rfl⟩
  have hstop : String.Pos.Raw.IsValid (before ++ text ++ after)
      ⟨before.utf8ByteSize + text.utf8ByteSize⟩ :=
    String.Pos.Raw.isValid_iff_exists_append.mpr
      ⟨before ++ text, after, rfl, by simp [String.Pos.Raw.ext_iff]⟩
  obtain ⟨first, hfirst, hoffset⟩ := pos?_of_isValid hstart
  obtain ⟨last, hlast, hoffset'⟩ := pos?_of_isValid hstop
  rw [slice?, hfirst, hlast]
  dsimp only
  rw [if_pos (Nat.le_add_right _ _), Option.some_inj, ← String.toByteArray_inj,
    String.toByteArray_extract, hoffset, hoffset', String.toByteArray_append,
    String.toByteArray_append, ByteArray.append_assoc]
  have hslice := ByteArray.extract_append_size_add (a := before.toByteArray)
    (b := text.toByteArray ++ after.toByteArray) (i := 0) (j := text.toByteArray.size)
  rw [Nat.add_zero, ByteArray.extract_append_eq_left rfl] at hslice
  exact hslice

theorem utf8ByteSize_ofList (cs : List Char) : (String.ofList cs).utf8ByteSize = byteLength cs := by
  induction cs with
  | nil => rfl
  | cons c cs ih =>
    rw [String.ofList_cons, String.utf8ByteSize_append, ih, byteLength_cons]
    simp

namespace Lexer

variable {c : Char} {cs rest before : List Char} {place : Place} {start lines : Nat}

/-! ## Places -/

/-- The same place some lines further down. -/
def Place.down (lines : Nat) (place : Place) : Place := { place with line := place.line + lines }

theorem Place.next_down : (place.down lines).next c = (place.next c).down lines := by
  rw [next, next]
  split
  · simp [down, Nat.add_right_comm]
  · rfl

theorem foldl_next_down :
    cs.foldl Place.next (place.down lines) = (cs.foldl Place.next place).down lines := by
  induction cs generalizing place with
  | nil => rfl
  | cons c cs ih => rw [List.foldl_cons, List.foldl_cons, Place.next_down, ih]

theorem line_foldl_next (cs : List Char) (place : Place) :
    (cs.foldl Place.next place).line = place.line + cs.count '\n' := by
  induction cs generalizing place with
  | nil => rfl
  | cons c cs ih =>
    rw [List.foldl_cons, ih, Place.next, List.count_cons]
    split <;> simp_all
    omega

/-- On one line only the column changes. -/
theorem foldl_next_of_notMem (h : '\n' ∉ cs) :
    cs.foldl Place.next place = ⟨place.line, place.column + byteLength cs⟩ := by
  induction cs generalizing place with
  | nil => rfl
  | cons c cs ih =>
    rw [List.mem_cons, not_or] at h
    rw [List.foldl_cons, ih h.2, Place.next, if_neg (by simpa using Ne.symm h.1), byteLength_cons,
      Nat.add_assoc]

/-- Behind a line break places are counted as at the beginning, one line further down. -/
theorem foldl_next_break (h : '\n' ∉ cs) : (cs ++ '\n' :: rest).foldl Place.next ⟨0, 0⟩ =
    (rest.foldl Place.next ⟨0, 0⟩).down 1 := by
  rw [List.foldl_append, foldl_next_of_notMem h, List.foldl_cons, ← foldl_next_down]
  rfl

/-! ## Lines -/

/-- A text is taken apart line by line. -/
theorem induction_lines {motive : List Char → Prop} (last : ∀ cs, '\n' ∉ cs → motive cs)
    (line : ∀ cs rest, '\n' ∉ cs → motive rest → motive (cs ++ '\n' :: rest)) (cs : List Char) :
    motive cs := by
  induction hlength : cs.length using Nat.strongRecOn generalizing cs with
  | _ length ih =>
    by_cases hbreak : '\n' ∈ cs
    · obtain ⟨first, rest, rfl, hfirst⟩ := List.eq_append_cons_of_mem hbreak
      refine line first rest hfirst (ih _ ?_ rest rfl)
      rw [← hlength, List.length_append, List.length_cons]
      omega
    · exact last cs hbreak

/-- The length of a line that reads `content`: one carriage return at its end is left out. -/
def lineLength (content : List Char) : Nat :=
  if content.getLast? == some '\r' then byteLength content - 1 else byteLength content

theorem takeWhile_of_notMem (h : '\n' ∉ cs) : cs.takeWhile (· != '\n') = cs :=
  List.takeWhile_eq_self_iff.mpr fun _ hc => bne_iff_ne.mpr fun heq => h (heq ▸ hc)

theorem takeWhile_break (h : '\n' ∉ cs) : (cs ++ '\n' :: rest).takeWhile (· != '\n') = cs := by
  rw [List.takeWhile_append_of_pos (List.takeWhile_eq_self_iff.mp (takeWhile_of_notMem h)),
    List.takeWhile_cons_of_neg (by simp), List.append_nil]

/-- Without a line break there is one line. -/
theorem linesFrom_of_notMem (h : '\n' ∉ cs) : linesFrom start cs = [⟨start, lineLength cs⟩] := by
  rw [linesFrom, takeWhile_of_notMem h]
  split
  · rfl
  · next hfound =>
    rw [List.dropWhile_eq_nil_iff.mpr (List.takeWhile_eq_self_iff.mp (takeWhile_of_notMem h))]
      at hfound
    cases hfound

/-- A line break ends a line. -/
theorem linesFrom_break (h : '\n' ∉ cs) : linesFrom start (cs ++ '\n' :: rest) =
    ⟨start, lineLength cs⟩ :: linesFrom (start + byteLength cs + 1) rest := by
  have back : (cs ++ '\n' :: rest).dropWhile (· != '\n') = '\n' :: rest := by
    rw [List.dropWhile_append_of_pos (List.takeWhile_eq_self_iff.mp (takeWhile_of_notMem h)),
      List.dropWhile_cons_of_neg (by simp)]
  rw [linesFrom, takeWhile_break h]
  split
  · next hfound =>
    rw [back] at hfound
    cases hfound
  · next hfound =>
    rw [back] at hfound
    obtain ⟨-, rfl⟩ := List.cons.inj hfound
    rfl

/-- A line break ends a line, whatever comes behind it. -/
theorem linesFrom_append_break : linesFrom start (cs ++ '\n' :: rest) =
    linesFrom start cs ++ linesFrom (start + byteLength cs + 1) rest := by
  induction cs using induction_lines generalizing start with
  | last cs h =>
    rw [linesFrom_of_notMem h, linesFrom_break h]
    rfl
  | line cs more h ih =>
    rw [List.append_assoc, List.cons_append, linesFrom_break h, linesFrom_break h, ih,
      List.cons_append, byteLength_append, byteLength_cons]
    have hbreak : Char.utf8Size '\n' = 1 := rfl
    rw [hbreak, show start + (byteLength cs + (1 + byteLength more)) + 1 =
      start + byteLength cs + 1 + byteLength more + 1 by omega]

theorem length_linesFrom : (linesFrom start cs).length = cs.count '\n' + 1 := by
  induction cs using induction_lines generalizing start with
  | last cs h =>
    rw [linesFrom_of_notMem h, List.count_eq_zero_of_not_mem h]
    rfl
  | line cs rest h ih =>
    rw [linesFrom_break h, List.length_cons, ih, List.count_append,
      List.count_eq_zero_of_not_mem h, List.count_cons_self, Nat.zero_add]

/-- Where the source begins matters only for where its lines do. -/
theorem linesFrom_add (more : Nat) : linesFrom (start + more) cs =
    (linesFrom start cs).map fun line => { line with start := line.start + more } := by
  induction cs using induction_lines generalizing start with
  | last cs h =>
    rw [linesFrom_of_notMem h, linesFrom_of_notMem h]
    rfl
  | line cs rest h ih =>
    rw [linesFrom_break h, linesFrom_break h, List.map_cons, ← ih,
      show start + more + byteLength cs + 1 = start + byteLength cs + 1 + more by omega]

/-- The line of a text at which the text ends. -/
def lastLine (before : List Char) : List Char := before.rtakeWhile (· != '\n')

theorem lastLine_of_notMem (h : '\n' ∉ cs) : lastLine cs = cs :=
  List.rtakeWhile_eq_self_iff.mpr fun _ hc => bne_iff_ne.mpr fun heq => h (heq ▸ hc)

theorem lastLine_break : lastLine (cs ++ '\n' :: rest) = lastLine rest := by
  induction rest using List.reverseRecOn with
  | nil => exact List.rtakeWhile_concat_neg _ _ _ (by simp)
  | append_singleton rest c ih =>
    rw [← List.cons_append, ← List.append_assoc, lastLine, lastLine, List.rtakeWhile_concat,
      List.rtakeWhile_concat]
    split
    · exact congrArg (· ++ [c]) ih
    · rfl

/-- The place behind a text: the line breaks are counted, and the bytes since the last one. -/
theorem foldl_next (before : List Char) : before.foldl Place.next ⟨0, 0⟩ =
    ⟨before.count '\n', byteLength (lastLine before)⟩ := by
  induction before using induction_lines with
  | last cs h =>
    rw [foldl_next_of_notMem h, List.count_eq_zero_of_not_mem h, lastLine_of_notMem h,
      Nat.zero_add]
  | line cs rest h ih =>
    rw [foldl_next_break h, ih, lastLine_break, List.count_append, List.count_eq_zero_of_not_mem h,
      List.count_cons_self, Nat.zero_add]
    rfl

/-- The line at which a text ends goes on behind it, up to the next line break. -/
theorem line_of_place (before rest : List Char) (start : Nat) :
    ∃ line, (linesFrom start (before ++ rest))[before.count '\n']? = some line ∧
      line.start + byteLength (lastLine before) = start + byteLength before ∧
      line.length = lineLength (lastLine before ++ rest.takeWhile (· != '\n')) := by
  induction before using induction_lines generalizing start with
  | last before h =>
    rw [List.count_eq_zero_of_not_mem h, lastLine_of_notMem h]
    by_cases hbreak : '\n' ∈ rest
    · obtain ⟨front, more, rfl, hfront⟩ := List.eq_append_cons_of_mem hbreak
      have hline : '\n' ∉ before ++ front := by simp [h, hfront]
      rw [← List.append_assoc, linesFrom_break hline, takeWhile_break hfront]
      exact ⟨_, rfl, rfl, rfl⟩
    · have hline : '\n' ∉ before ++ rest := by simp [h, hbreak]
      rw [linesFrom_of_notMem hline, takeWhile_of_notMem hbreak]
      exact ⟨_, rfl, rfl, rfl⟩
  | line before more h ih =>
    obtain ⟨line, hline, hstart, hlength⟩ := ih (start + byteLength before + 1)
    rw [List.append_assoc, List.cons_append, linesFrom_break h, lastLine_break, List.count_append,
      List.count_eq_zero_of_not_mem h, List.count_cons_self, Nat.zero_add]
    refine ⟨line, hline, hstart.trans ?_, hlength⟩
    have hbreak : Char.utf8Size '\n' = 1 := rfl
    rw [byteLength_append, byteLength_cons, hbreak]
    omega

/-! ## Tokens -/

theorem tokensFrom_append (keepComments : Bool) (place : Place) (parts more : List Piece) :
    tokensFrom keepComments place (parts ++ more) = tokensFrom keepComments place parts ++
      tokensFrom keepComments ((parts.map Piece.text).flatten.foldl Place.next place) more := by
  induction parts generalizing place with
  | nil => rfl
  | cons piece parts ih =>
    rw [List.cons_append, tokensFrom, tokensFrom, ih, List.map_cons, List.flatten_cons,
      List.foldl_append]
    split
    · rfl
    · split <;> rfl

end Lexer

/-- The same token some lines further down. -/
def Token.down (lines : Nat) (token : Token) : Token := { token with line := token.line + lines }

namespace Lexer

variable {source before : List Char} {keepComments : Bool} {lines : Nat} {parts : List Piece}

theorem tokensFrom_down (place : Place) :
    tokensFrom keepComments (place.down lines) parts =
      (tokensFrom keepComments place parts).map (Token.down lines) := by
  induction parts generalizing place with
  | nil => rfl
  | cons piece parts ih =>
    rw [tokensFrom, tokensFrom, foldl_next_down, ih]
    split
    · rfl
    · split <;> rfl

/-- Whether a piece becomes a token. -/
def Piece.isKept (keepComments : Bool) (piece : Piece) : Bool :=
  piece.kind?.any fun kind => !(kind.isComment && !keepComments)

/-- A token that has been made of a piece. -/
structure Covers (source : List Char) (token : Token) (piece : Piece) : Prop where
  kind : piece.kind? = some token.kind
  length : token.length = byteLength piece.text
  place : ∃ before after, source = before ++ piece.text ++ after ∧
    before.foldl Place.next ⟨0, 0⟩ = ⟨token.line, token.column⟩

/-- Each piece that is kept becomes a token. -/
theorem covers_tokensFrom (before : List Char)
    (hsource : source = before ++ (parts.map Piece.text).flatten) :
    List.Forall₂ (Covers source)
      (tokensFrom keepComments (before.foldl Place.next ⟨0, 0⟩) parts)
      (parts.filter (Piece.isKept keepComments)) := by
  induction parts generalizing before with
  | nil => exact .nil
  | cons piece parts ih =>
    rw [List.map_cons, List.flatten_cons, ← List.append_assoc] at hsource
    have later := ih _ hsource
    rw [List.foldl_append] at later
    rw [tokensFrom, List.filter_cons, Piece.isKept]
    rcases hkind : piece.kind? with _ | kind
    · exact later
    · rw [Option.any_some]
      dsimp only
      rcases hleft : kind.isComment && !keepComments with _ | _
      · exact .cons ⟨hkind, rfl, before, _, hsource, rfl⟩ later
      · exact later

end Lexer

/-- A token starts where the text in front of its piece ends. -/
theorem TokenBuffer.offset?_of_covers {buffer : TokenBuffer} {index : Nat} {token : Token}
    {before rest : List Char}
    (lines : buffer.lines.toList = Lexer.linesFrom 0 buffer.source.toList)
    (htoken : buffer.token? index = some token) (hsource : buffer.source.toList = before ++ rest)
    (hplace : before.foldl Lexer.Place.next ⟨0, 0⟩ = ⟨token.line, token.column⟩) :
    buffer.offset? index = some (byteLength before) := by
  obtain ⟨line, hline, hstart, -⟩ := Lexer.line_of_place before rest 0
  rw [Lexer.foldl_next, Lexer.Place.mk.injEq] at hplace
  rw [← hsource, ← lines, Array.getElem?_toList, hplace.1] at hline
  rw [hplace.2, Nat.zero_add] at hstart
  rw [offset?, htoken, Option.bind_eq_bind, Option.bind_some, hline]
  exact congrArg some hstart

/-- The text of a token is that of the piece which it has been made of. -/
theorem TokenBuffer.text_of_covers {buffer : TokenBuffer} {index : Nat} {token : Token}
    {piece : Lexer.Piece} (lines : buffer.lines.toList = Lexer.linesFrom 0 buffer.source.toList)
    (htoken : buffer.token? index = some token)
    (covers : Lexer.Covers buffer.source.toList token piece) :
    buffer.text index = String.ofList piece.text := by
  obtain ⟨-, hlength, before, after, hsource, hplace⟩ := covers
  have hoffset := offset?_of_covers lines htoken
    (by rw [hsource, List.append_assoc]) hplace
  have hslice := slice?_append (String.ofList before) (String.ofList piece.text)
    (String.ofList after)
  rw [← String.ofList_append, ← String.ofList_append, ← hsource, String.ofList_toList,
    utf8ByteSize_ofList, utf8ByteSize_ofList] at hslice
  rw [text, htoken, hoffset]
  dsimp only
  rw [hlength, hslice]
  rfl

end ProtoFront
