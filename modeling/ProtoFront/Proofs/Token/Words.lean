import ProtoFront.Proofs.Symbol.Texts

/-!
# The texts of words

No word is reserved where a name is expected, so an identifier, a keyword and the name of a scalar
type may all stand for one. They are all made of letters, digits and underscores, and do not begin
with a digit (`TokenBuffer.isWord_text`). So there is no dot in any of them, and none of them is
empty.
-/

namespace ProtoFront

namespace Lexer

variable {first quote c : Char} {cs : List Char} {kind : TokenKind}

theorem not_word_of_isNumber (h : kind.isNumber = true) : kind.isIdentifierLike = false := by
  cases kind <;> first | rfl | cases h

theorem not_word_dotExtent (cs : List Char) : (dotExtent cs).1.isIdentifierLike = false := by
  rw [dotExtent]
  split <;> rfl

theorem not_word_stringExtent (quote : Char) (cs : List Char) :
    (stringExtent quote cs).1.isIdentifierLike = false := by
  rw [stringExtent]
  split <;> rfl

theorem not_word_slashExtent (cs : List Char) : (slashExtent cs).1.isIdentifierLike = false := by
  rw [slashExtent.eq_def]
  split
  · rfl
  · split <;> rfl
  · rfl

theorem not_word_punctuation (c : Char) :
    ((punctuation? c).getD .invalid).isIdentifierLike = false := by
  rcases hfound : punctuation? c with _ | kind
  · rfl
  · have among := List.mem_of_find?_eq_some hfound
    clear hfound
    revert kind
    decide

/-- What begins with a letter or an underscore is a word as far as it goes. -/
theorem isWord_run (h : isWordStart c = true) :
    isWord (c :: cs.take (runLength isWordChar cs)) = true := by
  have run : cs.take (runLength isWordChar cs) = cs.takeWhile isWordChar := by
    rw [runLength, ← List.prefix_iff_eq_take.mp (List.takeWhile_prefix isWordChar)]
  rw [isWord, h, run]
  exact List.all_takeWhile

/-- Only words begin with a letter or an underscore, and go on as such. -/
theorem isWord_extent (h : (extent c cs).1 = some kind) (word : kind.isIdentifierLike = true) :
    isWord (c :: cs.take (extent c cs).2) = true := by
  by_cases hblank : isBlank c = true
  · rw [extent, if_pos hblank] at h
    cases h
  by_cases hword : isWordStart c = true
  · rw [extent, if_neg hblank, if_pos hword]
    exact isWord_run hword
  · suffices hother : kind.isIdentifierLike = false from
      Bool.noConfusion (word.symm.trans hother)
    rw [extent, if_neg hblank, if_neg hword] at h
    split at h
    · obtain rfl := Option.some.inj h
      exact not_word_of_isNumber isNumber_numberExtent
    split at h
    · obtain rfl := Option.some.inj h
      exact not_word_dotExtent cs
    split at h
    · obtain rfl := Option.some.inj h
      exact not_word_stringExtent c cs
    split at h
    · obtain rfl := Option.some.inj h
      exact not_word_slashExtent cs
    · obtain rfl := Option.some.inj h
      exact not_word_punctuation c

/-- There is no dot in a word. -/
theorem dot_notMem_of_isWord (h : isWord cs = true) : '.' ∉ cs := by
  cases cs with
  | nil => exact List.not_mem_nil
  | cons c cs =>
    obtain ⟨hfirst, hrest⟩ := Bool.and_eq_true_iff.mp h
    intro hdot
    rcases List.mem_cons.mp hdot with rfl | hlater
    · cases hfirst
    · cases List.all_eq_true.mp hrest _ hlater

theorem isWord_pieces {piece : Piece} (h : piece ∈ pieces cs) (hkind : piece.kind? = some kind)
    (word : kind.isIdentifierLike = true) : isWord piece.text = true := by
  induction cs using pieces.induct with
  | case1 =>
    rw [pieces] at h
    cases h
  | case2 c cs kind? n hextent ih =>
    rw [pieces_cons] at h
    rcases List.mem_cons.mp h with rfl | hlater
    · exact isWord_extent hkind word
    · rw [hextent] at hlater
      exact ih hlater

end Lexer

open Lexer

namespace TokenBuffer

variable {source : String} {keepComments : Bool} {index : Nat}

/-- A token that may stand for a name is a word. -/
theorem isWord_text
    (h : ((tokenize source keepComments).kindAt index).isIdentifierLike = true) :
    isWord ((tokenize source keepComments).text index).toList = true := by
  obtain ⟨token, piece, htoken, hpiece, covers⟩ :=
    exists_covers (TokenKind.ne_eof_of_isIdentifierLike h)
  rw [kindAt, htoken] at h
  rw [text_of_covers List.toList_toArray htoken covers, String.toList_ofList]
  exact isWord_pieces hpiece covers.kind h

/-- A token whose kind has a spelling is spelled like that. -/
theorem text_eq_spelling {spelling : String}
    (h : ((tokenize source keepComments).kindAt index).spelling? = some spelling) :
    (tokenize source keepComments).text index = spelling := by
  have there : (tokenize source keepComments).kindAt index ≠ .eof := by
    intro heof
    rw [heof] at h
    cases h
  obtain ⟨token, piece, htoken, hpiece, covers⟩ := exists_covers there
  rw [kindAt, htoken] at h
  rw [text_of_covers List.toList_toArray htoken covers]
  exact ((sound_pieces hpiece).fits _ covers.kind).2.spelled spelling h

end TokenBuffer

end ProtoFront
