import ProtoFront.Import.Literal
import ProtoFront.Proofs.Token.Breaks

/-!
# Texts between quotes

Every text can be written as a string literal (`Quoted.literal`). Whatever comes behind it, the
literal is cut from its source as one piece (`Quoted.pieces_literal`), and it means the text that
was to be written (`Quoted.unquote_literal`). The lexer and the reader of escapes agree character by
character: what is written for one is taken whole by both.
-/

namespace ProtoFront

open Lexer Literal

/-- The characters that strings stand between. -/
inductive Quote where
  | single
  | double
  deriving DecidableEq, Repr

def Quote.char : Quote → Char
  | single => '\''
  | double => '"'

/-- A text, and the quotes that it is to stand between. -/
structure Quoted where
  quote : Quote
  text : String
  deriving DecidableEq, Repr

namespace Quoted

/-- What is written for a character. -/
def spell (quote : Quote) (c : Char) : List Char :=
  if c = '\\' then ['\\', '\\']
  else if c = quote.char then ['\\', c]
  else if c = '\n' then ['\\', 'n']
  else [c]

/-- What is written between the quotes. -/
def body (part : Quoted) : List Char := part.text.toList.flatMap (spell part.quote)

/-- The text as a string literal. -/
def literal (part : Quoted) : String :=
  String.ofList (part.quote.char :: part.body ++ [part.quote.char])

variable {quote : Quote} {c : Char} {rest : List Char}

/-! ## Cutting -/

/-- What is written for a character belongs to the string. -/
theorem contentLength_spell (quote : Quote) (c : Char) (rest : List Char) :
    contentLength quote.char (spell quote c ++ rest) =
      (spell quote c).length + contentLength quote.char rest := by
  rw [spell]
  split
  case isTrue => simp [contentLength, Nat.add_comm]
  case isFalse hbackslash =>
    split
    case isTrue hquote =>
      have hbreak : c ≠ '\n' := by
        subst hquote
        cases quote <;> decide
      simp [contentLength, hbreak, Nat.add_comm]
    case isFalse hquote =>
      split
      case isTrue => simp [contentLength, Nat.add_comm]
      case isFalse hbreak =>
        rw [List.singleton_append, contentLength]
        · simp [hbackslash, hquote, hbreak, Nat.add_comm]
        · exact fun _ _ hescape => absurd hescape hbackslash

/-- A string goes on up to its closing quote. -/
theorem contentLength_flatMap (quote : Quote) (cs rest : List Char) :
    contentLength quote.char (cs.flatMap (spell quote) ++ quote.char :: rest) =
      (cs.flatMap (spell quote)).length := by
  induction cs with
  | nil => cases quote <;> simp [contentLength, Quote.char]
  | cons c cs ih =>
    rw [List.flatMap_cons, List.append_assoc, contentLength_spell, ih, List.length_append]

theorem extent_char (quote : Quote) (rest : List Char) :
    extent quote.char rest = (stringExtent quote.char rest).map some id := by
  cases quote <;> rfl

theorem toList_literal (part : Quoted) :
    part.literal.toList = part.quote.char :: part.body ++ [part.quote.char] :=
  String.toList_ofList

/-- A literal is a piece, whatever comes behind it. -/
theorem pieces_literal (part : Quoted) (rest : List Char) :
    pieces (part.literal.toList ++ rest) =
      ⟨some .stringLiteral, part.literal.toList⟩ :: pieces rest := by
  have reaches : extent part.quote.char (part.body ++ part.quote.char :: rest) =
      (some .stringLiteral, part.body.length + 1) := by
    rw [extent_char, stringExtent, body, contentLength_flatMap]
    simp
  have source : part.literal.toList ++ rest =
      part.quote.char :: (part.body ++ part.quote.char :: rest) := by
    simp [toList_literal]
  have before : part.body ++ part.quote.char :: rest =
      (part.body ++ [part.quote.char]) ++ rest := by
    simp
  have hlength : part.body.length + 1 = (part.body ++ [part.quote.char]).length := by
    simp
  rw [source, pieces_cons, reaches, before, hlength, List.take_left, List.drop_left,
    toList_literal, List.cons_append]

/-! ## Reading back -/

theorem unescape_cons (hc : c ≠ '\\') : unescape (c :: rest) = c :: unescape rest := by
  rw [unescape]
  · exact fun hescape _ => hc hescape
  · exact fun _ _ hescape _ => hc hescape

/-- What is written for a character means that character. -/
theorem unescape_spell (quote : Quote) (c : Char) (rest : List Char) :
    unescape (spell quote c ++ rest) = c :: unescape rest := by
  rw [spell]
  split
  case isTrue hbackslash =>
    subst hbackslash
    simp [unescape, escape, simpleEscape?, digitValue]
  case isFalse hbackslash =>
    split
    case isTrue hquote =>
      subst hquote
      cases quote <;> simp [Quote.char, unescape, escape, simpleEscape?, digitValue]
    case isFalse hquote =>
      split
      case isTrue hbreak =>
        subst hbreak
        simp [unescape, escape, simpleEscape?]
      case isFalse => exact unescape_cons hbackslash

theorem unescape_flatMap (quote : Quote) (cs : List Char) :
    unescape (cs.flatMap (spell quote)) = cs := by
  induction cs with
  | nil => rw [List.flatMap_nil, unescape]
  | cons c cs ih => rw [List.flatMap_cons, unescape_spell, ih]

theorem content_literal (part : Quoted) : content part.literal.toList = part.body := by
  have isQuote : (part.quote.char == '"' || part.quote.char == '\'') = true := by
    cases part.quote <;> rfl
  rw [toList_literal, List.cons_append, content, if_pos isQuote, List.getLast?_concat,
    if_pos (beq_self_eq_true _), List.dropLast_concat]

/-- A literal means the text that was written. -/
theorem unquote_literal (part : Quoted) : Literal.unquote part.literal = part.text := by
  rw [Literal.unquote, content_literal, body, unescape_flatMap, String.ofList_toList]

end Quoted

end ProtoFront
