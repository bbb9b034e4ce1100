import ProtoFront.Proofs.Grammar.Rules

/-!
# Words of several forms

`Word forms input` says that all of the input is of some forms, one after the other. What the first
form is decides where to look next, so each of the lemmas takes one form apart.
-/

namespace ProtoFront

/-- The lexemes are of the forms, one after the other. -/
def Word : List Form → List Lexeme → Prop
  | [], input => input = []
  | form :: forms, input => ∃ rest, Derives form input rest ∧ Word forms rest

variable {form first second left right : Form} {forms : List Form} {input : List Lexeme}
variable {test : TokenKind → Bool} {kind : TokenKind}

theorem word_congr {others : List Form} (h : ∀ rest, Word forms rest ↔ Word others rest) :
    Word (form :: forms) input ↔ Word (form :: others) input :=
  exists_congr fun rest => and_congr_right fun _ => h rest

theorem word_nothing : Word (.nothing :: forms) input ↔ Word forms input := by
  constructor
  · rintro ⟨_, ⟨⟩, hrest⟩
    exact hrest
  · intro hword
    exact ⟨input, .nothing, hword⟩

theorem word_both : Word ((first ++ second) :: forms) input ↔
    Word (first :: second :: forms) input := by
  constructor
  · rintro ⟨rest, hboth, hrest⟩
    cases hboth with
    | both hfirst hsecond => exact ⟨_, hfirst, rest, hsecond, hrest⟩
  · rintro ⟨middle, hfirst, rest, hsecond, hrest⟩
    exact ⟨rest, .both hfirst hsecond, hrest⟩

theorem word_either : Word ((left ||| right) :: forms) input ↔
    Word (left :: forms) input ∨ Word (right :: forms) input := by
  constructor
  · rintro ⟨rest, heither, hrest⟩
    cases heither with
    | left hleft => exact .inl ⟨rest, hleft, hrest⟩
    | right hright => exact .inr ⟨rest, hright, hrest⟩
  · rintro (⟨rest, hleft, hrest⟩ | ⟨rest, hright, hrest⟩)
    · exact ⟨rest, .left hleft, hrest⟩
    · exact ⟨rest, .right hright, hrest⟩

theorem word_many : Word (.many form :: forms) input ↔
    Word forms input ∨ Word (form :: .many form :: forms) input := by
  constructor
  · rintro ⟨rest, hmany, hrest⟩
    cases hmany with
    | stop => exact .inl hrest
    | again hform hmore => exact .inr ⟨_, hform, rest, hmore, hrest⟩
  · rintro (hword | ⟨middle, hform, rest, hmore, hrest⟩)
    · exact ⟨input, .stop, hword⟩
    · exact ⟨rest, .again hform hmore, hrest⟩

theorem word_ahead {test : TokenKind → TokenKind → Bool} : Word (.ahead test :: forms) input ↔
    test (headKind input) (headKind input.tail) = true ∧ Word forms input := by
  constructor
  · rintro ⟨rest, hahead, hrest⟩
    cases hahead with
    | ahead htest => exact ⟨htest, hrest⟩
  · rintro ⟨htest, hword⟩
    exact ⟨input, .ahead htest, hword⟩

theorem word_named (nonterminal : Nonterminal) : Word (.named nonterminal :: forms) input ↔
    Word (nonterminal.rule :: forms) input := by
  constructor
  · rintro ⟨rest, hnamed, hrest⟩
    cases hnamed with
    | named hrule => exact ⟨rest, hrule, hrest⟩
  · rintro ⟨rest, hrule, hrest⟩
    exact ⟨rest, .named hrule, hrest⟩

theorem word_among (heof : test .eof = false) : Word (.among test :: forms) input ↔
    test (headKind input) = true ∧ Word forms input.tail := by
  constructor
  · rintro ⟨rest, hamong, hrest⟩
    cases hamong with
    | among htest => exact ⟨htest, hrest⟩
  · rintro ⟨htest, hword⟩
    cases input with
    | nil => exact absurd htest (by rw [headKind, heof]; exact Bool.false_ne_true)
    | cons next rest => exact ⟨rest, .among htest, hword⟩

theorem word_word {word : ContextWord} : Word (.word word :: forms) input ↔
    input.head?.bind Lexeme.word? = some word ∧ Word forms input.tail := by
  constructor
  · rintro ⟨rest, hword, hrest⟩
    cases hword with
    | word hspells => exact ⟨hspells, hrest⟩
  · rintro ⟨hspells, hword⟩
    cases input with
    | nil => simp at hspells
    | cons next rest => exact ⟨rest, .word hspells, hword⟩

theorem word_just (heof : (TokenKind.eof == kind) = false) : Word (.just kind :: forms) input ↔
    headKind input = kind ∧ Word forms input.tail := by
  rw [Form.just, word_among heof, beq_iff_eq]

theorem word_identifier : Word (.identifier :: forms) input ↔
    (headKind input).isIdentifierLike = true ∧ Word forms input.tail :=
  word_among rfl

theorem word_optional : Word (.optional form :: forms) input ↔
    Word forms input ∨ Word (form :: forms) input := by
  rw [Form.optional, word_either, word_nothing]

/-- What passes a test is read as far as possible, if nothing that passes it may follow. -/
theorem word_many_among (heof : test .eof = false)
    (stops : ∀ rest, Word forms rest → test (headKind rest) = false) :
    Word (.many (.among test) :: forms) input ↔
      Word forms (input.drop (input.takeWhile fun lexeme => test lexeme.kind).length) := by
  induction input with
  | nil =>
    rw [word_many, word_among heof, headKind, heof]
    exact or_iff_left fun h => absurd h.1 Bool.false_ne_true
  | cons next rest ih =>
    rw [word_many, word_among heof, List.tail_cons, headKind, ih, List.takeWhile_cons]
    split
    case isTrue hnext =>
      rw [and_iff_right hnext, List.length_cons, List.drop_succ_cons]
      refine or_iff_right fun hstop => ?_
      have := stops _ hstop
      rw [headKind, hnext] at this
      simp at this
    case isFalse hnext => exact or_iff_left fun h => hnext h.1

end ProtoFront
