import ProtoFront.Proofs.Token.Spacing

/-!
# The rules of the tokens

Which texts are tokens, and of which kinds, is said by rules, one for each form that tokens have
(`Lexer.Spells`). A source is cut at each place behind the longest text that a rule allows there,
and the rules allow that text as a token of one kind only (`longest_piece`). Where they allow no
text at all, the piece is invalid: then it is a block comment or a string that is not closed, or a
single character (`invalid_piece`).
-/

namespace ProtoFront

namespace Lexer

/-! ## The rules -/

/-- Digits, at least one. -/
def IsDigits (text : List Char) : Prop := text ≠ [] ∧ ∀ c ∈ text, c.isDigit = true

/-- The exponent of a float: its letter, perhaps a sign, and digits. -/
inductive IsExponent : List Char → Prop
  | plain {letter : Char} {digits : List Char} (hletter : letter = 'e' ∨ letter = 'E')
      (hdigits : IsDigits digits) : IsExponent (letter :: digits)
  | signed {letter sign : Char} {digits : List Char} (hletter : letter = 'e' ∨ letter = 'E')
      (hsign : sign = '+' ∨ sign = '-') (hdigits : IsDigits digits) :
      IsExponent (letter :: sign :: digits)

/-- What may stand between quotes: no quote of the same sort, no line feed, and a backslash only in
front of the character that it escapes. -/
inductive IsContent (quote : Char) : List Char → Prop
  | nil : IsContent quote []
  | plain {c : Char} {text : List Char} (inside : c ≠ quote) (single : c ≠ '\\') (within : c ≠ '\n')
      (more : IsContent quote text) : IsContent quote (c :: text)
  | escaped {c : Char} {text : List Char} (within : c ≠ '\n') (more : IsContent quote text) :
      IsContent quote ('\\' :: c :: text)

/-- The texts of the tokens of each kind. A word is of the kind of the word that it spells, and an
identifier if it spells none. A block comment is closed where it can be closed first. -/
inductive Spells : TokenKind → List Char → Prop
  | word {first : Char} {text : List Char} (starts : isWordStart first = true)
      (goesOn : ∀ c ∈ text, isWordChar c = true) :
      Spells (.ofWord (String.ofList (first :: text))) (first :: text)
  | int {digits : List Char} (hdigits : IsDigits digits) : Spells .intLiteral digits
  | hex {marker : Char} {digits : List Char} (hmarker : marker = 'x' ∨ marker = 'X')
      (nonempty : digits ≠ []) (hdigits : ∀ c ∈ digits, isHexDigit c = true) :
      Spells .intLiteral ('0' :: marker :: digits)
  | pointed {whole fraction exponent : List Char} (hwhole : IsDigits whole)
      (hfraction : ∀ c ∈ fraction, c.isDigit = true)
      (scaled : exponent = [] ∨ IsExponent exponent) :
      Spells .floatLiteral (whole ++ '.' :: (fraction ++ exponent))
  | fraction {fraction exponent : List Char} (hfraction : IsDigits fraction)
      (scaled : exponent = [] ∨ IsExponent exponent) :
      Spells .floatLiteral ('.' :: (fraction ++ exponent))
  | scaled {whole exponent : List Char} (hwhole : IsDigits whole)
      (hexponent : IsExponent exponent) : Spells .floatLiteral (whole ++ exponent)
  | string {quote : Char} {content : List Char} (hquote : quote = '"' ∨ quote = '\'')
      (hcontent : IsContent quote content) : Spells .stringLiteral (quote :: (content ++ [quote]))
  | lineComment {text : List Char} (within : '\n' ∉ text) :
      Spells .lineComment ('/' :: '/' :: text)
  | blockComment {text : List Char} (first : ¬['*', '/'] <:+: text ++ ['*']) :
      Spells .blockComment ('/' :: '*' :: (text ++ ['*', '/']))
  | sign {c : Char} {kind : TokenKind} (h : kind.spelling? = some (String.ofList [c])) :
      Spells kind [c]

variable {inClass : Char → Bool} {c first quote : Char} {cs text rest : List Char}
variable {kind : TokenKind}

/-! ## Runs -/

theorem take_runLength (inClass : Char → Bool) (cs : List Char) :
    cs.take (runLength inClass cs) = cs.takeWhile inClass :=
  (List.prefix_iff_eq_take.mp (List.takeWhile_prefix inClass)).symm

theorem of_mem_take_runLength (h : c ∈ cs.take (runLength inClass cs)) : inClass c = true := by
  rw [take_runLength] at h
  exact List.mem_takeWhile_imp h

theorem runLength_append (run : ∀ c ∈ text, inClass c = true) (rest : List Char) :
    runLength inClass (text ++ rest) = text.length + runLength inClass rest := by
  rw [runLength, List.takeWhile_append_of_pos run, List.length_append, runLength]

/-- A run of digits, if there is one. -/
theorem isDigits_take (h : runLength Char.isDigit cs ≠ 0) :
    IsDigits (cs.take (runLength Char.isDigit cs)) := by
  refine ⟨fun hnil => h ?_, fun c => of_mem_take_runLength⟩
  have hlength := congrArg List.length hnil
  rwa [List.length_take, Nat.min_eq_left (runLength_le _ _)] at hlength

/-! ## What is found is allowed -/

/-- What is taken for an exponent is one, unless nothing is taken. -/
theorem take_exponentLength (cs : List Char) :
    cs.take (exponentLength cs) = [] ∨ IsExponent (cs.take (exponentLength cs)) := by
  fun_cases exponentLength cs with
  | case1 | case2 | case6 | case7 => exact .inl rfl
  | case3 letter hletter sign digits hsign n hdigits =>
    have run := isDigits_take (hdigits ▸ Nat.succ_ne_zero n)
    rw [hdigits] at run
    exact .inr (.signed (by simpa using hletter) (by simpa using hsign) run)
  | case4 letter hletter sign digits hsign hdigits =>
    rw [hdigits]
    exact .inl rfl
  | case5 letter hletter sign digits hsign n hdigits =>
    have run := isDigits_take (hdigits ▸ Nat.succ_ne_zero n)
    rw [hdigits] at run ⊢
    exact .inr (.plain (by simpa using hletter) run)

theorem spells_hex (h : hexLength cs ≠ 0) : Spells .intLiteral ('0' :: cs.take (hexLength cs)) := by
  revert h
  fun_cases hexLength cs with
  | case1 | case3 | case4 => exact fun h => absurd rfl h
  | case2 marker digits hmarker n hdigits =>
    intro _
    have run : ∀ c ∈ digits.take (runLength isHexDigit digits), isHexDigit c = true :=
      fun c => of_mem_take_runLength
    have hlength := List.length_take_of_le (runLength_le isHexDigit digits)
    rw [hdigits] at run hlength
    refine .hex (by simpa using hmarker) (fun hnil => ?_) run
    rw [hnil] at hlength
    cases hlength

theorem isContent_take (quote : Char) (cs : List Char) :
    IsContent quote (cs.take (contentLength quote cs)) := by
  fun_induction contentLength quote cs with
  | case1 | case2 | case4 => exact .nil
  | case3 escaped rest visible ih => exact .escaped (by simpa using visible) ih
  | case5 c rest single goesOn ih =>
    simp only [Bool.or_eq_true, beq_iff_eq, not_or] at goesOn
    exact .plain goesOn.1.1 goesOn.1.2 goesOn.2 ih

/-- A comment reaches to the first place where it can be closed. -/
theorem exists_of_commentLength? {n : Nat} (h : commentLength? cs = some n) :
    ∃ text rest, cs = text ++ '*' :: '/' :: rest ∧ n = text.length + 2 ∧
      ¬['*', '/'] <:+: text ++ ['*'] := by
  fun_induction commentLength? cs generalizing n with
  | case1 => cases h
  | case2 rest =>
    obtain rfl := Option.some.inj h
    exact ⟨[], rest, rfl, rfl, by decide⟩
  | case3 c tail plain ih =>
    obtain ⟨m, hm, rfl⟩ := Option.map_eq_some_iff.mp h
    obtain ⟨text, rest, rfl, rfl, first⟩ := ih hm
    refine ⟨c :: text, rest, rfl, rfl, fun closes => ?_⟩
    rcases List.infix_cons_iff.mp closes with hhere | hlater
    · -- it would have been closed by this character and the next one
      rcases text with _ | ⟨next, text⟩
      · cases (List.cons_prefix_cons.mp (List.cons_prefix_cons.mp hhere).2).1
      · obtain ⟨rfl, hnext⟩ := List.cons_prefix_cons.mp hhere
        obtain ⟨rfl, -⟩ := List.cons_prefix_cons.mp hnext
        exact plain _ rfl rfl
    · exact first hlater

theorem not_closed_of_commentLength? (h : commentLength? cs = none) :
    ¬['*', '/'] <:+: cs := by
  fun_induction commentLength? cs with
  | case1 => exact fun closes => absurd (List.eq_nil_of_infix_nil closes) (List.cons_ne_nil _ _)
  | case2 => cases h
  | case3 c tail plain ih =>
    intro closes
    rcases List.infix_cons_iff.mp closes with hhere | hlater
    · obtain ⟨rfl, rest, rfl⟩ := List.cons_prefix_cons.mp hhere
      exact plain rest rfl rfl
    · exact ih (Option.map_eq_none_iff.mp h) hlater

theorem commentLength?_of_first (first : ¬['*', '/'] <:+: text ++ ['*']) (rest : List Char) :
    commentLength? (text ++ '*' :: '/' :: rest) = some (text.length + 2) := by
  induction text with
  | nil => rfl
  | cons c text ih =>
    have later := ih fun closes => first (List.infix_cons closes)
    rw [List.cons_append, commentLength?, later]
    · rfl
    · rintro more rfl hnext
      refine first ?_
      rcases text with _ | ⟨next, text⟩
      · cases (List.cons.inj hnext).1
      · obtain rfl := (List.cons.inj hnext).1
        exact (List.prefix_append ['*', '/'] (text ++ ['*'])).isInfix

theorem contentLength_append (h : IsContent quote text) (hquote : quote ≠ '\\')
    (rest : List Char) : contentLength quote (text ++ quote :: rest) = text.length := by
  induction h with
  | nil =>
    rw [List.nil_append, contentLength]
    · simp
    · exact fun _ _ hescape _ => hquote hescape
  | plain inside single within _ ih =>
    rw [List.cons_append, contentLength, ih]
    · simp [inside, single, within]
    · exact fun _ _ hescape _ => single hescape
  | escaped within _ ih =>
    rw [List.cons_append, List.cons_append, contentLength, ih]
    simp [within]

theorem exponentLength_append (h : IsExponent text) (rest : List Char) :
    text.length ≤ exponentLength (text ++ rest) := by
  cases h with
  | signed hletter hsign hdigits =>
    obtain ⟨nonempty, hdigits⟩ := hdigits
    have hrun := runLength_append hdigits rest
    have hpos := List.length_pos_iff_ne_nil.mpr nonempty
    simp only [List.cons_append, exponentLength, beq_iff_eq, Bool.or_eq_true, hletter, hsign,
      if_true, List.length_cons]
    split <;> omega
  | @plain letter digits hletter hdigits =>
    obtain ⟨nonempty, hdigits⟩ := hdigits
    have hrun := runLength_append hdigits rest
    rcases digits with _ | ⟨digit, digits⟩
    · exact absurd rfl nonempty
    · have hdigit := hdigits digit List.mem_cons_self
      have unsigned : ¬(digit = '+' ∨ digit = '-') := by
        rintro (rfl | rfl) <;> cases hdigit
      rw [List.cons_append] at hrun
      simp only [List.cons_append, exponentLength, beq_iff_eq, Bool.or_eq_true, hletter, unsigned,
        if_true, if_false, List.length_cons, hrun]
      rw [List.length_cons, Nat.add_right_comm] at hrun
      split <;> omega

theorem IsExponent.exists_letter (h : IsExponent text) :
    ∃ letter more, text = letter :: more ∧ (letter = 'e' ∨ letter = 'E') := by
  cases h with
  | plain hletter | signed hletter => exact ⟨_, _, rfl, hletter⟩

/-- Digits end where an exponent begins. -/
theorem IsExponent.runLength_append (h : IsExponent text) (rest : List Char) :
    runLength Char.isDigit (text ++ rest) = 0 := by
  obtain ⟨letter, more, rfl, rfl | rfl⟩ := h.exists_letter <;> rfl

/-- Digits are followed by all of the exponent that is behind them. -/
theorem length_le_fraction {digits exponent : List Char} (run : ∀ c ∈ digits, c.isDigit = true)
    (scaled : exponent = [] ∨ IsExponent exponent) (rest : List Char) :
    digits.length + exponent.length ≤ runLength Char.isDigit (digits ++ (exponent ++ rest)) +
      exponentLength ((digits ++ (exponent ++ rest)).drop
        (runLength Char.isDigit (digits ++ (exponent ++ rest)))) := by
  rw [runLength_append run]
  rcases scaled with rfl | hexponent
  · rw [List.length_nil]
    omega
  · have hlength := exponentLength_append hexponent rest
    rw [hexponent.runLength_append, Nat.add_zero, List.drop_left]
    omega

/-! ## Nothing longer is allowed -/

/-- What is found where a text of a kind is allowed: it is no shorter than the text, and of the
same kind if it is no longer. It is valid, unless a slash opens a comment that is not closed. -/
structure Outdoes (found : TokenKind × Nat) (kind : TokenKind) (length : Nat) : Prop where
  reaches : length ≤ found.2
  alike : length = found.2 → kind = found.1
  slash_of_invalid : found.1 = .invalid → kind = .slash

theorem Outdoes.of_valid {found : TokenKind × Nat} {length : Nat} (reaches : length ≤ found.2)
    (alike : length = found.2 → kind = found.1) (valid : found.1 ≠ .invalid) :
    Outdoes found kind length :=
  ⟨reaches, alike, fun hinvalid => absurd hinvalid valid⟩

theorem outdoes_self {length : Nat} (valid : kind ≠ .invalid) :
    Outdoes (kind, length) kind length :=
  .of_valid (Nat.le_refl _) (fun _ => rfl) valid

/-- Behind a leading zero comes no digit and no point where a hexadecimal number is read. -/
theorem hexLength_eq_zero (cs : List Char) (h : ∀ c ∈ cs.head?, c ≠ 'x' ∧ c ≠ 'X')
    (first : Char) :
    (if first == '0' then hexLength cs else 0) = 0 := by
  split
  · rcases cs with _ | ⟨c, cs⟩
    · rfl
    · obtain ⟨lower, upper⟩ := h c rfl
      simp [hexLength, lower, upper]
  · rfl

theorem hexLength_append {marker : Char} (hmarker : marker = 'x' ∨ marker = 'X')
    (nonempty : text ≠ []) (run : ∀ c ∈ text, isHexDigit c = true) (rest : List Char) :
    text.length + 1 ≤ hexLength (marker :: (text ++ rest)) := by
  have hrun := runLength_append run rest
  have hpos := List.length_pos_iff_ne_nil.mpr nonempty
  simp only [hexLength, beq_iff_eq, Bool.or_eq_true, hmarker, if_true]
  split <;> omega

theorem outdoes_hex {marker : Char} (hmarker : marker = 'x' ∨ marker = 'X')
    (nonempty : text ≠ []) (run : ∀ c ∈ text, isHexDigit c = true) (rest : List Char) :
    Outdoes (numberExtent '0' (marker :: (text ++ rest))) .intLiteral (text.length + 1) := by
  have hlength := hexLength_append hmarker nonempty run rest
  rcases hhex : hexLength (marker :: (text ++ rest)) with _ | n
  · omega
  · rw [hhex] at hlength
    have hnumber : numberExtent '0' (marker :: (text ++ rest)) = (.intLiteral, n + 1) := by
      rw [numberExtent, beq_self_eq_true, if_pos rfl, hhex]
    rw [hnumber]
    exact .of_valid hlength (fun _ => rfl) (by simp)

/-- Digits keep what is behind them from being read as a hexadecimal number. -/
theorem ne_marker_of_mem_head? {digits : List Char} (run : ∀ c ∈ digits, c.isDigit = true)
    (behind : digits = [] → ∀ c ∈ rest.head?, c ≠ 'x' ∧ c ≠ 'X') :
    ∀ c ∈ (digits ++ rest).head?, c ≠ 'x' ∧ c ≠ 'X' := by
  rcases digits with _ | ⟨digit, digits⟩
  · exact behind rfl
  · intro c hc
    obtain rfl := Option.some.inj hc
    have hdigit := run _ List.mem_cons_self
    constructor <;> rintro rfl <;> cases hdigit

theorem outdoes_int (run : ∀ c ∈ text, c.isDigit = true) (first : Char) (rest : List Char) :
    Outdoes (numberExtent first (text ++ rest)) .intLiteral text.length := by
  have hrun := runLength_append run rest
  rcases hhex : (if first == '0' then hexLength (text ++ rest) else 0) with _ | n
  · by_cases point : ∃ digits, (text ++ rest).drop (runLength Char.isDigit (text ++ rest)) =
        '.' :: digits
    · obtain ⟨digits, point⟩ := point
      rw [numberExtent_of_point hhex point]
      exact .of_valid (by dsimp only; omega)
        (fun hlength => by dsimp only at hlength; omega) (by simp)
    · rw [numberExtent_of_no_point hhex (not_exists.mp point)]
      refine .of_valid (by dsimp only; omega) (fun hlength => ?_) (by dsimp only; split <;> simp)
      dsimp only at hlength ⊢
      rw [if_pos (by omega)]
  · have hnumber : numberExtent first (text ++ rest) = (.intLiteral, n + 1) := by
      rw [numberExtent, hhex]
    rw [hnumber]
    refine .of_valid ?_ (fun _ => rfl) (by simp)
    rcases text with _ | ⟨digit, text⟩
    · exact Nat.zero_le _
    · have nohex := hexLength_eq_zero (digit :: text ++ rest)
        (ne_marker_of_mem_head? run fun hnil => absurd hnil (List.cons_ne_nil _ _)) first
      rw [nohex] at hhex
      cases hhex

theorem outdoes_pointed {digits fraction exponent : List Char}
    (run : ∀ c ∈ digits, c.isDigit = true) (hfraction : ∀ c ∈ fraction, c.isDigit = true)
    (scaled : exponent = [] ∨ IsExponent exponent) (first : Char) (rest : List Char) :
    Outdoes (numberExtent first (digits ++ '.' :: (fraction ++ (exponent ++ rest)))) .floatLiteral
      (digits.length + 1 + (fraction.length + exponent.length)) := by
  have hdigits : runLength Char.isDigit (digits ++ '.' :: (fraction ++ (exponent ++ rest))) =
      digits.length := runLength_append run _
  have nohex := hexLength_eq_zero (digits ++ '.' :: (fraction ++ (exponent ++ rest)))
    (ne_marker_of_mem_head? run fun _ => by simp) first
  have point : (digits ++ '.' :: (fraction ++ (exponent ++ rest))).drop
      (runLength Char.isDigit (digits ++ '.' :: (fraction ++ (exponent ++ rest)))) =
        '.' :: (fraction ++ (exponent ++ rest)) := by
    rw [hdigits, List.drop_left]
  have hlength := length_le_fraction hfraction scaled rest
  rw [numberExtent_of_point nohex point, hdigits]
  exact .of_valid (by dsimp only; omega) (fun _ => rfl) (by simp)

theorem outdoes_scaled {digits exponent : List Char} (run : ∀ c ∈ digits, c.isDigit = true)
    (hexponent : IsExponent exponent) (first : Char) (rest : List Char) :
    Outdoes (numberExtent first (digits ++ (exponent ++ rest))) .floatLiteral
      (digits.length + exponent.length) := by
  obtain ⟨letter, more, rfl, hletter⟩ := hexponent.exists_letter
  have hdigits : runLength Char.isDigit (digits ++ (letter :: more ++ rest)) = digits.length := by
    rw [runLength_append run, hexponent.runLength_append, Nat.add_zero]
  have nohex := hexLength_eq_zero (digits ++ (letter :: more ++ rest))
    (ne_marker_of_mem_head? run fun _ => by rcases hletter with rfl | rfl <;> simp) first
  have hdrop : (digits ++ (letter :: more ++ rest)).drop
      (runLength Char.isDigit (digits ++ (letter :: more ++ rest))) = letter :: more ++ rest := by
    rw [hdigits, List.drop_left]
  have point (behind : List Char) : (digits ++ (letter :: more ++ rest)).drop
      (runLength Char.isDigit (digits ++ (letter :: more ++ rest))) ≠ '.' :: behind := by
    rw [hdrop]
    rintro hpoint
    obtain rfl := (List.cons.inj hpoint).1
    rcases hletter with hletter | hletter <;> cases hletter
  have hlength := exponentLength_append hexponent rest
  have long : exponentLength (letter :: more ++ rest) ≠ 0 := by
    rw [List.length_cons] at hlength
    omega
  rw [numberExtent_of_no_point nohex point, hdrop, hdigits, if_neg long]
  exact .of_valid (Nat.add_le_add_left hlength _) (fun _ => rfl) (by simp)

theorem outdoes_fraction {digits exponent : List Char} (hdigits : IsDigits digits)
    (scaled : exponent = [] ∨ IsExponent exponent) (rest : List Char) :
    Outdoes (dotExtent (digits ++ (exponent ++ rest))) .floatLiteral
      (digits.length + exponent.length) := by
  obtain ⟨nonempty, run⟩ := hdigits
  have hlength := length_le_fraction run scaled rest
  have hpos := List.length_pos_iff_ne_nil.mpr nonempty
  have hrun := runLength_append run (exponent ++ rest)
  rcases hfraction : runLength Char.isDigit (digits ++ (exponent ++ rest)) with _ | n
  · omega
  · rw [hfraction] at hlength
    rw [dotExtent, hfraction]
    exact .of_valid hlength (fun _ => rfl) (by simp)

theorem outdoes_string (hquote : quote = '"' ∨ quote = '\'') (hcontent : IsContent quote text)
    (rest : List Char) :
    Outdoes (stringExtent quote (text ++ quote :: rest)) .stringLiteral (text.length + 1) := by
  have visible : quote ≠ '\\' := by rcases hquote with rfl | rfl <;> decide
  have hlength := contentLength_append hcontent visible rest
  have closed : ((text ++ quote :: rest).drop text.length).head? = some quote := by
    rw [List.drop_left, List.head?_cons]
  rw [stringExtent, hlength, closed, if_pos (beq_self_eq_true _)]
  exact outdoes_self (by simp)

theorem outdoes_lineComment (within : '\n' ∉ text) (rest : List Char) :
    Outdoes (slashExtent ('/' :: (text ++ rest))) .lineComment (text.length + 1) := by
  have run : ∀ c ∈ text, (c != '\n') = true := fun c hc => by
    rw [bne_iff_ne]
    rintro rfl
    exact within hc
  have hrun := runLength_append run rest
  exact .of_valid (by rw [slashExtent]; dsimp only; omega) (fun _ => rfl) (by simp [slashExtent])

theorem outdoes_blockComment (closes : ¬['*', '/'] <:+: text ++ ['*']) (rest : List Char) :
    Outdoes (slashExtent ('*' :: (text ++ '*' :: '/' :: rest))) .blockComment
      (text.length + 3) := by
  rw [slashExtent, commentLength?_of_first closes rest]
  exact outdoes_self (by simp)

/-- The single characters that are tokens. -/
theorem mem_signs (h : kind.spelling? = some (String.ofList [c])) :
    (c, kind) ∈ [(';', .semicolon), (',', .comma), ('.', .dot), ('=', .equals), (':', .colon),
      ('-', .minus), ('+', .plus), ('/', .slash), ('\x7b', .opener .brace), ('(', .opener .paren),
      ('[', .opener .square), ('<', .opener .angle), ('\x7d', .closer .brace),
      (')', .closer .paren), (']', .closer .square), ('>', TokenKind.closer .angle)] := by
  have spelled {spelling : String} {d : Char} (hspelling : some spelling = some (String.ofList [c]))
      (hchars : spelling = String.ofList [d]) : c = d := by
    have hchars := congrArg String.toList ((Option.some.inj hspelling).symm.trans hchars)
    rw [String.toList_ofList, String.toList_ofList] at hchars
    exact (List.cons.inj hchars).1
  have long {spelling : String} (hspelling : some spelling = some (String.ofList [c])) :
      spelling.toList.length = 1 := by
    rw [Option.some.inj hspelling, String.toList_ofList]
    rfl
  cases kind with
  | opener pair | closer pair => cases pair <;> simp [spelled h rfl]
  | keyword word => cases word <;> exact absurd (long h) (by decide)
  | scalar type => cases type <;> exact absurd (long h) (by decide)
  | _ =>
    first
    | cases h
    | simp [spelled h rfl]

/-! ## The first character decides -/

theorem extent_of_isWordStart (h : isWordStart c = true) (cs : List Char) :
    extent c cs = (some (.ofWord (String.ofList (c :: cs.take (runLength isWordChar cs)))),
      runLength isWordChar cs) := by
  rw [extent, if_neg (Bool.eq_false_iff.mp (isBlank_of_isWordStart h)), if_pos h]

theorem extent_of_isDigit (h : c.isDigit = true) (cs : List Char) :
    extent c cs = (numberExtent c cs).map some id := by
  have visible : ¬isBlank c = true := fun hblank => by
    have hmem := mem_of_isBlank hblank
    simp only [List.mem_cons, List.not_mem_nil, or_false] at hmem
    rcases hmem with rfl | rfl | rfl | rfl | rfl <;> cases h
  have other : ¬isWordStart c = true := fun hword => by
    rcases Bool.or_eq_true_iff.mp hword with hletter | hscore
    · -- digits stand in front of all letters
      have hdigit := (Char.isDigit_iff_toNat.mp h).2
      rcases Bool.or_eq_true_iff.mp hletter with hupper | hlower
      · have hcase : 'A'.toNat ≤ c.toNat := (of_decide_eq_true hupper).1
        exact absurd (hcase.trans hdigit) (by decide)
      · have hcase : 'a'.toNat ≤ c.toNat :=
          of_decide_eq_true (Bool.and_eq_true_iff.mp hlower).1
        exact absurd (hcase.trans hdigit) (by decide)
    · obtain rfl := beq_iff_eq.mp hscore
      cases h
  rw [extent, if_neg visible, if_neg other, if_pos h]

theorem extent_of_quote (h : c = '"' ∨ c = '\'') (cs : List Char) :
    extent c cs = (stringExtent c cs).map some id := by
  rcases h with rfl | rfl <;> rfl

theorem ofWord_ne_invalid (word : String) : TokenKind.ofWord word ≠ .invalid := by
  intro hinvalid
  have hlike := isIdentifierLike_ofWord word
  rw [hinvalid] at hlike
  cases hlike

theorem outdoes_word (run : ∀ d ∈ text, isWordChar d = true) (rest : List Char) :
    Outdoes
      (.ofWord (String.ofList (c :: (text ++ rest).take (runLength isWordChar (text ++ rest)))),
        runLength isWordChar (text ++ rest))
      (.ofWord (String.ofList (c :: text))) text.length := by
  have hrun := runLength_append run rest
  refine .of_valid (by dsimp only; omega) (fun hlength => ?_) (ofWord_ne_invalid _)
  dsimp only at hlength ⊢
  rw [← hlength, List.take_left]

theorem outdoes_dot (rest : List Char) : Outdoes (dotExtent rest) .dot 0 := by
  rw [dotExtent]
  split
  · exact outdoes_self (by simp)
  · exact .of_valid (Nat.zero_le _) (fun hlength => by dsimp only at hlength; omega) (by simp)

theorem outdoes_slash (rest : List Char) : Outdoes (slashExtent rest) .slash 0 := by
  refine ⟨Nat.zero_le _, fun hlength => ?_, fun _ => rfl⟩
  revert hlength
  fun_cases slashExtent rest with
  | case1 | case2 | case3 => exact fun hlength => absurd hlength (by simp)
  | case4 => exact fun _ => rfl

theorem outdoes_sign (h : kind.spelling? = some (String.ofList [c])) (rest : List Char) :
    ∃ found, extent c rest = found.map some id ∧ Outdoes found kind 0 := by
  by_cases dot : c = '.'
  · subst dot
    have hsign := mem_signs h
    simp at hsign
    exact ⟨dotExtent rest, rfl, hsign ▸ outdoes_dot rest⟩
  by_cases slash : c = '/'
  · subst slash
    have hsign := mem_signs h
    simp at hsign
    exact ⟨slashExtent rest, rfl, hsign ▸ outdoes_slash rest⟩
  -- nothing longer begins with any other sign
  have hsign := mem_signs h
  simp only [List.mem_cons, Prod.mk.injEq, dot, slash, false_and, false_or, List.not_mem_nil,
    or_false] at hsign
  rcases hsign with ⟨rfl, rfl⟩ | ⟨rfl, rfl⟩ | ⟨rfl, rfl⟩ | ⟨rfl, rfl⟩ | ⟨rfl, rfl⟩ |
    ⟨rfl, rfl⟩ | ⟨rfl, rfl⟩ | ⟨rfl, rfl⟩ | ⟨rfl, rfl⟩ | ⟨rfl, rfl⟩ | ⟨rfl, rfl⟩ | ⟨rfl, rfl⟩ |
    ⟨rfl, rfl⟩ | ⟨rfl, rfl⟩
  all_goals exact ⟨(_, 0), rfl, outdoes_self (by decide)⟩

/-- Whatever begins at a place of a source and is allowed, what is found there outdoes it. -/
theorem outdoes_extent (h : Spells kind (c :: text)) (rest : List Char) :
    ∃ found, extent c (text ++ rest) = found.map some id ∧ Outdoes found kind text.length := by
  generalize hall : c :: text = all at h
  cases h with
  | word starts goesOn =>
    obtain ⟨rfl, rfl⟩ := List.cons.inj hall
    exact ⟨_, extent_of_isWordStart starts _, outdoes_word goesOn rest⟩
  | int hdigits =>
    subst hall
    obtain ⟨hdigit, run⟩ := List.forall_mem_cons.mp hdigits.2
    exact ⟨_, extent_of_isDigit hdigit _, outdoes_int run c rest⟩
  | @hex marker digits hmarker nonempty hdigits =>
    obtain ⟨rfl, rfl⟩ := List.cons.inj hall
    exact ⟨_, extent_of_isDigit rfl _, outdoes_hex hmarker nonempty hdigits rest⟩
  | @pointed whole fraction exponent hwhole hfraction scaled =>
    rcases whole with _ | ⟨digit, whole⟩
    · exact absurd rfl hwhole.1
    · obtain ⟨rfl, rfl⟩ := List.cons.inj hall
      obtain ⟨hdigit, run⟩ := List.forall_mem_cons.mp hwhole.2
      have found := outdoes_pointed run hfraction scaled c rest
      refine ⟨_, extent_of_isDigit hdigit _, ?_⟩
      rw [List.append_eq, List.append_assoc, List.cons_append, List.append_assoc,
        List.length_append, List.length_cons, List.length_append, Nat.add_comm _ 1,
        ← Nat.add_assoc]
      exact found
  | fraction hfraction scaled =>
    obtain ⟨rfl, rfl⟩ := List.cons.inj hall
    refine ⟨dotExtent _, rfl, ?_⟩
    rw [List.append_assoc, List.length_append]
    exact outdoes_fraction hfraction scaled rest
  | @scaled whole exponent hwhole hexponent =>
    rcases whole with _ | ⟨digit, whole⟩
    · exact absurd rfl hwhole.1
    · obtain ⟨rfl, rfl⟩ := List.cons.inj hall
      obtain ⟨hdigit, run⟩ := List.forall_mem_cons.mp hwhole.2
      refine ⟨_, extent_of_isDigit hdigit _, ?_⟩
      rw [List.append_eq, List.append_assoc, List.length_append]
      exact outdoes_scaled run hexponent c rest
  | string hquote hcontent =>
    obtain ⟨rfl, rfl⟩ := List.cons.inj hall
    refine ⟨_, extent_of_quote hquote _, ?_⟩
    rw [List.append_assoc, List.length_append]
    exact outdoes_string hquote hcontent rest
  | lineComment within =>
    obtain ⟨rfl, rfl⟩ := List.cons.inj hall
    exact ⟨slashExtent _, rfl, outdoes_lineComment within rest⟩
  | blockComment closes =>
    obtain ⟨rfl, rfl⟩ := List.cons.inj hall
    rw [List.cons_append, List.append_assoc, List.length_cons, List.length_append]
    exact ⟨slashExtent _, rfl, outdoes_blockComment closes rest⟩
  | sign hspelling =>
    obtain ⟨rfl, rfl⟩ := List.cons.inj hall
    exact outdoes_sign hspelling rest

/-! ## What is found is a token -/

theorem spells_number (hdigit : c.isDigit = true) (cs : List Char) :
    Spells (numberExtent c cs).1 (c :: cs.take (numberExtent c cs).2) := by
  have hwhole : IsDigits (c :: cs.take (runLength Char.isDigit cs)) :=
    ⟨List.cons_ne_nil _ _, List.forall_mem_cons.mpr ⟨hdigit, fun _ => of_mem_take_runLength⟩⟩
  rcases hhex : (if c == '0' then hexLength cs else 0) with _ | n
  · by_cases point : ∃ digits, cs.drop (runLength Char.isDigit cs) = '.' :: digits
    · obtain ⟨digits, point⟩ := point
      rw [numberExtent_of_point hhex point]
      dsimp only
      rw [Nat.add_assoc, Nat.add_assoc, List.take_add, point, Nat.add_comm 1, List.take_succ_cons,
        List.take_add]
      exact .pointed hwhole (fun _ => of_mem_take_runLength) (take_exponentLength _)
    · rw [numberExtent_of_no_point hhex (not_exists.mp point)]
      dsimp only
      rw [List.take_add]
      rcases take_exponentLength (cs.drop (runLength Char.isDigit cs)) with hnone | hsome
      · have hlength := congrArg List.length hnone
        rw [List.length_take, Nat.min_eq_left (exponentLength_le _), List.length_nil] at hlength
        rw [if_pos hlength, hnone, List.append_nil]
        exact .int hwhole
      · rw [if_neg]
        · exact .scaled hwhole hsome
        · intro hlength
          rw [hlength] at hsome
          cases hsome
  · have hzero : c = '0' := by
      by_contra hother
      rw [if_neg (by simpa using hother)] at hhex
      cases hhex
    subst hzero
    have hnumber : numberExtent '0' cs = (.intLiteral, n + 1) := by
      rw [numberExtent, hhex]
    have hlength : hexLength cs = n + 1 := hhex
    have found := spells_hex (hlength.trans_ne (Nat.succ_ne_zero n))
    rw [hnumber]
    rwa [hlength] at found

theorem spells_dot (cs : List Char) :
    Spells (dotExtent cs).1 ('.' :: cs.take (dotExtent cs).2) := by
  rcases hfraction : runLength Char.isDigit cs with _ | n
  · rw [dotExtent, hfraction]
    exact .sign rfl
  · have run := isDigits_take (hfraction.trans_ne (Nat.succ_ne_zero n))
    rw [hfraction] at run
    rw [dotExtent, hfraction]
    dsimp only
    rw [List.take_add]
    exact .fraction run (take_exponentLength _)

theorem spells_string (hquote : quote = '"' ∨ quote = '\'') (cs : List Char)
    (valid : (stringExtent quote cs).1 ≠ .invalid) :
    Spells (stringExtent quote cs).1 (quote :: cs.take (stringExtent quote cs).2) := by
  revert valid
  fun_cases stringExtent quote cs with
  | case1 content closed =>
    intro _
    have hquoted : cs.take (content + 1) = cs.take content ++ [quote] := by
      rw [List.take_add_one, ← List.head?_drop, beq_iff_eq.mp closed]
      rfl
    dsimp only
    rw [hquoted]
    exact .string hquote (isContent_take quote cs)
  | case2 => exact fun valid => absurd rfl valid

theorem spells_slash (cs : List Char) (valid : (slashExtent cs).1 ≠ .invalid) :
    Spells (slashExtent cs).1 ('/' :: cs.take (slashExtent cs).2) := by
  revert valid
  fun_cases slashExtent cs with
  | case1 rest =>
    exact fun _ => .lineComment fun hbreak => absurd (of_mem_take_runLength hbreak) (by simp)
  | case2 rest n closed =>
    intro _
    obtain ⟨text, behind, rfl, rfl, first⟩ := exists_of_commentLength? closed
    have taken : (text ++ '*' :: '/' :: behind).take (text.length + 2) = text ++ ['*', '/'] := by
      rw [List.take_length_add_append]
      rfl
    dsimp only
    rw [List.take_succ_cons, taken]
    exact .blockComment first
  | case3 => exact fun valid => absurd rfl valid
  | case4 => exact fun _ => .sign rfl

/-- What is found is a token by the rules, unless it is invalid. -/
theorem spells_extent (h : (extent c cs).1 = some kind) (valid : kind ≠ .invalid) :
    Spells kind (c :: cs.take (extent c cs).2) := by
  revert h
  fun_cases extent c cs with
  | case1 =>
    intro h
    cases h
  | case2 _ starts n =>
    rintro ⟨⟩
    exact .word starts fun _ => of_mem_take_runLength
  | case3 _ _ hdigit =>
    rintro ⟨⟩
    exact spells_number hdigit cs
  | case4 _ _ _ hdot =>
    rintro ⟨⟩
    obtain rfl := beq_iff_eq.mp hdot
    exact spells_dot cs
  | case5 _ _ _ _ hquote =>
    rintro ⟨⟩
    exact spells_string (by simpa using hquote) cs valid
  | case6 _ _ _ _ _ hslash =>
    rintro ⟨⟩
    obtain rfl := beq_iff_eq.mp hslash
    exact spells_slash cs valid
  | case7 =>
    rintro ⟨⟩
    rcases hsign : punctuation? c with _ | sign
    · rw [hsign] at valid
      exact absurd rfl valid
    · have hspelling := List.find?_some hsign
      exact .sign (beq_iff_eq.mp hspelling)

/-! ## What is invalid -/

theorem Spells.ne_nil (h : Spells kind text) : text ≠ [] := by
  cases h with
  | int hdigits => exact hdigits.1
  | pointed hwhole | scaled hwhole => exact List.append_ne_nil_of_left_ne_nil hwhole.1 _
  | _ => exact List.cons_ne_nil _ _

theorem not_spells_invalid (text : List Char) : ¬Spells .invalid text := by
  intro h
  generalize hkind : TokenKind.invalid = kind at h
  cases h with
  | word => exact ofWord_ne_invalid _ hkind.symm
  | sign hspelling =>
    subst hkind
    cases hspelling
  | _ => cases hkind

theorem eq_of_spells_slash (h : Spells .slash text) : text = ['/'] := by
  generalize hkind : TokenKind.slash = kind at h
  cases h with
  | @word first text =>
    have hlike := isIdentifierLike_ofWord (String.ofList (first :: text))
    rw [← hkind] at hlike
    cases hlike
  | @sign c _ hspelling =>
    subst hkind
    have hsign := mem_signs hspelling
    simp at hsign
    rw [hsign]
  | _ => cases hkind

/-- What becomes an invalid piece, in front of what is left of a source. -/
inductive IsErrorRun : List Char → List Char → Prop
  /-- A block comment that is never closed takes all that is left. -/
  | comment {text : List Char} (unclosed : ¬['*', '/'] <:+: text) :
      IsErrorRun ('/' :: '*' :: text) []
  /-- A string that is never closed takes all that may stand between its quotes. -/
  | string {quote : Char} {content rest : List Char} (hquote : quote = '"' ∨ quote = '\'')
      (hcontent : IsContent quote content)
      (longest : ∀ text, IsContent quote text → text <+: content ++ rest →
        text.length ≤ content.length)
      (unclosed : rest.head? ≠ some quote) : IsErrorRun (quote :: content) rest
  /-- Any other character with which no token begins stands alone. -/
  | character {c : Char} {rest : List Char} (blank : isBlank c = false)
      (begins : ∀ kind text, ¬Spells kind (c :: text)) : IsErrorRun [c] rest

theorem length_le_contentLength (h : IsContent quote text) (rest : List Char) :
    text.length ≤ contentLength quote (text ++ rest) := by
  induction h with
  | nil => exact Nat.zero_le _
  | plain inside single within _ ih =>
    rw [List.cons_append, contentLength]
    · simpa [inside, single, within] using ih
    · exact fun _ _ hescape _ => single hescape
  | escaped within _ ih =>
    rw [List.cons_append, List.cons_append, contentLength]
    simpa [within] using ih

theorem isErrorRun_string (hquote : quote = '"' ∨ quote = '\'') {cs : List Char}
    (h : (stringExtent quote cs).1 = .invalid) :
    IsErrorRun (quote :: cs.take (stringExtent quote cs).2)
      (cs.drop (stringExtent quote cs).2) := by
  revert h
  fun_cases stringExtent quote cs with
  | case1 =>
    intro h
    cases h
  | case2 content unclosed =>
    intro _
    refine .string hquote (isContent_take quote cs) (fun text hcontent hprefix => ?_)
      (by simpa using unclosed)
    obtain ⟨rest, hrest⟩ := List.take_append_drop content cs ▸ hprefix
    have hlongest := length_le_contentLength hcontent rest
    rw [List.length_take, Nat.min_eq_left (contentLength_le _ _)]
    rwa [hrest] at hlongest

theorem isErrorRun_slash (h : (slashExtent cs).1 = .invalid) :
    IsErrorRun ('/' :: cs.take (slashExtent cs).2) (cs.drop (slashExtent cs).2) := by
  revert h
  fun_cases slashExtent cs with
  | case3 rest unclosed =>
    intro _
    dsimp only
    have hall : ('*' :: rest).length ≤ rest.length + 1 := Nat.le_of_eq List.length_cons
    rw [List.take_of_length_le hall, List.drop_eq_nil_of_le hall]
    exact .comment (not_closed_of_commentLength? unclosed)
  | case1 | case2 | case4 =>
    intro h
    cases h

theorem isErrorRun_extent (h : (extent c cs).1 = some .invalid) :
    IsErrorRun (c :: cs.take (extent c cs).2) (cs.drop (extent c cs).2) := by
  revert h
  fun_cases extent c cs with
  | case1 =>
    intro h
    cases h
  | case2 =>
    exact fun h => absurd (Option.some.inj h) (ofWord_ne_invalid _)
  | case3 _ _ hdigit =>
    intro hinvalid
    have hnumber : (numberExtent c cs).1 = .invalid := Option.some.inj hinvalid
    have hspells := spells_number hdigit cs
    rw [hnumber] at hspells
    exact absurd hspells (not_spells_invalid _)
  | case4 =>
    intro hinvalid
    have hdot : (dotExtent cs).1 = .invalid := Option.some.inj hinvalid
    have hspells := spells_dot cs
    rw [hdot] at hspells
    exact absurd hspells (not_spells_invalid _)
  | case5 _ _ _ _ hquote =>
    exact fun h => isErrorRun_string (by simpa using hquote) (Option.some.inj h)
  | case6 _ _ _ _ _ hslash =>
    obtain rfl := beq_iff_eq.mp hslash
    exact fun h => isErrorRun_slash (Option.some.inj h)
  | case7 blank word digit dot quote slash =>
    intro hinvalid
    refine .character (Bool.eq_false_iff.mpr blank) fun kind text hspells => ?_
    obtain ⟨found, hfound, outdoes⟩ := outdoes_extent hspells []
    rw [extent, if_neg blank, if_neg word, if_neg digit, if_neg dot, if_neg quote, if_neg slash]
      at hfound
    have invalid : some found.1 = some .invalid := (Prod.mk.inj hfound).1.symm.trans hinvalid
    obtain rfl := outdoes.slash_of_invalid (Option.some.inj invalid)
    obtain ⟨rfl, -⟩ := List.cons.inj (eq_of_spells_slash hspells)
    exact slash rfl

/-! ## The pieces of a source -/

/-- Each piece is what is found where all in front of it has been cut off. -/
theorem piece_of_pieces {source : List Char} {before after : List Piece} {piece : Piece}
    (h : pieces source = before ++ piece :: after) :
    ∃ c cs, c :: cs = piece.text ++ (after.map Piece.text).flatten ∧
      piece = ⟨(extent c cs).1, c :: cs.take (extent c cs).2⟩ ∧
      cs.drop (extent c cs).2 = (after.map Piece.text).flatten := by
  induction before generalizing source with
  | nil =>
    rcases source with _ | ⟨c, cs⟩
    · rw [pieces] at h
      cases h
    · rw [pieces_cons] at h
      obtain ⟨rfl, rfl⟩ := List.cons.inj h
      refine ⟨c, cs, ?_, rfl, (flatten_pieces _).symm⟩
      rw [flatten_pieces, List.cons_append, List.take_append_drop]
  | cons first before ih =>
    rcases source with _ | ⟨c, cs⟩
    · rw [pieces] at h
      cases h
    · rw [pieces_cons] at h
      exact ih (List.cons.inj h).2

end Lexer

section

open Lexer

variable {source : List Char} {before after : List Piece} {piece : Piece} {kind other : TokenKind}
variable {text : List Char}

/-- At each place of a source, what is found outdoes all that its rules allow there. -/
theorem outdoes_piece (h : pieces source = before ++ piece :: after) (hspells : Spells other text)
    (begins : text <+: piece.text ++ (after.map Piece.text).flatten) :
    ∃ found, piece.kind? = some found ∧ Outdoes (found, piece.text.length) other text.length := by
  obtain ⟨c, cs, hsource, rfl, -⟩ := piece_of_pieces h
  rw [← hsource] at begins
  rcases text with _ | ⟨first, text⟩
  · exact absurd rfl hspells.ne_nil
  · obtain ⟨rfl, rest, rfl⟩ := List.cons_prefix_cons.mp begins
    obtain ⟨found, hfound, outdoes⟩ := outdoes_extent hspells rest
    have hlength : (first :: (text ++ rest).take (extent first (text ++ rest)).2).length =
        found.2 + 1 := by
      rw [List.length_cons, List.length_take_of_le (extent_le _ _), hfound]
      rfl
    dsimp only
    rw [hlength, List.length_cons]
    exact ⟨found.1, congrArg Prod.fst hfound, Nat.succ_le_succ outdoes.reaches,
      fun heq => outdoes.alike (Nat.succ.inj heq), outdoes.slash_of_invalid⟩

/-- A source is cut by its rules: a piece that is valid is a token of its kind, no longer text that
begins where it begins is a token of any kind, and as a token the text is of no other kind. -/
theorem longest_piece (h : pieces source = before ++ piece :: after)
    (hkind : piece.kind? = some kind) (valid : kind ≠ .invalid) :
    Spells kind piece.text ∧
      ∀ other text, Spells other text → text <+: piece.text ++ (after.map Piece.text).flatten →
        text.length ≤ piece.text.length ∧ (text = piece.text → other = kind) := by
  constructor
  · obtain ⟨c, cs, -, rfl, -⟩ := piece_of_pieces h
    exact spells_extent hkind valid
  · intro other text hspells begins
    obtain ⟨found, hfound, outdoes⟩ := outdoes_piece h hspells begins
    obtain rfl := Option.some.inj (hkind.symm.trans hfound)
    exact ⟨outdoes.reaches, fun htext => outdoes.alike (congrArg List.length htext)⟩

/-- What is invalid is what begins no token, and reaches as far as its sort of error does. -/
theorem invalid_piece (h : pieces source = before ++ piece :: after)
    (hkind : piece.kind? = some .invalid) :
    IsErrorRun piece.text (after.map Piece.text).flatten ∧
      ∀ other text, Spells other text → text <+: piece.text ++ (after.map Piece.text).flatten →
        text = ['/'] := by
  constructor
  · obtain ⟨c, cs, -, rfl, hafter⟩ := piece_of_pieces h
    rw [← hafter]
    exact isErrorRun_extent hkind
  · intro other text hspells begins
    obtain ⟨found, hfound, outdoes⟩ := outdoes_piece h hspells begins
    obtain rfl := outdoes.slash_of_invalid (Option.some.inj (hfound.symm.trans hkind))
    exact eq_of_spells_slash hspells

-- the exponent has no digits, and the comment has no end
example : (pieces "1.5e+/*".toList).map (fun piece => (piece.kind?, String.ofList piece.text)) =
    [(some .floatLiteral, "1.5"), (some .identifier, "e"), (some .plus, "+"),
      (some .invalid, "/*")] := by decide +kernel

end

end ProtoFront
