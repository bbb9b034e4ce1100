import ProtoFront.Proofs.Parse.Input
import ProtoFront.Proofs.Parse.Loops

/-!
# Skips respect brackets

Where brackets are properly nested (`Balanced`), the brackets that are open somewhere say how the
rest goes on: it closes them one after the other, the innermost first (`Closes`). A skip over a
group ends right behind the bracket that closes the group. A skip to some token ends with the
brackets open that were open where it began. A skip over the rest of a statement may leave
parentheses and square brackets, but never a brace.
-/

namespace ProtoFront

variable {tail lexemes rest : List Lexeme} {next : Lexeme} {opened inner : List Bracket}
variable {pair : Bracket} {kinds : List TokenKind} {stop : TokenKind → Bool}

/-- Brackets are properly nested in a text of these kinds, and the input does not end in it. -/
inductive Balanced : List TokenKind → Prop
  | nil : Balanced []
  | plain {kind : TokenKind} {rest : List TokenKind} (opener : kind.isOpener = false)
      (closer : kind.isCloser = false) (there : kind ≠ .eof) (balanced : Balanced rest) :
      Balanced (kind :: rest)
  | group (pair : Bracket) {inside rest : List TokenKind} (balanced : Balanced inside)
      (after : Balanced rest) : Balanced (.opener pair :: inside ++ .closer pair :: rest)

/-- `Closes tail opened lexemes`: the lexemes close the brackets `opened`, innermost first, and
then `tail` begins with a brace that closes something outside. What else is opened is closed
again. -/
inductive Closes (tail : List Lexeme) : List Bracket → List Lexeme → Prop
  | done {close : Lexeme} {after : List Lexeme} (here : tail = close :: after)
      (brace : close.kind = .closer .brace) : Closes tail [] tail
  | plain {opened : List Bracket} {next : Lexeme} {rest : List Lexeme}
      (opener : next.kind.isOpener = false) (closer : next.kind.isCloser = false)
      (closes : Closes tail opened rest) : Closes tail opened (next :: rest)
  | opener {opened : List Bracket} {pair : Bracket} {next : Lexeme} {rest : List Lexeme}
      (kind : next.kind = .opener pair) (closes : Closes tail (pair :: opened) rest) :
      Closes tail opened (next :: rest)
  | closer {opened : List Bracket} {pair : Bracket} {next : Lexeme} {rest : List Lexeme}
      (kind : next.kind = .closer pair) (closes : Closes tail opened rest) :
      Closes tail (pair :: opened) (next :: rest)

namespace TokenKind

variable {kind : TokenKind}

theorem isOpener_eq_false (h : ∀ pair, kind = .opener pair → False) : kind.isOpener = false := by
  cases kind with
  | opener pair => exact (h pair rfl).elim
  | _ => rfl

theorem isCloser_eq_false (h : ∀ pair, kind = .closer pair → False) : kind.isCloser = false := by
  cases kind with
  | closer pair => exact (h pair rfl).elim
  | _ => rfl

theorem eq_closer_of_isCloser (h : kind.isCloser = true) : ∃ pair, kind = .closer pair := by
  cases kind with
  | closer pair => exact ⟨pair, rfl⟩
  | _ => exact absurd h Bool.false_ne_true

/-- Whether a kind opens or closes a block of statements or a text message. -/
def isBrace (kind : TokenKind) : Bool := kind == .opener .brace || kind == .closer .brace

theorem isBrace_iff : kind.isBrace = true ↔ kind = .opener .brace ∨ kind = .closer .brace := by
  rw [isBrace, Bool.or_eq_true_iff, beq_iff_eq, beq_iff_eq]

end TokenKind

/-! ## Groups -/

theorem closeThrough?_cons (pair : Bracket) (inner : List Bracket) :
    closeThrough? pair (pair :: inner) = some inner := by
  rw [closeThrough?, List.dropWhile_cons_of_neg (by simp)]

theorem groupExtent_plain (hinner : inner ≠ []) (opener : next.kind.isOpener = false)
    (closer : next.kind.isCloser = false) :
    groupExtent inner (next :: rest) = groupExtent inner rest + 1 := by
  rw [groupExtent]
  split <;> simp_all [TokenKind.isOpener, TokenKind.isCloser]

namespace Closes

/-! ## The next lexeme -/

theorem of_plain (h : Closes tail opened (next :: rest)) (opener : next.kind.isOpener = false)
    (closer : next.kind.isCloser = false) : Closes tail opened rest := by
  cases h with
  | done here brace =>
    obtain ⟨rfl, rfl⟩ := List.cons.inj here
    rw [brace] at closer
    cases closer
  | plain _ _ closes => exact closes
  | opener kind => rw [kind] at opener; cases opener
  | closer kind => rw [kind] at closer; cases closer

theorem of_opener (h : Closes tail opened (next :: rest)) (kind : next.kind = .opener pair) :
    Closes tail (pair :: opened) rest := by
  cases h with
  | done here brace =>
    obtain ⟨rfl, rfl⟩ := List.cons.inj here
    rw [brace] at kind
    cases kind
  | plain opener => rw [kind] at opener; cases opener
  | opener hkind closes =>
    rw [kind] at hkind
    cases hkind
    exact closes
  | closer hkind => rw [kind] at hkind; cases hkind

/-- A closing bracket closes the innermost one that is open. If none is, it is the brace outside. -/
theorem of_closer (h : Closes tail opened (next :: rest)) (kind : next.kind = .closer pair) :
    (∃ outer, opened = pair :: outer ∧ Closes tail outer rest) ∨
      (opened = [] ∧ pair = .brace ∧ tail = next :: rest) := by
  cases h with
  | done here brace =>
    obtain ⟨rfl, rfl⟩ := List.cons.inj here
    rw [brace] at kind
    cases kind
    exact .inr ⟨rfl, rfl, rfl⟩
  | plain _ closer => rw [kind] at closer; cases closer
  | opener hkind => rw [kind] at hkind; cases hkind
  | @closer outer _ _ _ hkind closes =>
    rw [kind] at hkind
    cases hkind
    exact .inl ⟨outer, rfl, closes⟩

/-- The brace outside is still to come. -/
theorem ne_nil (h : Closes tail opened lexemes) : lexemes ≠ [] := by
  cases h with
  | done here => rw [here]; exact List.cons_ne_nil _ _
  | _ => exact List.cons_ne_nil _ _

theorem suffix (h : Closes tail opened lexemes) : tail <:+ lexemes := by
  induction h with
  | done => exact List.suffix_refl _
  | plain _ _ _ ih => exact ih.trans (List.suffix_cons _ _)
  | opener _ _ ih => exact ih.trans (List.suffix_cons _ _)
  | closer _ _ ih => exact ih.trans (List.suffix_cons _ _)

/-- As long as a bracket is open, the brace outside is not the next lexeme. -/
theorem index_lt {close : Lexeme} {after : List Lexeme}
    (h : Closes tail (pair :: opened) (next :: rest)) (htail : tail = close :: after)
    (ordered : ((next :: rest).map Lexeme.index).Pairwise (· < ·)) : next.index < close.index := by
  have behind : tail <:+ rest := by
    cases h with
    | plain _ _ closes => exact closes.suffix
    | opener _ closes => exact closes.suffix
    | closer _ closes => exact closes.suffix
  rw [List.map_cons, List.pairwise_cons] at ordered
  refine ordered.1 _ (List.mem_map_of_mem (behind.subset ?_))
  rw [htail]
  exact List.mem_cons_self

/-! ## Skips -/

/-- A group ends behind the bracket that closes it. -/
theorem drop_groupExtent (h : Closes tail (inner ++ opened) lexemes) (hinner : inner ≠ []) :
    Closes tail opened (lexemes.drop (groupExtent inner lexemes)) := by
  -- what the group opens is innermost, so the derivation closes it before anything in `opened`
  generalize hall : inner ++ opened = all at h
  induction h generalizing inner with
  | done => exact absurd (List.append_eq_nil_iff.mp hall).1 hinner
  | @plain _ next rest opener closer closes ih =>
    rw [groupExtent_plain hinner opener closer, List.drop_succ_cons]
    exact ih hinner hall
  | @opener _ pair next rest kind closes ih =>
    rw [groupExtent, kind]
    exact ih (List.cons_ne_nil _ _) (by rw [List.cons_append, hall])
  | @closer outer pair next rest kind closes ih =>
    obtain ⟨first, inner, rfl⟩ := List.exists_cons_of_ne_nil hinner
    obtain ⟨rfl, rfl⟩ := List.cons.inj hall
    rw [groupExtent, kind]
    dsimp only
    rw [closeThrough?_cons]
    rcases inner with _ | ⟨second, inner⟩
    · exact closes
    · exact ih (List.cons_ne_nil _ _) rfl

theorem drop_group (h : Closes tail opened (next :: rest)) (kind : next.kind = .opener pair) :
    Closes tail opened (rest.drop (groupExtent [pair] rest)) := by
  have hopened : Closes tail ([pair] ++ opened) rest := h.of_opener kind
  exact hopened.drop_groupExtent (List.cons_ne_nil _ _)

/-- A skip to some token leaves the brackets open that are open. -/
theorem drop_extentTo (stop : TokenKind → Bool) (h : Closes tail opened lexemes) :
    Closes tail opened (lexemes.drop (extentTo stop lexemes)) := by
  fun_induction extentTo stop lexemes with
  | case1 => exact h
  | case2 => exact h
  | case3 next rest _ pair hkind inside ih =>
    rw [List.drop_succ_cons, Nat.add_comm, ← List.drop_drop]
    exact ih (h.drop_group hkind)
  | case4 => exact h
  | case5 next rest _ hopener hcloser ih =>
    rw [List.drop_succ_cons]
    have hplain := h.of_plain (TokenKind.isOpener_eq_false hopener)
      (TokenKind.isCloser_eq_false hcloser)
    exact ih hplain

end Closes

/-- A skip ends at a token that is to stop it, or at a closing bracket. -/
theorem stops_of_drop_extentTo (h : lexemes.drop (extentTo stop lexemes) = next :: rest) :
    stop next.kind = true ∨ next.kind.isCloser = true := by
  fun_induction extentTo stop lexemes with
  | case1 => cases h
  | case2 first _ hstop =>
    obtain ⟨rfl, -⟩ := List.cons.inj h
    exact .inl hstop
  | case3 first others _ pair hkind inside ih =>
    rw [List.drop_succ_cons, Nat.add_comm, ← List.drop_drop] at h
    exact ih h
  | case4 first _ _ pair hkind =>
    obtain ⟨rfl, -⟩ := List.cons.inj h
    exact .inr (by rw [hkind]; rfl)
  | case5 first others _ hopener hcloser ih =>
    rw [List.drop_succ_cons] at h
    exact ih h

/-- The lexemes close some brackets, and there is one brace among them for each of so many bodies
but the outermost one, which `tail` closes. -/
def BodiesOpen (tail : List Lexeme) (bodies : Nat) (lexemes : List Lexeme) : Prop :=
  ∃ opened, Closes tail opened lexemes ∧ opened.count .brace + 1 = bodies

namespace BodiesOpen

variable {bodies : Nat}

/-- No token but a brace changes how many bodies are open. -/
theorem of_cons (h : BodiesOpen tail bodies (next :: rest)) (plain : next.kind.isBrace = false) :
    BodiesOpen tail bodies rest := by
  obtain ⟨opened, hcloses, rfl⟩ := h
  rcases hopener : next.kind.isOpener with _ | _
  · rcases hcloser : next.kind.isCloser with _ | _
    · exact ⟨opened, hcloses.of_plain hopener hcloser, rfl⟩
    · obtain ⟨pair, hpair⟩ := TokenKind.eq_closer_of_isCloser hcloser
      rw [hpair] at plain
      rcases hcloses.of_closer hpair with ⟨outer, rfl, houter⟩ | ⟨-, rfl, -⟩
      · refine ⟨outer, houter, ?_⟩
        rw [List.count_cons_of_ne (by rintro rfl; cases plain)]
      · cases plain
  · obtain ⟨pair, hpair⟩ := TokenKind.eq_opener_of_isOpener hopener
    rw [hpair] at plain
    refine ⟨pair :: opened, hcloses.of_opener hpair, ?_⟩
    rw [List.count_cons_of_ne (by rintro rfl; cases plain)]

theorem of_opener (h : BodiesOpen tail bodies (next :: rest)) (kind : next.kind = .opener .brace) :
    BodiesOpen tail (bodies + 1) rest := by
  obtain ⟨opened, hcloses, rfl⟩ := h
  exact ⟨.brace :: opened, hcloses.of_opener kind, by rw [List.count_cons_self]⟩

/-- A brace closes a body, and the last one is the brace outside. -/
theorem of_closer (h : BodiesOpen tail (bodies + 1) (next :: rest))
    (kind : next.kind = .closer .brace) :
    BodiesOpen tail bodies rest ∨ (bodies = 0 ∧ tail = next :: rest) := by
  obtain ⟨opened, hcloses, hcount⟩ := h
  rcases hcloses.of_closer kind with ⟨outer, rfl, houter⟩ | ⟨rfl, -, htail⟩
  · refine .inl ⟨outer, houter, ?_⟩
    rwa [List.count_cons_self, Nat.add_right_cancel_iff] at hcount
  · exact .inr ⟨(Nat.succ.inj hcount).symm, htail⟩

theorem drop_extentTo (stop : TokenKind → Bool) (h : BodiesOpen tail bodies lexemes) :
    BodiesOpen tail bodies (lexemes.drop (extentTo stop lexemes)) := by
  obtain ⟨opened, hcloses, hcount⟩ := h
  exact ⟨opened, hcloses.drop_extentTo stop, hcount⟩

theorem drop_group (h : BodiesOpen tail bodies (next :: rest)) (kind : next.kind = .opener pair) :
    BodiesOpen tail bodies (rest.drop (groupExtent [pair] rest)) := by
  obtain ⟨opened, hcloses, hcount⟩ := h
  exact ⟨opened, hcloses.drop_group kind, hcount⟩

/-- The rest of a statement is skipped over no brace but in a group. -/
theorem drop_statementExtent (origin : Origin) (h : BodiesOpen tail bodies lexemes) :
    BodiesOpen tail bodies (lexemes.drop (statementExtent origin lexemes)) := by
  fun_induction statementExtent origin lexemes with
  | case6 next rest pair hkind fresh inside ih =>
    rw [List.drop_succ_cons, Nat.add_comm, ← List.drop_drop]
    exact ih (h.drop_group hkind)
  | case8 next rest fresh hbrace _ _ hopener ih =>
    refine ih (h.of_cons (Bool.eq_false_iff.mpr fun hisBrace => ?_))
    rcases TokenKind.isBrace_iff.mp hisBrace with hkind | hkind
    · exact hopener _ hkind
    · exact hbrace hkind
  | _ => exact h

end BodiesOpen

/-! ## Nested brackets in the input -/

/-- Comments are no brackets. -/
theorem Balanced.filter_comments (h : Balanced kinds) :
    Balanced (kinds.filter fun kind => !kind.isComment) := by
  induction h with
  | nil => exact .nil
  | @plain kind rest opener closer there _ ih =>
    rw [List.filter_cons]
    split
    · exact .plain opener closer there ih
    · exact ih
  | group pair _ _ ih ih' =>
    rw [List.cons_append, List.filter_cons_of_pos rfl, List.filter_append,
      List.filter_cons_of_pos rfl]
    exact .group pair ih ih'

theorem Balanced.ne_eof (h : Balanced kinds) : ∀ kind ∈ kinds, kind ≠ .eof := by
  induction h with
  | nil => simp
  | plain _ _ there _ ih => simpa [there] using ih
  | group pair _ _ ih ih' =>
    intro kind hkind
    simp only [List.cons_append, List.mem_cons, List.mem_append] at hkind
    rcases hkind with rfl | hinside | rfl | hrest
    · simp
    · exact ih kind hinside
    · simp
    · exact ih' kind hrest

/-- What is balanced leaves the brackets open that are open in front of it. -/
theorem Balanced.closes (h : Balanced kinds) {inside : List Lexeme}
    (hkinds : inside.map Lexeme.kind = kinds) (closes : Closes tail opened rest) :
    Closes tail opened (inside ++ rest) := by
  induction h generalizing inside opened rest with
  | nil =>
    rw [List.map_eq_nil_iff.mp hkinds]
    exact closes
  | plain opener closer _ _ ih =>
    obtain ⟨next, others, rfl, rfl, hothers⟩ := List.map_eq_cons_iff.mp hkinds
    exact .plain opener closer (ih hothers closes)
  | group pair _ _ ih ih' =>
    rw [List.cons_append] at hkinds
    obtain ⟨first, others, rfl, hfirst, hothers⟩ := List.map_eq_cons_iff.mp hkinds
    obtain ⟨held, behind, rfl, hheld, hbehind⟩ := List.map_eq_append_iff.mp hothers
    obtain ⟨last, after, rfl, hlast, hafter⟩ := List.map_eq_cons_iff.mp hbehind
    rw [List.cons_append, List.append_assoc, List.cons_append]
    exact .opener hfirst (ih hheld (.closer hlast (ih' hafter closes)))

end ProtoFront
