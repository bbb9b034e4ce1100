import ProtoFront.Proofs.Grammar.Fields
import ProtoFront.Parse.Files

/-!
# The statements of a file are read as the grammar has them
-/

namespace ProtoFront

open ParseState

variable {entry : Pending} {s : ParseState} {forms : List Form}

/-- Nothing but the end of the input is owed when no goal is left. -/
theorem not_owes_of_document (awaited : Awaited .document s.pending) (hkind : s.kind ≠ .eof) :
    ¬s.Owes [] := by
  rintro ⟨-, hword⟩
  cases hpending : s.pending with
  | nil =>
    -- without goals the only word is the empty one
    rw [goals, hpending] at hword
    refine hkind ?_
    rw [kind_eq, show s.cursor.rest = [] from hword]
    rfl
  | cons next below =>
    rw [hpending] at awaited
    exact absurd awaited.1 next.goal.awaits_ne_document

/-! ## The level of the language, imports, the package -/

theorem not_string_of_semicolon {rest : List Lexeme}
    (h : Word (.just .semicolon :: forms) rest) : headKind rest ≠ .stringLiteral := by
  rw [word_just rfl] at h
  rw [h.1]
  simp

theorem owes_syntaxLevel (ready : Goal.syntaxLevel.ready s.kind = true) :
    (s.syntaxLevel entry).Owes [] ↔ s.Owes [.named .syntaxLevel] := by
  rw [Goal.ready, Bool.or_eq_true_iff, beq_iff_eq, beq_iff_eq] at ready
  rw [owes_named, Nonterminal.rule, owes_both, owes_either, owes_just rfl, owes_just rfl,
    ← or_and_right, and_iff_right ready, owes_both]
  have fails := fails_failStatement entry
  refine owes_expect rfl (fails _) fun _ => ?_
  rw [owes_both]
  exact owes_expectStrings (fails _) (fun _ => not_string_of_semicolon) fun _ => owes_endStatement _

theorem owes_importing (spelled : Spelled s.cursor.rest) (hkind : s.kind = .keyword .kwImport) :
    (s.importing entry).Owes [] ↔ s.Owes [.named .importing] := by
  have strings (t : ParseState) (h : t.Owes [.strings ++ .just .semicolon]) :
      t.kind = .stringLiteral := by
    rw [owes_both, Form.strings, owes_both, owes_just rfl] at h
    exact h.1
  have imported (t : ParseState) : (t.expectStrings (failStatement entry .importing)
      (endStatement entry .importing)).Owes [] ↔ t.Owes [.strings ++ .just .semicolon] := by
    rw [owes_both]
    exact owes_expectStrings (fails_failStatement entry .importing)
      (fun _ => not_string_of_semicolon) fun _ => owes_endStatement _
  rw [owes_named, Nonterminal.rule, owes_both, owes_just_of_kind hkind rfl, owes_both,
    owes_optional, owes_either, owes_word, owes_word, ← or_and_right, ← Bool.or_eq_true_iff,
    importing]
  refine (imported _).trans ?_
  split
  case isTrue hmodified =>
    rw [Bool.and_eq_true_iff] at hmodified
    rw [and_iff_right hmodified.1]
    refine (or_iff_right fun h => ?_).symm
    have spelled := spelled.addLeaf none false
    have hword := (Bool.or_eq_true_iff.mp hmodified.1).elim (kind_of_atWord spelled)
      (kind_of_atWord spelled)
    exact absurd (hword.symm.trans (strings _ h)) (by simp)
  case isFalse hmodified =>
    refine (or_iff_left fun h => hmodified ?_).symm
    rw [Bool.and_eq_true_iff, beq_iff_eq, ← s.take.kind_addLeaf none false]
    exact ⟨h.1, strings _ h.2⟩

/-- A name that begins with a word has no dot in front. -/
theorem owes_name_of_identifier (hword : s.kind.isIdentifierLike = true) :
    s.Owes (.named .name :: forms) ↔ s.Owes ((.identifier ++ .nameTail) :: forms) := by
  rw [owes_named, Nonterminal.rule, owes_both, owes_optional, owes_just rfl]
  refine or_iff_left fun h => ?_
  rw [h.1] at hword
  cases hword

theorem owes_package (hkind : s.kind = .keyword .kwPackage) :
    (s.package entry).Owes [] ↔ s.Owes [.named .package] := by
  rw [owes_named, Nonterminal.rule, owes_both, owes_just_of_kind hkind rfl, owes_both]
  refine owes_requireAmong rfl (fails_failStatement entry .package) fun hword => ?_
  rw [owes_wait, Goal.form, Goal.form, owes_name_of_identifier hword, owes_both, owes_identifier,
    and_iff_right hword, owes_both]

/-! ## The statements of a file -/

theorem owes_topLevel : s.Owes (.named .topLevel :: forms) ↔
    s.kind = .semicolon ∧ s.take.Owes forms ∨
      ∃ goal, topLevel? s.kind = some goal ∧ s.Owes (goal.form :: forms) := by
  -- a statement that begins with one word only
  have begun (goal : Goal) {kind : TokenKind} (hkind : goal.ready s.kind = true → s.kind = kind)
      (eager : goal.eager = true) (unnamed : ∀ tag?, goal ≠ .qualifiedName tag?)
      (hgoal : topLevel? kind = some goal) (h : s.Owes (goal.form :: forms)) :
      ∃ goal, topLevel? s.kind = some goal ∧ s.Owes (goal.form :: forms) :=
    ⟨goal, by rw [hkind (ready_of_owes goal eager unnamed h), hgoal], h⟩
  rw [owes_named, Nonterminal.rule]
  repeat rw [owes_either]
  rw [owes_just rfl]
  constructor
  · rintro ((((((((hsemicolon | hlevel) | himport) | hpackage) | hoption) | hmessage) | henum)
      | hservice) | hextend)
    · exact .inl hsemicolon
    · have ready := ready_of_owes .syntaxLevel rfl (by simp) hlevel
      rw [Goal.ready, Bool.or_eq_true_iff, beq_iff_eq, beq_iff_eq] at ready
      refine .inr ⟨.syntaxLevel, ?_, hlevel⟩
      rcases ready with hkind | hkind <;> rw [hkind] <;> rfl
    · exact .inr (begun .importing beq_iff_eq.mp rfl (by simp) rfl himport)
    · exact .inr (begun .package beq_iff_eq.mp rfl (by simp) rfl hpackage)
    · exact .inr (begun .option beq_iff_eq.mp rfl (by simp) rfl hoption)
    · exact .inr (begun (.scope .message) beq_iff_eq.mp rfl (by simp) rfl hmessage)
    · exact .inr (begun (.scope .enum) beq_iff_eq.mp rfl (by simp) rfl henum)
    · exact .inr (begun (.scope .service) beq_iff_eq.mp rfl (by simp) rfl hservice)
    · exact .inr (begun .extend beq_iff_eq.mp rfl (by simp) rfl hextend)
  · rintro (hsemicolon | ⟨goal, hgoal, h⟩)
    · simp only [hsemicolon, true_and, true_or]
    · unfold topLevel? at hgoal
      split at hgoal
      case h_10 => simp at hgoal
      all_goals
        obtain rfl := Option.some.inj hgoal
        rw [Goal.form] at h
        simp only [h, or_true, true_or]

theorem owes_file (awaited : Awaited .document s.pending) :
    (s.file entry).Owes [] ↔ s.Owes [Goal.file.form] := by
  rw [Goal.form, owes_many, owes_topLevel, file]
  split
  case h_1 goal hgoal =>
    have there : s.kind ≠ .eof := by
      intro hkind
      rw [hkind] at hgoal
      cases hgoal
    have bare : s.kind ≠ .semicolon := by
      intro hkind
      rw [hkind] at hgoal
      cases hgoal
    rw [owes_wait, or_iff_right (not_owes_of_document awaited there),
      or_iff_right fun h => bare h.1, owes_chosen hgoal]
    rfl
  case h_2 hgoal =>
    rw [or_iff_left (not_owes_chosen hgoal)]
    split
    case h_1 hkind =>
      refine (or_iff_left fun h => ?_).symm
      rw [hkind] at h
      exact absurd h.1 (by simp)
    case h_2 hkind =>
      rw [or_iff_right (not_owes_of_document awaited (by rw [hkind]; simp)),
        and_iff_right hkind, owes_resume]
      rfl
    case h_3 heof hsemicolon =>
      -- what begins no statement has been reported, here or before
      rw [or_iff_right (not_owes_of_document awaited heof)]
      refine iff_of_false ?_ fun h => hsemicolon h.1
      rw [owes_resume, ParseState.discard, owes_addLeaf]
      refine fun h => absurd h.1 ?_
      split
      case isTrue hreported => exact diagnostics_ne_of_reportedHere hreported
      case isFalse => exact s.diagnostics_report_ne _

end ProtoFront
