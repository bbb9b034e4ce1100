import ProtoFront.Parse.Files
import ProtoFront.Proofs.Composition.Declarations

/-!
# What the statements of a file are made of
-/

namespace ProtoFront

open ParseState Production

variable {buffer : TokenBuffer} {entry : Pending} {s t : ParseState}

/-- A file is nothing that has to be complete. -/
theorem composed_file (h : Holds buffer Goal.file.made entry s) (goal : entry.goal = .file) :
    Composed buffer (s.file entry) := by
  have part : entry.goal.part = .document := by rw [goal]; rfl
  have gathers := Goal.gathers_of_document part
  have onward {t : ParseState} (held : Holds buffer ⊤ entry t) :
      Composed buffer (t.resume entry .file) :=
    held.goOn .file (fun unflagged => by rw [Pending.flagged, goal]; exact unflagged) le_rfl
  rw [file]
  split
  case h_1 next hnext =>
    obtain ⟨-, statement, cost⟩ := topLevel?_eq_some hnext
    rw [← goal] at h ⊢
    exact gathers.composed_wait h statement cost
  case h_2 =>
    split
    case h_1 => exact h.finish part
    case h_2 hsemicolon => exact onward ((h.just hsemicolon rfl).mono le_top)
    case h_3 =>
      have reported : Holds buffer ⊤ entry
          (if s.reportedHere then s else s.report [.topLevelStatement]) := by
        split
        case isTrue => exact h.mono le_top
        case isFalse => exact (h.report _).mono le_top
      exact onward (reported.addAny (.discard reported.reads))

theorem composed_syntaxLevel (h : Holds buffer 1 entry s) (part : entry.goal.part = .statement)
    (ready : s.kind = .keyword .kwSyntax ∨ s.kind = .keyword .kwEdition) :
    Composed buffer (s.syntaxLevel entry) := by
  -- both statements are made alike, but for the word
  have level (kind : DeclarationKind) (opening : Keyword) (hopening : s.kind = .keyword opening)
      (made : 1 * (word opening).matches' * (just .equals).matches' * strings.matches' ≤
        kind.closable) :
      Composed buffer (s.take.expect .equals (failStatement entry kind) fun s =>
        s.expectStrings (failStatement entry kind) (endStatement entry kind)) := by
    refine composed_expect (h.just hopening rfl) (spoils_failStatement part kind) rfl
      fun assigned => ?_
    exact composed_expectStrings assigned (spoils_failStatement part kind) fun read =>
      composed_endStatement read part made
  rw [syntaxLevel]
  rcases ready with hlevel | hedition
  · rw [if_neg (by simp [hlevel])]
    refine level .syntaxLevel .kwSyntax hlevel (DeclarationKind.le_closable ?_)
    rw [one_mul]
    exact le_rfl
  · rw [if_pos hedition]
    refine level .edition .kwEdition hedition (DeclarationKind.le_closable ?_)
    rw [one_mul]
    exact le_rfl

theorem composed_importing (h : Holds buffer 1 entry s) (part : entry.goal.part = .statement)
    (ready : s.kind = .keyword .kwImport) : Composed buffer (s.importing entry) := by
  have opened := h.just ready rfl
  rw [one_mul] at opened
  have word (hmodifier : (s.take.atWord .wordPublic || s.take.atWord .wordWeak) = true) :
      Adds buffer (contextual .wordPublic + contextual .wordWeak).matches' s.take s.take.take := by
    rcases Bool.or_eq_true_iff.mp hmodifier with hpublic | hweak
    · exact (Adds.contextual opened.reads hpublic).mono le_sup_left
    · exact (Adds.contextual opened.reads hweak).mono le_sup_right
  have modified := opened.takeIf (((s.take.atWord .wordPublic || s.take.atWord .wordWeak)
    && s.take.following == .stringLiteral) = true) fun hmodifier =>
      word (Bool.and_eq_true_iff.mp hmodifier).1
  rw [importing]
  exact composed_expectStrings modified (spoils_failStatement part .importing) fun read =>
    composed_endStatement read part (DeclarationKind.le_closable le_rfl)

theorem composed_package (h : Holds buffer 1 entry s) (part : entry.goal.part = .statement)
    (ready : s.kind = .keyword .kwPackage) : Composed buffer (s.package entry) := by
  have opened := h.just ready rfl
  rw [one_mul] at opened
  rw [package]
  refine composed_require opened (spoils_failStatement part .package) fun _ => ?_
  exact opened.wait part .packageEnd (.qualifiedName (some .name)) rfl rfl
    (DeclarationKind.le_closable le_rfl) rfl

end ProtoFront
