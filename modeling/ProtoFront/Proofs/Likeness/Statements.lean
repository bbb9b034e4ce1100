import ProtoFront.Parse.Files
import ProtoFront.Proofs.Likeness.Recovery
import ProtoFront.Proofs.Parse.Statements

/-!
# The statements of a file side by side
-/

namespace ProtoFront

open ParseState

variable {x : Likeness} {entry other : Pending} {s t : ParseState}

theorem answers_syntaxLevel (h : Abreast x entry s other t)
    (ready : Goal.syntaxLevel.ready s.kind = true) :
    Answers x (s.syntaxLevel entry) (t.syntaxLevel other) := by
  have goesOn : s.kind.endsStatement = false := by
    rw [Goal.ready, Bool.or_eq_true_iff, beq_iff_eq, beq_iff_eq] at ready
    rcases ready with hkind | hkind <;> rw [hkind] <;> rfl
  rw [syntaxLevel, syntaxLevel, h.kind_eq]
  have fails (kind : DeclarationKind) :
      FailsAlike x entry other (failStatement entry kind) (failStatement other kind) :=
    failsAlike_failStatement kind
  refine answers_expect (h.take goesOn) (fails _) rfl fun _ level => ?_
  exact answers_expectStrings level (fails _) fun string => answers_endStatement string _

theorem answers_importing (h : Abreast x entry s other t) (hkind : s.kind = .keyword .kwImport) :
    Answers x (s.importing entry) (t.importing other) := by
  have opened := h.take (by rw [hkind]; rfl)
  have hword (hmodified : (s.take.atWord .wordPublic || s.take.atWord .wordWeak) = true) :
      s.take.kind.endsStatement = false := by
    rw [Bool.or_eq_true_iff] at hmodified
    rw [hmodified.elim (kind_of_atWord opened.spelled) (kind_of_atWord opened.spelled)]
    rfl
  have modified := opened.and_following_eq (fun kind => kind == .stringLiteral) hword
  rw [importing, importing, opened.atWord_eq, opened.atWord_eq, modified]
  have next := opened.takeIf Iff.rfl (c := ((s.take.atWord .wordPublic || s.take.atWord .wordWeak)
    && s.take.following == .stringLiteral) = true) fun hmodified =>
      hword (Bool.and_eq_true_iff.mp hmodified).1
  exact answers_expectStrings next (failsAlike_failStatement _) fun string =>
    answers_endStatement string _

theorem answers_package (h : Abreast x entry s other t) (hkind : s.kind = .keyword .kwPackage) :
    Answers x (s.package entry) (t.package other) := by
  have opened := h.take (by rw [hkind]; rfl)
  rw [package, package, opened.kind_eq]
  exact answers_require opened rfl (failsAlike_failStatement _) fun _ =>
    (opened.wait _ _ rfl rfl).answers

/-! ## A file

The goal for the whole input is held, too, but nothing is known of where it began. So the parses are
compared while they hold any other goals. -/

variable {held held' : Pending} {there : Prop}

theorem failsAlike_discard (entries : x.Entries there entry other) :
    FailsAlike x held held' (fun s => s.discard.resume entry .file)
      (fun t => t.discard.resume other .file) where
  first s := s.diagnostics_addLeaf none true
  second t := t.diagnostics_addLeaf none true
  alike exact _ _ h := ((h.addLeaf exact none true).cons (entries.document rfl rfl)).toAlike

/-- The next statement of a file. A file is always read as a whole. -/
theorem answers_file (h : Abreast x held s held' t) (entries : x.Entries there entry other)
    (whole : x.whole) : Answers x (s.file entry) (t.file other) := by
  rw [file, file, h.kind_eq]
  split
  case h_1 goal hgoal =>
    have fresh := Goal.carried_eq_false_of_awaits (topLevel?_eq_some hgoal).1.waits
    exact ((h.cons (entries.document rfl rfl)).pushGoal goal fresh).answers
  case h_2 =>
    split
    case h_1 => exact h.answers
    case h_2 => exact ((h.addLeaf none false).cons (entries.document rfl rfl)).answers
    case h_3 => exact answers_junk h (failsAlike_discard entries) (fun part => absurd whole part) _

end ProtoFront
