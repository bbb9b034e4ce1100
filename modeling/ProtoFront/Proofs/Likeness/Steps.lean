import ProtoFront.Proofs.Likeness.Declarations
import ProtoFront.Proofs.Likeness.Fields
import ProtoFront.Proofs.Likeness.Names
import ProtoFront.Proofs.Likeness.Options
import ProtoFront.Proofs.Likeness.Statements
import ProtoFront.Proofs.Likeness.Values
import ProtoFront.Proofs.Parse.Termination

/-!
# Steps and runs side by side

Parses at corresponding states take corresponding steps. So parses of inputs with the same layout
are alike from the beginning to the end.
-/

namespace ProtoFront

open ParseState

variable {x : Likeness} {entry other : Pending} {s t : ParseState}

/-! ## Steps -/

/-- Parses that share a passage share it inside of something that is made of statements. -/
def Likeness.Grounded (x : Likeness) : Prop :=
  x.whole ∨ ∃ bottom below, x.first.below = bottom :: below ∧
    bottom.goal.awaits? = some .statement

/-- Between a part and the goals below there is the construct that the part belongs to, unless the
part is a statement. -/
theorem Alike.above {part : Part} (h : Alike x s t) (grounded : x.Grounded)
    (awaited : Awaited part s.pending) (inner : part ≠ .statement) (cut : ¬x.whole) :
    x.first.below.length < s.pending.length := by
  obtain ⟨bottom, below, hbelow, hawaits⟩ := grounded.resolve_left cut
  have hne : s.pending ≠ x.first.below := by
    intro hpending
    rw [hpending, hbelow] at awaited
    exact inner (Option.some.inj (awaited.1.symm.trans hawaits))
  obtain ⟨top, pending, _, _, hs, -, -, hrest⟩ := h.stack.exists_cons hne
  rw [hs, List.length_cons]
  exact Nat.lt_succ_of_le hrest.below_length_le

/-- What stands for the whole input is pursued only by parses that share it. -/
theorem Alike.whole_of_document (h : Alike x s t) (grounded : x.Grounded)
    (awaited : Awaited .document s.pending) : x.whole := by
  by_contra cut
  have hlt := h.above grounded awaited (by simp) cut
  rcases hpending : s.pending with _ | ⟨next, below⟩
  · rw [hpending] at hlt
    exact Nat.not_lt_zero _ hlt
  · rw [hpending] at awaited
    exact next.goal.awaits_ne_document awaited.1

/-- Corresponding goals for the whole input are pursued alike. -/
theorem answers_document {held held' : Pending} {there : Prop} (h : Abreast x held s held' t)
    (entries : x.Entries there entry other) (whole : x.whole)
    (document : entry.goal.part = .document) : Answers x (s.pursue entry) (t.pursue other) := by
  rw [pursue, pursue, entries.goal]
  cases goal : entry.goal with
  | file => exact answers_file h entries whole
  | fragmentBody kind => exact answers_fragmentBody h entries whole kind
  | listAfterItem list failed =>
    rw [goal] at document
    cases list <;> cases document
  | _ =>
    rw [goal] at document
    cases document

/-- Corresponding goals for a part of the input are pursued alike. -/
theorem answers_pursue (h : Abreast x entry s other t) (grounded : x.Grounded)
    (ready : entry.goal.ready s.kind = true) (awaited : Awaited entry.goal.part s.pending)
    (inner : entry.goal.part ≠ .document) : Answers x (s.pursue entry) (t.pursue other) := by
  have above := h.above grounded awaited
  rw [pursue, pursue, h.entries.goal]
  cases goal : entry.goal with
  | file | fragmentBody => exact absurd (by rw [goal]; rfl) inner
  | body kind => exact answers_body h kind
  | syntaxLevel => exact answers_syntaxLevel h (by rwa [goal] at ready)
  | importing => exact answers_importing h (by simpa [goal, Goal.ready] using ready)
  | package => exact answers_package h (by simpa [goal, Goal.ready] using ready)
  | packageEnd => exact answers_statementEnd h .package
  | option => exact answers_optionStatement h (by simpa [goal, Goal.ready] using ready)
  | optionAfterName => exact answers_optionAfterName h
  | optionEnd => exact answers_statementEnd h .option
  | optionName => exact answers_optionName h
  | optionNamePart => exact answers_optionNamePart h
  | optionNameExtensionEnd => exact answers_optionNameExtensionEnd h
  | optionList => exact answers_optionList h (by simpa [goal, Goal.ready] using ready)
  | listOption => exact answers_listOption h
  | listOptionAfterName => exact answers_listOptionAfterName h
  | textList => exact answers_textList h (by simpa [goal, Goal.ready] using ready)
  | listAfterItem list failed => exact answers_listAfterItem h goal
  | scope kind => exact answers_scope h (by simpa [goal, Goal.ready] using ready)
  | extend => exact answers_extend h (by simpa [goal, Goal.ready] using ready)
  | extendAfterName => exact answers_extendAfterName h
  | field => exact answers_field h (by rwa [goal] at ready)
  | fieldAfterType => exact answers_fieldAfterType h
  | mapFieldAfterValue => exact answers_mapFieldAfterValue h
  | statementEnd kind => exact answers_statementEnd h kind
  | enumValue => exact answers_enumValue h
  | ranges kind => exact answers_ranges h (by simpa [goal, Goal.ready] using ready)
  | rangesItem kind => exact answers_rangesItem h kind
  | rpc => exact answers_rpc h (by simpa [goal, Goal.ready] using ready)
  | rpcAfterInput => exact answers_rpcAfterInput h
  | rpcAfterOutput => exact answers_rpcAfterOutput h
  | value => exact answers_value h
  | textMessage pair => exact answers_textMessage h (by simpa [goal, Goal.ready] using ready)
  | textMessageBody pair =>
    exact answers_textMessageBody h (above (by rw [goal]; simp [Goal.part]))
  | textField => exact answers_textField h (by rwa [goal] at ready)
  | textFieldEnd => exact answers_textFieldEnd h
  | qualifiedName tag? => exact answers_qualifiedName h tag?
  | qualifiedNameRest =>
    exact answers_qualifiedNameRest h (by simpa [goal, Goal.ready] using ready)
  | optionNameEnd | listOptionEnd | declarationEnd | qualifiedNameEnd =>
    exact (h.close _).answers

theorem ParseState.pursue_declarationEnd {kind : DeclarationKind}
    (h : entry.goal = .declarationEnd kind) :
    s.pursue entry = s.close entry (some (.declaration kind)) := by
  unfold pursue
  rw [h]

/-- A step of two parses that are alike. The end of a declaration makes a node without looking at
the input. -/
theorem Alike.step (h : Alike x s t) (sound : Sound s) (grounded : x.Grounded)
    (running : x.whole ∨ s.pending ≠ x.first.below)
    (ahead : x.whole ∨ s.cursor.rest ≠ x.first.behind ∨
      ∃ top below kind, s.pending = top :: below ∧ top.goal = .declarationEnd kind) :
    Answers x s.step t.step := by
  have stack : (s.pending = [] ∧ t.pending = []) ∨ ∃ top below top' below',
      s.pending = top :: below ∧ t.pending = top' :: below' ∧
        x.Entries (s.cursor.rest ≠ []) top top' ∧ x.Stacks (s.cursor.rest ≠ []) below below' :=
    running.elim h.stack.cases_whole fun hne => .inr (h.stack.exists_cons hne)
  rcases stack with ⟨hs, ht⟩ | ⟨top, below, top', below', hs, ht, entries, hbelow⟩
  · rw [ParseState.step, ParseState.step, hs, ht]
    exact .inl h
  · obtain ⟨settled, pursued⟩ := sound.pursued hs
    have alike : Alike x { s with pending := below } { t with pending := below' } :=
      ⟨h.rests, h.ends, h.ordered, h.spelled, h.nodes, h.reports, hbelow⟩
    rw [ParseState.step, ParseState.step, hs, ht]
    dsimp only
    by_cases document : top.goal.part = .document
    · -- what holds in place of the goal for the whole input does not matter
      have whole := alike.whole_of_document grounded (document ▸ settled.awaited)
      have held := alike.begin (.inl whole) (show Goal.value.carried = false from rfl)
      exact answers_document held entries whole document
    · have coupled : Coupled x top { s with pending := below } top' { t with pending := below' } :=
        ⟨alike, entries, entries.origins document⟩
      have looks (hahead : x.whole ∨ s.cursor.rest ≠ x.first.behind) :
          Answers x (pursue top { s with pending := below })
            (pursue top' { t with pending := below' }) :=
        answers_pursue ⟨coupled, hahead⟩ grounded pursued.ready settled.awaited document
      rcases ahead with whole | hrest | ⟨other, pending, kind, hother, hgoal⟩
      · exact looks (.inl whole)
      · exact looks (.inr hrest)
      · rw [hs, List.cons.injEq] at hother
        rw [← hother.1] at hgoal
        rw [pursue_declarationEnd hgoal, pursue_declarationEnd (entries.goal.trans hgoal)]
        exact (coupled.close _).answers

/-! ## Runs -/

/-- Parses of inputs with the same layout are alike from the beginning to the end. -/
theorem Alike.run (h : Alike x s t) (sound : Sound s) (exact : x.exact) (fuel : Nat) :
    Alike x (s.run fuel) (t.run fuel) := by
  have whole := x.whole_of_exact exact
  induction fuel generalizing s t with
  | zero => exact h
  | succ fuel ih =>
    have ended : t.pending.isEmpty = s.pending.isEmpty := by
      rcases h.stack.cases_whole whole with ⟨hs, ht⟩ | ⟨_, _, _, _, hs, ht, -, -⟩ <;> rw [hs, ht]
      rfl
    rw [ParseState.run, ParseState.run, ended]
    split
    case isTrue => exact h
    case isFalse =>
      have hstep := h.step sound (.inl whole) (.inl whole) (.inl whole)
      exact ih (hstep.resolve_right fun strays => strays.inexact exact) sound.step

end ProtoFront
