import ProtoFront.Proofs.Grammar.Owed
import ProtoFront.Proofs.Likeness.Moves

/-!
# Failing side by side

What two parses do about an error depends on kinds and on layout, so they do the same if the layout
corresponds. Otherwise they are not compared any further: the first of them has reported something
(`Likeness.Strays`).
-/

namespace ProtoFront

open ParseState

variable {x : Likeness} {entry other : Pending} {s t : ParseState} {rest rest' : List Lexeme}

/-! ## How far a skip reaches -/

namespace Likeness

theorem Rests.drop (h : x.Rests rest rest') (whole : x.whole) (n : Nat) :
    x.Rests (rest.drop n) (rest'.drop n) := by
  induction n generalizing rest rest' with
  | zero => exact h
  | succ n ih =>
    rw [← List.drop_tail, ← List.drop_tail]
    exact ih (h.tail (.inl whole))

theorem Rests.groupExtent_eq (h : x.Rests rest rest') (whole : x.whole) (inner : List Bracket) :
    groupExtent inner rest' = groupExtent inner rest := by
  obtain ⟨-, -, -, -, hfirst, hsecond⟩ := x.alone_of_whole whole
  induction h generalizing inner with
  | behind => rw [hfirst, hsecond]
  | next like _ _ ih =>
    rw [groupExtent, groupExtent, like.kind]
    simp only [ih]

theorem Rests.extentTo_eq (h : x.Rests rest rest') (whole : x.whole) (stop : TokenKind → Bool) :
    extentTo stop rest' = extentTo stop rest := by
  induction hlength : rest.length using Nat.strongRecOn generalizing rest rest' with
  | _ length ih =>
    rcases h.cases_whole whole with ⟨rfl, rfl⟩ | ⟨next, more, next', more', rfl, rfl, like, hmore⟩
    · rfl
    · rw [List.length_cons] at hlength
      rw [extentTo, extentTo, like.kind]
      split
      · rfl
      · split
        case h_1 pair _ =>
          have hdropped := (more.length_drop (i := groupExtent [pair] more)).le
          dsimp only
          rw [hmore.groupExtent_eq whole, ih _ (by omega) (hmore.drop whole _) rfl]
        case h_2 => rfl
        case h_3 => rw [ih _ (by omega) hmore rfl]

/-- The layout says the same of a lexeme in both parses. -/
theorem Lexemes.startsAfresh_eq {lexeme lexeme' : Lexeme} {origin origin' : Origin}
    (h : x.Lexemes lexeme lexeme') (exact : x.exact)
    (origins : origin'.line = origin.line + x.lines ∧ origin'.column = origin.column) :
    lexeme'.startsAfresh origin' = lexeme.startsAfresh origin := by
  obtain ⟨hline, hcolumn⟩ := h.layout exact
  rw [Lexeme.startsAfresh, Lexeme.startsAfresh, hline, hcolumn, origins.1, origins.2]
  congr 1
  rw [Bool.eq_iff_iff, bne_iff_ne, bne_iff_ne, ne_eq, ne_eq, Nat.add_right_cancel_iff]

theorem Rests.statementExtent_eq {origin origin' : Origin} (h : x.Rests rest rest')
    (exact : x.exact) (origins : rest ≠ [] →
      origin'.line = origin.line + x.lines ∧ origin'.column = origin.column) :
    statementExtent origin' rest' = statementExtent origin rest := by
  have whole := x.whole_of_exact exact
  induction hlength : rest.length using Nat.strongRecOn generalizing rest rest' with
  | _ length ih =>
    rcases h.cases_whole whole with ⟨rfl, rfl⟩ | ⟨next, more, next', more', rfl, rfl, like, hmore⟩
    · rw [statementExtent, statementExtent]
    · have horigins := origins (List.cons_ne_nil _ _)
      rw [List.length_cons] at hlength
      rw [statementExtent, statementExtent, like.kind, like.startsAfresh_eq exact horigins]
      split
      case h_4 pair _ =>
        have hdropped := (more.length_drop (i := groupExtent [pair] more)).le
        dsimp only
        rw [hmore.groupExtent_eq whole,
          ih _ (by omega) (hmore.drop whole _) (fun _ => horigins) rfl]
      case h_5 => rw [ih _ (by omega) hmore (fun _ => horigins) rfl]
      all_goals rfl

end Likeness

theorem ParseState.endIndex_discardMany (n : Nat) (s : ParseState) :
    (discardMany n s).cursor.endIndex = s.cursor.endIndex := by
  induction n generalizing s with
  | zero => rfl
  | succ n ih => rw [discardMany, ih, discard, endIndex_addLeaf]

/-! ## Skipping and failing where the layout corresponds -/

namespace Coupled

theorem abreast (h : Coupled x entry s other t) (exact : x.exact) : Abreast x entry s other t :=
  ⟨h, .inl (x.whole_of_exact exact)⟩

theorem mark (h : Coupled x entry s other t) {failed : Bool} (clean : ¬x.exact → failed = false) :
    Coupled x { entry with failed } s { other with failed } t :=
  ⟨h.toAlike, h.entries.mark clean, h.origins.token, h.origins.layout, h.origins.start⟩

theorem broken (h : Coupled x entry s other t) (exact : x.exact) :
    Coupled x entry.broken s other.broken t :=
  h.mark fun inexact => absurd exact inexact

theorem report (h : Coupled x entry s other t) (exact : x.exact) (expected : List Expectation) :
    Coupled x entry (s.report expected) other (t.report expected) := by
  have reports : x.Reports (s.report expected).diagnostics (t.report expected).diagnostics := by
    obtain ⟨found, hs, ht, -⟩ := h.reports
    refine ⟨found.push ⟨expected, s.kind, s.position⟩, ?_, ?_, fun inexact => absurd exact inexact⟩
    · rw [ParseState.report, hs, Array.push_append]
    · rw [ParseState.report, ht, (h.abreast exact).kind_eq, (h.abreast exact).position_eq,
        Array.map_push, Array.push_append]
      rfl
  exact ⟨⟨h.rests, h.ends, h.ordered, h.spelled, h.nodes, reports, h.stack⟩, h.entries, h.origins⟩

theorem addLeaf (h : Coupled x entry s other t) (exact : x.exact) (tag? : Option NodeKind)
    (failed : Bool) : Coupled x entry (s.addLeaf tag? failed) other (t.addLeaf tag? failed) :=
  (h.abreast exact).addLeaf tag? failed

theorem discardMany (h : Coupled x entry s other t) (exact : x.exact) (n : Nat) :
    Coupled x entry (discardMany n s) other (discardMany n t) := by
  induction n generalizing s t with
  | zero => exact h
  | succ n ih => exact ih (h.addLeaf exact none true)

theorem skipGroup (h : Coupled x entry s other t) (exact : x.exact) :
    Coupled x entry s.skipGroup other t.skipGroup := by
  rw [ParseState.skipGroup, ParseState.skipGroup,
    h.rests.groupExtent_eq (x.whole_of_exact exact)]
  exact h.discardMany exact _

theorem skipTo (h : Coupled x entry s other t) (exact : x.exact) (stop : TokenKind → Bool) :
    Coupled x entry (s.skipTo stop) other (t.skipTo stop) := by
  rw [ParseState.skipTo, ParseState.skipTo, h.rests.extentTo_eq (x.whole_of_exact exact)]
  exact h.discardMany exact _

/-- A skip of the rest of a statement that began at corresponding places of the layout. -/
theorem skipStatement (h : Coupled x entry s other t) (exact : x.exact) {origin origin' : Origin}
    (origins : s.cursor.rest ≠ [] →
      origin'.line = origin.line + x.lines ∧ origin'.column = origin.column) :
    Coupled x entry (s.skipStatement origin) other (t.skipStatement origin') := by
  have skipped := h.discardMany exact (statementExtent origin s.cursor.rest)
  rw [ParseState.skipStatement, ParseState.skipStatement,
    h.rests.statementExtent_eq exact origins, (skipped.abreast exact).kind_eq]
  split
  · exact skipped.addLeaf exact none false
  · exact skipped

theorem resync (h : Coupled x entry s other t) (start start' : Nat) :
    Coupled x entry (s.resync start).1 other (t.resync start').1 :=
  ⟨⟨h.rests, h.ends, h.ordered, h.spelled, h.nodes, h.reports, h.stack⟩, h.entries, h.origins⟩

theorem recoverTo (h : Coupled x entry s other t) (exact : x.exact) (stop : TokenKind → Bool) :
    Coupled x entry (s.recoverTo stop).1 other (t.recoverTo stop).1 :=
  (h.skipTo exact stop).resync _ _

theorem recoverStatement (h : Coupled x entry s other t) (exact : x.exact) {origin origin' : Origin}
    (origins : s.cursor.rest ≠ [] →
      origin'.line = origin.line + x.lines ∧ origin'.column = origin.column) :
    Coupled x entry (s.recoverStatement origin) other (t.recoverStatement origin') :=
  (h.skipStatement exact origins).resync _ _

theorem failStatement (h : Coupled x entry s other t) (exact : x.exact) (kind : DeclarationKind) :
    Coupled x entry.broken (s.failStatement entry kind) other.broken
      (t.failStatement other kind) := by
  have origins := h.origins.layout exact
  rw [ParseState.failStatement, ParseState.failStatement, h.entries.failed]
  split
  · exact ((h.skipStatement exact origins).broken exact).close _
  · exact ((h.recoverStatement exact origins).broken exact).close _

end Coupled

/-! ## Tests -/

/-- Two ways to fail that keep what has been reported, and that correspond if the layout does. -/
structure FailsAlike (x : Likeness) (entry other : Pending) (fail fail' : ParseState → ParseState) :
    Prop where
  first : Fails fail
  second : Fails fail'
  alike : x.exact → ∀ {s t}, Coupled x entry s other t → Alike x (fail s) (fail' t)

theorem failsAlike_failStatement (kind : DeclarationKind) :
    FailsAlike x entry other (failStatement entry kind) (failStatement other kind) where
  first := fails_failStatement entry kind
  second := fails_failStatement other kind
  alike exact _ _ h := (h.failStatement exact kind).toAlike

/-- A construct that is closed with a mark. -/
theorem failsAlike_close (tag? : Option NodeKind) :
    FailsAlike x entry other (fun s => s.close entry.broken tag?)
      (fun t => t.close other.broken tag?) where
  first _ := diagnostics_close tag?
  second _ := diagnostics_close tag?
  alike exact _ _ h := ((h.broken exact).close tag?).toAlike

/-- A part that lets the construct around it fail. -/
theorem failsAlike_markEnclosing :
    FailsAlike x entry other markEnclosing markEnclosing where
  first _ := diagnostics_markEnclosing
  second _ := diagnostics_markEnclosing
  alike exact _ _ h := (h.markEnclosing exact).toAlike

theorem Coupled.answers (h : Coupled x entry s other t) : Answers x s t := .inl h.toAlike

section

variable {fail fail' ok ok' : ParseState → ParseState} {expected : List Expectation}

/-- Both parses have reported the same about the next token. -/
theorem Abreast.strays {u v : ParseState} (h : Abreast x entry s other t) (inexact : ¬x.exact)
    (first : u.diagnostics = (s.report expected).diagnostics)
    (second : v.diagnostics = (t.report expected).diagnostics) : x.Strays u v := by
  obtain ⟨found, hs, ht, hnone⟩ := h.reports
  rw [hnone inexact, Array.append_empty] at hs
  rw [hnone inexact, Array.map_empty, Array.append_empty] at ht
  refine ⟨inexact, .inl ?_, fun whole => ⟨⟨expected, s.kind, s.position⟩, ?_, ?_⟩⟩
  · rw [first, report, ← hs]
    exact fun heq => absurd (congrArg Array.size heq) (by simp)
  · rw [(x.alone_of_whole whole).1] at hs
    rw [first, report, hs]
    rfl
  · rw [(x.alone_of_whole whole).2.1] at ht
    rw [second, report, ht, h.kind_eq, h.position_eq]
    rfl

/-- Both parses report the same, and fail. -/
theorem answers_fail (h : Abreast x entry s other t) (fails : FailsAlike x entry other fail fail')
    (expected : List Expectation) :
    Answers x (fail (s.report expected)) (fail' (t.report expected)) := by
  by_cases exact : x.exact
  · exact .inl (fails.alike exact (h.report exact expected))
  · exact .inr (h.strays exact (fails.first _) (fails.second _))

theorem answers_require {test test' : Bool} (h : Abreast x entry s other t)
    (same : test' = test) (fails : FailsAlike x entry other fail fail')
    (hok : test = true → Answers x (ok s) (ok' t)) :
    Answers x (s.require test expected fail ok) (t.require test' expected fail' ok') := by
  rw [require, require, same]
  split
  case isTrue htest => exact hok htest
  case isFalse => exact answers_fail h fails expected

/-- A token that ends no statement is expected. -/
theorem answers_expect {kind : TokenKind} (h : Abreast x entry s other t)
    (fails : FailsAlike x entry other fail fail') (goesOn : kind.endsStatement = false)
    (hok : s.kind = kind → Abreast x entry s.take other t.take →
      Answers x (ok s.take) (ok' t.take)) :
    Answers x (s.expect kind fail ok) (t.expect kind fail' ok') := by
  refine answers_require h (by rw [h.kind_eq]) fails fun htest => ?_
  have hkind : s.kind = kind := beq_iff_eq.mp htest
  exact hok hkind (h.take (by rwa [hkind]))

theorem answers_expectStrings (h : Abreast x entry s other t)
    (fails : FailsAlike x entry other fail fail')
    (hok : ∀ {u v}, Abreast x entry u other v → Answers x (ok u) (ok' v)) :
    Answers x (s.expectStrings fail ok) (t.expectStrings fail' ok') := by
  refine answers_require h (by rw [h.kind_eq]) fails fun _ =>
    hok (h.takeRun rfl fun kind hkind => ?_)
  rw [beq_iff_eq.mp hkind]
  rfl

/-- The semicolon may be the last token that the parses share. -/
theorem answers_endStatement (h : Abreast x entry s other t) (kind : DeclarationKind) :
    Answers x (s.endStatement entry kind) (t.endStatement other kind) := by
  rw [endStatement, endStatement, expect, expect]
  exact answers_require h (by rw [h.kind_eq]) (failsAlike_failStatement kind) fun _ =>
    .inl ((h.addLeaf none false).close _).toAlike

/-- A statement some part of which has failed before. -/
theorem answers_failStatement (h : Abreast x entry s other t) (failed : entry.failed = true)
    (kind : DeclarationKind) :
    Answers x (s.failStatement entry kind) (t.failStatement other kind) :=
  .inl (h.failStatement (h.entries.exact_of_failed failed) kind).toAlike

end

/-! ## What may have been reported before -/

/-- Parses of whole inputs have reported the same about the next token. -/
theorem Abreast.reportedHere_eq (h : Abreast x entry s other t) (whole : x.whole) :
    t.reportedHere = s.reportedHere := by
  obtain ⟨found, hs, ht, hnone⟩ := h.reports
  obtain ⟨hfirst, hsecond, -⟩ := x.alone_of_whole whole
  rw [hfirst, Array.empty_append] at hs
  rw [hsecond, Array.empty_append] at ht
  rw [reportedHere, reportedHere, hs, ht, Array.back?_map, h.position_eq]
  rcases hlast : found.back? with _ | last
  · rfl
  · have exact : x.exact := by
      by_contra inexact
      rw [hnone inexact] at hlast
      cases hlast
    show (x.token last.token == x.token s.position) = (last.token == s.position)
    rw [Bool.eq_iff_iff, beq_iff_eq, beq_iff_eq, (x.injective_of_exact exact).eq_iff]

/-- Up to its first report a parse of a whole input has reported nothing about the next token. -/
theorem Alike.reportedHere_eq_false (h : Alike x s t) (whole : x.whole) (inexact : ¬x.exact) :
    s.reportedHere = false := by
  obtain ⟨found, hs, -, hnone⟩ := h.reports
  rw [(x.alone_of_whole whole).1, hnone inexact, Array.append_empty] at hs
  rw [reportedHere, hs]
  rfl

/-- Something that a construct cannot begin with is reported, unless that has been done, and
skipped. Where something was reported before, the skip leaves a mark. -/
theorem answers_junk {skip skip' : ParseState → ParseState} (h : Abreast x entry s other t)
    (fails : FailsAlike x entry other skip skip') (marks : ¬x.whole → x.Spoiled (skip s))
    (expected : List Expectation) :
    Answers x (skip (if s.reportedHere then s else s.report expected))
      (skip' (if t.reportedHere then t else t.report expected)) := by
  by_cases exact : x.exact
  · rw [h.reportedHere_eq (x.whole_of_exact exact)]
    split
    case isTrue => exact .inl (fails.alike exact h.toCoupled)
    case isFalse => exact answers_fail h fails expected
  · by_cases whole : x.whole
    · rw [h.reportedHere_eq whole, h.reportedHere_eq_false whole exact]
      exact answers_fail h fails expected
    · refine .inr ⟨exact, ?_, fun hwhole => absurd hwhole whole⟩
      split
      case isTrue => exact marks whole
      case isFalse => exact (h.strays exact (fails.first _) (fails.second _)).spoiled

end ProtoFront
