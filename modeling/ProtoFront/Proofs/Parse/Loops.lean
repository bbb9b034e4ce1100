import ProtoFront.Proofs.Parse.Recovery

/-!
# Skips as loops

How far a skip reaches is computed from the lexemes beforehand. A parser that looks at one token
at a time finds it out in a loop. Each skip, and each run of tokens of a kind, is shown here to be
where such a loop ends, after at most as many rounds as there are tokens left.
-/

namespace ProtoFront

open ParseState

/-- `Loop round n s t`: a loop that begins at `s` ends at `t` after `n` rounds. A round leads to
another state or breaks off the loop. -/
inductive Loop {σ : Type} (round : σ → Option σ) : Nat → σ → σ → Prop
  | done {s} : round s = none → Loop round 0 s s
  | again {n s t u} : round s = some t → Loop round n t u → Loop round (n + 1) s u

/-- A loop ends at one state only. -/
theorem Loop.unique {σ : Type} {round : σ → Option σ} {n m : Nat} {s t u : σ}
    (h : Loop round n s t) (h' : Loop round m s u) : t = u := by
  induction h generalizing m u with
  | done hbreak =>
    cases h' with
    | done => rfl
    | again hround => rw [hbreak] at hround; cases hround
  | again hround _ ih =>
    cases h' with
    | done hbreak => rw [hround] at hbreak; cases hbreak
    | again hround' hrest =>
      rw [hround] at hround'
      cases hround'
      exact ih hrest

/-! ## The rounds -/

/-- Makes a leaf of the next token if it belongs to the run. -/
def runRound (member : TokenKind → Bool) (s : ParseState) : Option ParseState :=
  if member s.kind then some s.take else none

/-- Skips one token of a group. The brackets that are open are kept beside the state, and nothing
is kept once the group has been skipped. -/
def groupRound : ParseState × Option (List Bracket) → Option (ParseState × Option (List Bracket))
  | (_, none) => none
  | (s, some inner) =>
    match s.kind with
    | .eof => none
    | .opener pair => some (s.discard, some (pair :: inner))
    | .closer pair =>
      match closeThrough? pair inner with
      | none => none
      | some [] => some (s.discard, none)
      | some outer => some (s.discard, some outer)
    | _ => some (s.discard, if inner.isEmpty then none else some inner)

/-- Skips one token, or a group, unless the skip is to stop there. -/
def skipRound (stop : TokenKind → Bool) (s : ParseState) : Option ParseState :=
  if s.kind = .eof ∨ stop s.kind then none
  else if s.kind.isOpener then some s.skipGroup
  else if s.kind.isCloser then none
  else some s.discard

/-- Skips one token, or a group, that the layout counts to the statement that began at `origin`.
The semicolon of the statement is the last token that is read. -/
def statementRound (origin : Origin) : ParseState × Bool → Option (ParseState × Bool)
  | (_, true) => none
  | (s, false) =>
    match s.kind with
    | .eof | .closer .brace | .closer .angle => none
    | .semicolon => some (s.take, true)
    | kind =>
      if s.cursor.rest.head?.any (·.startsAfresh origin) then none
      else if kind.isOpener then some (s.skipGroup, false)
      else some (s.discard, false)

/-! ## Where the loops end -/

variable {s : ParseState} {next : Lexeme} {rest : List Lexeme}

theorem ParseState.kind_of_rest (h : s.cursor.rest = next :: rest) : s.kind = next.kind := by
  rw [kind, Cursor.kind, h]

/-- What holds when a token is read holds when tokens in a row are. -/
theorem ParseState.takeRun_of_take {P : ParseState → Prop} {member : TokenKind → Bool} (hs : P s)
    (step : ∀ t, P t → member t.kind = true → P t.take) : P (s.takeRun member) := by
  rw [takeRun]
  generalize hlexemes : s.cursor.rest = lexemes
  induction lexemes generalizing s with
  | nil => exact hs
  | cons next rest ih =>
    have hkind := kind_of_rest hlexemes
    rcases hmember : member next.kind with _ | _
    · rw [List.takeWhile_cons, hmember]
      exact hs
    · rw [List.takeWhile_cons, hmember]
      refine ih (step s hs (by rw [hkind, hmember])) ?_
      rw [take, rest_addLeaf, hlexemes]
      rfl

/-- The first token of a row. -/
theorem ParseState.takeRun_take {member : TokenKind → Bool} (h : s.cursor.rest = next :: rest)
    (hmember : member next.kind = true) : s.takeRun member = s.take.takeRun member := by
  have hrest : s.take.cursor.rest = rest := by rw [take, rest_addLeaf, h]; rfl
  rw [takeRun, takeRun, h, hrest, List.takeWhile_cons, if_pos hmember]
  rfl

theorem ParseState.rest_discard (h : s.cursor.rest = next :: rest) :
    s.discard.cursor.rest = rest := by
  rw [ParseState.discard, rest_addLeaf, h]
  rfl

theorem ParseState.rest_discardMany (n : Nat) (s : ParseState) :
    (discardMany n s).cursor.rest = s.cursor.rest.drop n := by
  induction n generalizing s with
  | zero => rfl
  | succ n ih => rw [discardMany, ih, ParseState.discard, rest_addLeaf, List.drop_tail]

theorem ParseState.rest_discardMany_succ (n : Nat) (h : s.cursor.rest = next :: rest) :
    (discardMany (n + 1) s).cursor.rest = rest.drop n := by
  rw [rest_discardMany, h, List.drop_succ_cons]

theorem ParseState.left_discardMany_succ (n : Nat) (h : s.cursor.rest = next :: rest) :
    (discardMany (n + 1) s).left < s.left := by
  rw [left, left, rest_discardMany_succ n h, h, List.length_drop, List.length_cons]
  omega

theorem ParseState.mem_of_mem_discardMany {lexeme : Lexeme} {n : Nat}
    (h : lexeme ∈ (discardMany n s).cursor.rest) : lexeme ∈ s.cursor.rest := by
  rw [rest_discardMany] at h
  exact List.mem_of_mem_drop h

theorem ParseState.discardMany_add (m n : Nat) (s : ParseState) :
    discardMany (m + n) s = discardMany m (discardMany n s) := by
  induction n generalizing s with
  | zero => rfl
  | succ n ih => exact ih s.discard

/-- A skip that reaches past its first tokens goes on behind them. -/
theorem ParseState.skipTo_eq_of_extent {stop : TokenKind → Bool} {n : Nat}
    (h : s.cursor.rest = next :: rest)
    (hextent : extentTo stop (next :: rest) = extentTo stop (rest.drop n) + (n + 1)) :
    s.skipTo stop = (discardMany (n + 1) s).skipTo stop := by
  rw [skipTo, skipTo, rest_discardMany_succ n h, ← discardMany_add, h, hextent]

theorem ParseState.skipStatement_eq_of_extent {origin : Origin} {n : Nat}
    (h : s.cursor.rest = next :: rest)
    (hextent : statementExtent origin (next :: rest) =
      statementExtent origin (rest.drop n) + (n + 1)) :
    s.skipStatement origin = (discardMany (n + 1) s).skipStatement origin := by
  rw [skipStatement, skipStatement, rest_discardMany_succ n h, ← discardMany_add, h, hextent]

/-- A group that begins with the next token is its opener and what the opener holds. -/
theorem ParseState.skipGroup_of_rest {pair : Bracket} (h : s.cursor.rest = next :: rest)
    (hopener : next.kind = .opener pair) :
    s.skipGroup = discardMany (groupExtent [pair] rest + 1) s := by
  rw [skipGroup, h, groupExtent, hopener]

theorem loop_takeRun (member : TokenKind → Bool) (heof : member .eof = false) (s : ParseState) :
    ∃ n ≤ s.left, Loop (runRound member) n s (s.takeRun member) := by
  generalize hlexemes : s.cursor.rest = lexemes
  induction lexemes generalizing s with
  | nil =>
    refine ⟨0, Nat.zero_le _, ?_⟩
    rw [takeRun, hlexemes]
    refine .done ?_
    rw [runRound, show s.kind = .eof by rw [kind, Cursor.kind, hlexemes], heof]
    rfl
  | cons next rest ih =>
    have hkind := kind_of_rest hlexemes
    by_cases hmember : member next.kind = true
    · have hrest : s.take.cursor.rest = rest := by rw [take, rest_addLeaf, hlexemes]; rfl
      obtain ⟨n, hle, hloop⟩ := ih s.take hrest
      rw [takeRun_take hlexemes hmember]
      refine ⟨n + 1, ?_, .again (by rw [runRound, hkind, if_pos hmember]) hloop⟩
      rw [left, hrest] at hle
      rw [left, hlexemes]
      exact Nat.succ_le_succ hle
    · refine ⟨0, Nat.zero_le _, ?_⟩
      rw [takeRun, hlexemes, List.takeWhile_cons, if_neg hmember]
      exact .done (by rw [runRound, hkind, if_neg hmember])

theorem loop_group (inner : List Bracket) (s : ParseState)
    (lexemes : ∀ lexeme ∈ s.cursor.rest, lexeme.kind ≠ .eof) :
    ∃ n ≤ s.left, ∃ inner?, Loop groupRound n (s, some inner)
      (discardMany (groupExtent inner s.cursor.rest) s, inner?) := by
  generalize hlexemes : s.cursor.rest = rest at lexemes
  induction rest generalizing s inner with
  | nil =>
    refine ⟨0, Nat.zero_le _, some inner, .done ?_⟩
    rw [groupRound, show s.kind = .eof by rw [kind, Cursor.kind, hlexemes]]
  | cons next rest ih =>
    have hkind := kind_of_rest hlexemes
    have hrest := rest_discard hlexemes
    have hleft : s.left = s.discard.left + 1 := by
      rw [left, left, hrest, hlexemes]
      rfl
    -- the ways in which a round can end: before the token, behind the group, inside of it
    have stuck (hround : groupRound (s, some inner) = none) :
        ∃ n ≤ s.left, ∃ inner?, Loop groupRound n (s, some inner) (discardMany 0 s, inner?) :=
      ⟨0, Nat.zero_le _, some inner, .done hround⟩
    have last (hround : groupRound (s, some inner) = some (s.discard, none)) :
        ∃ n ≤ s.left, ∃ inner?, Loop groupRound n (s, some inner) (discardMany 1 s, inner?) :=
      ⟨1, by omega, none, .again hround (.done rfl)⟩
    have again (outer : List Bracket)
        (hround : groupRound (s, some inner) = some (s.discard, some outer)) :
        ∃ n ≤ s.left, ∃ inner?, Loop groupRound n (s, some inner)
          (discardMany (groupExtent outer rest + 1) s, inner?) := by
      obtain ⟨n, hle, inner?, hloop⟩ := ih outer s.discard hrest
        (fun lexeme hlexeme => lexemes lexeme (List.mem_cons_of_mem _ hlexeme))
      exact ⟨n + 1, by omega, inner?, .again hround hloop⟩
    rw [groupExtent]
    split
    case h_1 pair hnext => exact again _ (by simp only [groupRound, hkind, hnext])
    case h_2 pair hnext =>
      split
      case h_1 hnone => exact stuck (by simp only [groupRound, hkind, hnext, hnone])
      case h_2 hlast => exact last (by simp only [groupRound, hkind, hnext, hlast])
      case h_3 outer hopen houter =>
        refine again outer ?_
        rcases outer with _ | ⟨pair', outer⟩
        · exact absurd rfl hopen
        · simp only [groupRound, hkind, hnext, houter]
    case h_3 hopener hcloser =>
      have hround : groupRound (s, some inner) =
          some (s.discard, if inner.isEmpty then none else some inner) := by
        dsimp only [groupRound]
        rw [hkind]
        split
        · exact absurd ‹_› (lexemes next List.mem_cons_self)
        · exact absurd ‹_› (hopener _)
        · exact absurd ‹_› (hcloser _)
        · rfl
      split at hround
      case isTrue hempty =>
        rw [if_pos hempty]
        exact last hround
      case isFalse hopen =>
        rw [if_neg hopen]
        exact again inner hround

theorem loop_skipGroup (s : ParseState) (lexemes : ∀ lexeme ∈ s.cursor.rest, lexeme.kind ≠ .eof) :
    ∃ n ≤ s.left, ∃ inner?, Loop groupRound n (s, some []) (s.skipGroup, inner?) :=
  loop_group [] s lexemes

/-- A skip may end at once, or go on behind its first tokens. -/
theorem loop_again {σ : Type} {round : σ → Option σ} {s t u : σ} {n m : Nat}
    (hround : round s = some t) (hlt : n < m) (h : ∃ k ≤ n, Loop round k t u) :
    ∃ k ≤ m, Loop round k s u := by
  obtain ⟨k, hle, hloop⟩ := h
  exact ⟨k + 1, by omega, .again hround hloop⟩

theorem loop_skipTo (stop : TokenKind → Bool) (s : ParseState)
    (lexemes : ∀ lexeme ∈ s.cursor.rest, lexeme.kind ≠ .eof) :
    ∃ n ≤ s.left, Loop (skipRound stop) n s (s.skipTo stop) := by
  -- not on the lexemes: a round may skip a group of any length
  induction hleft : s.left using Nat.strongRecOn generalizing s with
  | _ left ih =>
    subst hleft
    rcases hrest : s.cursor.rest with _ | ⟨next, rest⟩
    · refine ⟨0, Nat.zero_le _, ?_⟩
      rw [skipTo, hrest, extentTo]
      exact .done (by rw [skipRound, if_pos (.inl (by rw [kind, Cursor.kind, hrest]))])
    · have hkind := kind_of_rest hrest
      have hleft : s.left = rest.length + 1 := by rw [ParseState.left, hrest]; rfl
      -- a round that breaks off the loop, and one that skips `n + 1` tokens
      have ends (hround : skipRound stop s = none) (hextent : extentTo stop (next :: rest) = 0) :
          ∃ n ≤ s.left, Loop (skipRound stop) n s (s.skipTo stop) := by
        rw [skipTo, hrest, hextent]
        exact ⟨0, Nat.zero_le _, .done hround⟩
      have goes (n : Nat) (hround : skipRound stop s = some (discardMany (n + 1) s))
          (hextent : extentTo stop (next :: rest) = extentTo stop (rest.drop n) + (n + 1)) :
          ∃ n ≤ s.left, Loop (skipRound stop) n s (s.skipTo stop) := by
        have hlt := left_discardMany_succ n hrest
        refine loop_again hround hlt ?_
        rw [skipTo_eq_of_extent hrest hextent]
        exact ih _ hlt _ (fun lexeme hlexeme => lexemes lexeme (mem_of_mem_discardMany hlexeme)) rfl
      have hthere : next.kind ≠ .eof := lexemes next (by rw [hrest]; exact List.mem_cons_self)
      by_cases hstop : stop next.kind = true
      · refine ends ?_ ?_
        · rw [skipRound, hkind, if_pos (.inr hstop)]
        · rw [extentTo, if_pos hstop]
      · have hgo : ¬(next.kind = .eof ∨ stop next.kind = true) := not_or.mpr ⟨hthere, hstop⟩
        rw [← hkind] at hgo
        cases hnext : next.kind with
        | opener pair =>
          refine goes (groupExtent [pair] rest) ?_ ?_
          · rw [skipRound, if_neg hgo, hkind, hnext, ← skipGroup_of_rest hrest hnext]
            rfl
          · rw [extentTo, if_neg hstop, hnext]
            rfl
        | closer pair =>
          refine ends ?_ ?_
          · rw [skipRound, if_neg hgo, hkind, hnext]
            rfl
          · rw [extentTo, if_neg hstop, hnext]
        | _ =>
          refine goes 0 ?_ ?_
          · rw [skipRound, if_neg hgo, hkind, hnext]
            rfl
          · rw [extentTo, if_neg hstop, hnext]
            rfl

theorem loop_skipStatement (origin : Origin) (s : ParseState)
    (lexemes : ∀ lexeme ∈ s.cursor.rest, lexeme.kind ≠ .eof) :
    ∃ n ≤ s.left, ∃ ended, Loop (statementRound origin) n (s, false)
      (s.skipStatement origin, ended) := by
  induction hleft : s.left using Nat.strongRecOn generalizing s with
  | _ left ih =>
    subst hleft
    rcases hrest : s.cursor.rest with _ | ⟨next, rest⟩
    · have heof : s.kind = .eof := by rw [kind, Cursor.kind, hrest]
      refine ⟨0, Nat.zero_le _, false, ?_⟩
      rw [skipStatement, hrest, statementExtent, discardMany, heof]
      exact .done (by simp only [statementRound, heof])
    · have hkind := kind_of_rest hrest
      have hleft : s.left = rest.length + 1 := by rw [ParseState.left, hrest]; rfl
      have hthere : next.kind ≠ .eof := lexemes next (by rw [hrest]; exact List.mem_cons_self)
      have ends (hround : statementRound origin (s, false) = none)
          (hextent : statementExtent origin (next :: rest) = 0) (hopen : next.kind ≠ .semicolon) :
          ∃ n ≤ s.left, ∃ ended, Loop (statementRound origin) n (s, false)
            (s.skipStatement origin, ended) := by
        refine ⟨0, Nat.zero_le _, false, ?_⟩
        rw [skipStatement, hrest, hextent, discardMany, hkind, if_neg hopen]
        exact .done hround
      have goes (n : Nat)
          (hround : statementRound origin (s, false) = some (discardMany (n + 1) s, false))
          (hextent : statementExtent origin (next :: rest) =
            statementExtent origin (rest.drop n) + (n + 1)) :
          ∃ n ≤ s.left, ∃ ended, Loop (statementRound origin) n (s, false)
            (s.skipStatement origin, ended) := by
        have hlt := left_discardMany_succ n hrest
        obtain ⟨k, hle, ended, hloop⟩ := ih _ hlt (discardMany (n + 1) s)
          (fun lexeme hlexeme => lexemes lexeme (mem_of_mem_discardMany hlexeme)) rfl
        refine ⟨k + 1, by omega, ended, .again hround ?_⟩
        rwa [skipStatement_eq_of_extent hrest hextent]
      have fresh : s.cursor.rest.head?.any (·.startsAfresh origin) = next.startsAfresh origin := by
        rw [hrest]
        rfl
      -- a token or a group that the layout decides about
      have decides (n : Nat) (hopen : next.kind ≠ .semicolon)
          (hround : statementRound origin (s, false) =
            if next.startsAfresh origin then none else some (discardMany (n + 1) s, false))
          (hextent : statementExtent origin (next :: rest) =
            if next.startsAfresh origin then 0
            else statementExtent origin (rest.drop n) + (n + 1)) :
          ∃ n ≤ s.left, ∃ ended, Loop (statementRound origin) n (s, false)
            (s.skipStatement origin, ended) := by
        split at hround
        case isTrue hfresh => exact ends hround (by rw [hextent, if_pos hfresh]) hopen
        case isFalse hfresh => exact goes n hround (by rw [hextent, if_neg hfresh])
      cases hnext : next.kind with
      | semicolon =>
        refine ⟨1, by omega, true, .again ?_ (.done rfl)⟩
        have hskip : s.skipStatement origin = s.take := by
          rw [skipStatement, hrest, statementExtent, hnext, discardMany, hkind, hnext, if_pos rfl]
        rw [hskip]
        simp only [statementRound, hkind, hnext]
      | opener pair =>
        refine decides (groupExtent [pair] rest) (by rw [hnext]; simp) ?_ ?_
        · simp only [statementRound, hkind, hnext, fresh, TokenKind.isOpener, if_true,
            skipGroup_of_rest hrest hnext]
        · rw [statementExtent, hnext]
          rfl
      | closer pair =>
        have hplain := decides 0 (by rw [hnext]; simp)
        cases pair with
        | brace =>
          refine ends ?_ ?_ (by rw [hnext]; simp)
          · simp only [statementRound, hkind, hnext]
          · rw [statementExtent, hnext]
        | angle =>
          refine ends ?_ ?_ (by rw [hnext]; simp)
          · simp only [statementRound, hkind, hnext]
          · rw [statementExtent, hnext]
        | _ =>
          refine hplain ?_ ?_
          · simp only [statementRound, hkind, hnext, fresh]
            rfl
          · rw [statementExtent, hnext]
            rfl
      | eof => exact absurd hnext hthere
      | _ =>
        refine decides 0 (by rw [hnext]; simp) ?_ ?_
        · simp only [statementRound, hkind, hnext, fresh]
          rfl
        · rw [statementExtent, hnext]
          rfl

end ProtoFront
