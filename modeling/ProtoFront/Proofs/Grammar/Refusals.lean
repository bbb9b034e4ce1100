import ProtoFront.Proofs.Grammar.Acceptance

/-!
# Tokens that no rule takes

What the lexer could make nothing of has no place in the grammar. So a buffer about which nothing is
reported holds no such token.
-/

namespace ProtoFront

variable {form : Form} {input rest : List Lexeme} {kind : TokenKind}

/-- Whether a form takes no token of some kind, as far as it is not made of other nonterminals. -/
def Form.refuses (kind : TokenKind) : Form → Bool
  | nothing | ahead _ | named _ => true
  | among test => !test kind
  | word _ => kind != .identifier
  | both first second => first.refuses kind && second.refuses kind
  | either left right => left.refuses kind && right.refuses kind
  | many form => form.refuses kind

theorem Nonterminal.refuses_invalid (nonterminal : Nonterminal) :
    nonterminal.rule.refuses .invalid = true := by
  cases nonterminal with
  | statement body =>
    rcases body with kind | _ | _
    · cases kind <;> rfl
    · rfl
    · rfl
  | ranges kind => cases kind <;> rfl
  | scope kind => cases kind <;> rfl
  | _ => rfl

/-- What is of a form holds no token of a kind that neither the form nor any rule takes. -/
theorem Derives.exists_read (h : Derives form input rest)
    (rules : ∀ nonterminal : Nonterminal, nonterminal.rule.refuses kind = true)
    (refuses : form.refuses kind = true) (spelled : Spelled input) :
    ∃ read, input = read ++ rest ∧ ∀ lexeme ∈ read, lexeme.kind ≠ kind := by
  induction h with
  | nothing | stop | ahead => exact ⟨[], rfl, by simp⟩
  | @among test next rest htest =>
    refine ⟨[next], rfl, fun lexeme hlexeme hkind => ?_⟩
    obtain rfl := List.mem_singleton.mp hlexeme
    rw [Form.refuses, ← hkind, htest] at refuses
    cases refuses
  | @word word next rest hword =>
    refine ⟨[next], rfl, fun lexeme hlexeme hkind => ?_⟩
    obtain rfl := List.mem_singleton.mp hlexeme
    have hspelled := spelled lexeme List.mem_cons_self (by rw [hword]; exact Option.some_ne_none _)
    rw [Form.refuses, ← hkind, hspelled] at refuses
    cases refuses
  | both _ _ ih ih' =>
    rw [Form.refuses, Bool.and_eq_true_iff] at refuses
    obtain ⟨read, rfl, hread⟩ := ih refuses.1 spelled
    obtain ⟨read', rfl, hread'⟩ := ih' refuses.2 fun lexeme hlexeme =>
      spelled lexeme (List.mem_append_right _ hlexeme)
    exact ⟨read ++ read', (List.append_assoc ..).symm, List.forall_mem_append.mpr ⟨hread, hread'⟩⟩
  | left _ ih =>
    rw [Form.refuses, Bool.and_eq_true_iff] at refuses
    exact ih refuses.1 spelled
  | right _ ih =>
    rw [Form.refuses, Bool.and_eq_true_iff] at refuses
    exact ih refuses.2 spelled
  | again _ _ ih ih' =>
    obtain ⟨read, rfl, hread⟩ := ih refuses spelled
    obtain ⟨read', rfl, hread'⟩ := ih' refuses fun lexeme hlexeme =>
      spelled lexeme (List.mem_append_right _ hlexeme)
    exact ⟨read ++ read', (List.append_assoc ..).symm, List.forall_mem_append.mpr ⟨hread, hread'⟩⟩
  | named _ ih => exact ih (rules _) spelled

/-- Where nothing is reported, every token is valid. -/
theorem TokenBuffer.kind_ne_invalid {buffer : TokenBuffer} {fragment : Fragment} {syncLimit : Nat}
    {lexeme : Lexeme} (clean : (buffer.parseTokens fragment syncLimit).diagnostics = [])
    (h : lexeme ∈ buffer.significant) : lexeme.kind ≠ .invalid := by
  have derives := (diagnostics_parseTokens buffer fragment syncLimit).mp clean
  have refuses : fragment.goal.form.refuses .invalid = true := by cases fragment <;> rfl
  obtain ⟨read, hread, valid⟩ :=
    derives.exists_read Nonterminal.refuses_invalid refuses buffer.spelled_significant
  rw [hread, List.append_nil] at h
  exact valid lexeme h

end ProtoFront
