import ProtoFront.Proofs.Grammar.Statements
import ProtoFront.Parse.Declarations

/-!
# Declarations and bodies are read as the grammar has them

What begins like another statement of a message is no field; with that, the next two tokens choose
the statement of a body (`owes_statement`).
-/

namespace ProtoFront

open ParseState

variable {entry : Pending} {s : ParseState} {forms : List Form} {body : BodyKind}

/-! ## Scopes and extensions -/

theorem fails_failScope (kind : ScopeKind) (entry : Pending) : Fails (failScope kind entry) := by
  intro s
  rw [failScope, diagnostics_close]
  exact diagnostics_recoverStatement _

theorem owes_scope {kind : ScopeKind} (hkind : s.kind = .keyword kind.word) :
    (s.scope kind entry).Owes [] ↔ s.Owes [.named (.scope kind)] := by
  have fails := fails_failScope kind entry
  rw [owes_named, Nonterminal.rule, owes_both, owes_just_of_kind hkind rfl, owes_both]
  refine owes_requireAmong rfl fails fun _ => ?_
  rw [← owes_takeAs .name, owes_both]
  exact owes_expect rfl fails fun _ => owes_enterBody (.scope kind)

theorem owes_extend (hkind : s.kind = .keyword .kwExtend) :
    (s.extend entry).Owes [] ↔ s.Owes [.named .extend] := by
  rw [owes_named, Nonterminal.rule, owes_both, owes_just_of_kind hkind rfl, owes_both]
  exact owes_requireType (fails_failStatement entry .extend) (owes_wait ..)

theorem owes_extendAfterName (unmarked : entry.failed = false) :
    (s.extendAfterName entry).Owes [] ↔ s.Owes [Goal.extendAfterName.form] := by
  rw [extendAfterName, unmarked, if_neg Bool.false_ne_true, Goal.form, owes_both]
  exact owes_expect rfl (fails_failStatement entry .extend) fun _ => owes_enterBody .extend

/-! ## Statements of bodies -/

theorem following_of_owes_scope {kind : ScopeKind} (h : s.Owes (.named (.scope kind) :: forms)) :
    s.kind = .keyword kind.word ∧ s.following.isIdentifierLike = true := by
  rw [owes_named, Nonterminal.rule, owes_both, owes_just rfl, owes_both, owes_identifier, take,
    kind_addLeaf] at h
  exact ⟨h.1, h.2.1⟩

theorem following_of_owes_extend (h : s.Owes (.named .extend :: forms)) :
    s.kind = .keyword .kwExtend ∧ startsType s.following = true := by
  rw [owes_named, Nonterminal.rule, owes_both, owes_just rfl, owes_both] at h
  refine ⟨h.1, ?_⟩
  rw [← s.kind_addLeaf none false]
  exact startsType_of_word h.2.2

section
variable {next following : TokenKind} {goal : Goal}

theorem statement?_message : statement? (.scope .message) next following = some .field ↔
    startsType next = true ∧ beginsDeclaration next following = false := by
  have starts (word : Keyword) : startsType (.keyword word) = true := rfl
  cases next with
  | keyword word => cases word <;> simp [statement?, beginsDeclaration, starts]
  | _ => simp [statement?, beginsDeclaration]

theorem statement?_enum : statement? (.scope .enum) next following = some .enumValue ↔
    next.isIdentifierLike = true ∧
      (next != .keyword .kwOption && next != .keyword .kwReserved) = true := by
  have starts (word : Keyword) : (TokenKind.keyword word).isIdentifierLike = true := rfl
  cases next with
  | keyword word => cases word <;> simp [statement?, starts]
  | _ => simp [statement?]

theorem statement?_oneof : statement? (.scope .oneof) next following = some .field ↔
    startsType next = true ∧ (next != .keyword .kwOption) = true := by
  have starts (word : Keyword) : startsType (.keyword word) = true := rfl
  cases next with
  | keyword word => cases word <;> simp [statement?, starts]
  | _ => simp [statement?]

theorem statement?_extend : statement? .extend next following = some .field ↔
    startsType next = true := by
  have starts (word : Keyword) : startsType (.keyword word) = true := rfl
  cases next with
  | keyword word => cases word <;> simp [statement?, starts]
  | _ => simp [statement?]

/-- The statements that a body may hold. -/
def BodyKind.statements : BodyKind → List Goal
  | .scope .message =>
    [.option, .ranges .reserved, .ranges .extensions, .scope .message, .scope .enum, .scope .oneof,
      .extend, .field]
  | .scope .enum => [.option, .ranges .reserved, .enumValue]
  | .scope .service => [.option, .rpc]
  | .scope .oneof => [.option, .field]
  | .extend => [.field]
  | .rpc => [.option]

theorem statement?_mem (h : statement? body next following = some goal) :
    goal ∈ body.statements := by
  rcases body with (_ | _ | _ | _) | _ | _
  all_goals
    rw [BodyKind.statements]
    unfold statement? at h
    grind

end

/-- What a body holds next: a semicolon, or the statement that the next two tokens choose. -/
def ParseState.OwesStatement (s : ParseState) (body : BodyKind) (forms : List Form) : Prop :=
  s.kind = .semicolon ∧ s.take.Owes forms ∨
    ∃ goal, statement? body s.kind s.following = some goal ∧ s.Owes (goal.form :: forms)

/-- A statement that begins with a word of its own is chosen by that word. -/
theorem owesStatement_of_word (goal : Goal) {word : Keyword}
    (only : goal.ready = fun next => next == .keyword word) (eager : goal.eager = true)
    (unnamed : ∀ tag?, goal ≠ .qualifiedName tag?)
    (choice : ∀ following, statement? body (.keyword word) following = some goal)
    (h : s.Owes (goal.form :: forms)) : s.OwesStatement body forms :=
  .inr ⟨goal, by rw [kind_of_owes goal only eager unnamed h, choice], h⟩

theorem owesStatement_scope {kind : ScopeKind} (nested : kind ≠ .service)
    (h : s.Owes (.named (.scope kind) :: forms)) : s.OwesStatement (.scope .message) forms := by
  obtain ⟨hkind, hword⟩ := following_of_owes_scope h
  refine .inr ⟨.scope kind, ?_, h⟩
  rw [hkind]
  cases kind with
  | service => exact absurd rfl nested
  | message | enum | oneof =>
    rw [ScopeKind.word, statement?, hword]
    rfl

theorem owes_statement_message : s.Owes (.named (.statement (.scope .message)) :: forms) ↔
    s.OwesStatement (.scope .message) forms := by
  rw [owes_named, Nonterminal.rule]
  repeat rw [owes_either]
  rw [owes_just rfl, owes_both, owes_ahead]
  constructor
  · rintro ((((((((hsemicolon | hoption) | hreserved) | hextensions) | hmessage) | henum) | honeof)
      | hextend) | ⟨hplain, hfield⟩)
    · exact .inl hsemicolon
    · exact owesStatement_of_word .option rfl rfl (by simp) (fun _ => rfl) hoption
    · exact owesStatement_of_word (.ranges .reserved) rfl rfl (by simp) (fun _ => rfl) hreserved
    · exact owesStatement_of_word (.ranges .extensions) rfl rfl (by simp) (fun _ => rfl)
        hextensions
    · exact owesStatement_scope (by simp) hmessage
    · exact owesStatement_scope (by simp) henum
    · exact owesStatement_scope (by simp) honeof
    · obtain ⟨hkind, hstarts⟩ := following_of_owes_extend hextend
      exact .inr ⟨.extend, by rw [hkind, statement?, hstarts]; rfl, hextend⟩
    · rw [Bool.not_eq_true'] at hplain
      have hstarts := ready_of_owes .field rfl (by simp) hfield
      exact .inr ⟨.field, statement?_message.mpr ⟨hstarts, hplain⟩, hfield⟩
  · rintro (hsemicolon | ⟨goal, hgoal, h⟩)
    · simp only [hsemicolon, true_and, true_or]
    · have hmem := statement?_mem hgoal
      simp only [BodyKind.statements, List.mem_cons, List.not_mem_nil, or_false] at hmem
      rcases hmem with rfl | rfl | rfl | rfl | rfl | rfl | rfl | rfl
      -- the field, in front of which the grammar looks ahead
      case inr.inr.inr.inr.inr.inr.inr =>
        exact .inr ⟨by rw [(statement?_message.mp hgoal).2]; rfl, h⟩
      all_goals
        rw [Goal.form] at h
        simp only [h, or_true, true_or]

theorem owes_statement_enum : s.Owes (.named (.statement (.scope .enum)) :: forms) ↔
    s.OwesStatement (.scope .enum) forms := by
  rw [owes_named, Nonterminal.rule]
  repeat rw [owes_either]
  rw [owes_just rfl, owes_both, owes_ahead]
  constructor
  · rintro (((hsemicolon | hoption) | hreserved) | ⟨hplain, hvalue⟩)
    · exact .inl hsemicolon
    · exact owesStatement_of_word .option rfl rfl (by simp) (fun _ => rfl) hoption
    · exact owesStatement_of_word (.ranges .reserved) rfl rfl (by simp) (fun _ => rfl) hreserved
    · have hword := ready_of_owes .enumValue rfl (by simp) hvalue
      exact .inr ⟨.enumValue, statement?_enum.mpr ⟨hword, hplain⟩, hvalue⟩
  · rintro (hsemicolon | ⟨goal, hgoal, h⟩)
    · exact .inl (.inl (.inl hsemicolon))
    · have hmem := statement?_mem hgoal
      simp only [BodyKind.statements, List.mem_cons, List.not_mem_nil, or_false] at hmem
      rcases hmem with rfl | rfl | rfl
      · exact .inl (.inl (.inr h))
      · exact .inl (.inr h)
      · exact .inr ⟨(statement?_enum.mp hgoal).2, h⟩

theorem owes_statement_service : s.Owes (.named (.statement (.scope .service)) :: forms) ↔
    s.OwesStatement (.scope .service) forms := by
  rw [owes_named, Nonterminal.rule, owes_either, owes_either, owes_just rfl]
  constructor
  · rintro ((hsemicolon | hoption) | hrpc)
    · exact .inl hsemicolon
    · exact owesStatement_of_word .option rfl rfl (by simp) (fun _ => rfl) hoption
    · exact owesStatement_of_word .rpc rfl rfl (by simp) (fun _ => rfl) hrpc
  · rintro (hsemicolon | ⟨goal, hgoal, h⟩)
    · exact .inl (.inl hsemicolon)
    · have hmem := statement?_mem hgoal
      simp only [BodyKind.statements, List.mem_cons, List.not_mem_nil, or_false] at hmem
      rcases hmem with rfl | rfl
      · exact .inl (.inr h)
      · exact .inr h

theorem owes_statement_oneof : s.Owes (.named (.statement (.scope .oneof)) :: forms) ↔
    s.OwesStatement (.scope .oneof) forms := by
  rw [owes_named, Nonterminal.rule, owes_either, owes_either, owes_just rfl, owes_both, owes_ahead]
  constructor
  · rintro ((hsemicolon | hoption) | ⟨hplain, hfield⟩)
    · exact .inl hsemicolon
    · exact owesStatement_of_word .option rfl rfl (by simp) (fun _ => rfl) hoption
    · have hstarts := ready_of_owes .field rfl (by simp) hfield
      exact .inr ⟨.field, statement?_oneof.mpr ⟨hstarts, hplain⟩, hfield⟩
  · rintro (hsemicolon | ⟨goal, hgoal, h⟩)
    · exact .inl (.inl hsemicolon)
    · have hmem := statement?_mem hgoal
      simp only [BodyKind.statements, List.mem_cons, List.not_mem_nil, or_false] at hmem
      rcases hmem with rfl | rfl
      · exact .inl (.inr h)
      · exact .inr ⟨(statement?_oneof.mp hgoal).2, h⟩

theorem owes_statement_extend : s.Owes (.named (.statement .extend) :: forms) ↔
    s.OwesStatement .extend forms := by
  rw [owes_named, Nonterminal.rule, owes_either, owes_just rfl]
  refine or_congr_right ?_
  constructor
  · intro hfield
    exact ⟨.field, statement?_extend.mpr (ready_of_owes .field rfl (by simp) hfield), hfield⟩
  · rintro ⟨goal, hgoal, h⟩
    obtain rfl := List.mem_singleton.mp (statement?_mem hgoal)
    exact h

theorem owes_statement_rpc : s.Owes (.named (.statement .rpc) :: forms) ↔
    s.OwesStatement .rpc forms := by
  rw [owes_named, Nonterminal.rule, owes_either, owes_just rfl]
  constructor
  · rintro (hsemicolon | hoption)
    · exact .inl hsemicolon
    · exact owesStatement_of_word .option rfl rfl (by simp) (fun _ => rfl) hoption
  · rintro (hsemicolon | ⟨goal, hgoal, h⟩)
    · exact .inl hsemicolon
    · obtain rfl := List.mem_singleton.mp (statement?_mem hgoal)
      exact .inr h

theorem owes_statement : s.Owes (.named (.statement body) :: forms) ↔
    s.OwesStatement body forms := by
  cases body with
  | scope kind =>
    cases kind with
    | message => exact owes_statement_message
    | enum => exact owes_statement_enum
    | service => exact owes_statement_service
    | oneof => exact owes_statement_oneof
  | extend => exact owes_statement_extend
  | rpc => exact owes_statement_rpc

end ProtoFront
