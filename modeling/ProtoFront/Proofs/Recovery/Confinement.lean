import ProtoFront.Proofs.Parse.Termination
import ProtoFront.Proofs.Recovery.Values

/-!
# Steps inside a message

Each step inside a message stays in it, until the body of the message reads the brace that closes
it. The only way out is the name of a text field in square brackets that is not closed.
-/

namespace ProtoFront

open ParseState

variable {tail : List Lexeme} {outer below : List Goal} {entry top : Pending} {s t : ParseState}
variable {part : Part} {close : Lexeme} {after : List Lexeme}

/-- The goals around the body of a message at the top of a file. -/
def aroundMessage : List Goal := [.declarationEnd (.scope .message), .file]

/-- The message has been closed by the brace `close`, which is the last node. -/
def ClosedBy (close : Lexeme) (s : ParseState) : Prop :=
  s.goals = aroundMessage ∧
    ∃ nodes : Array Node, s.nodes = nodes.push ⟨some close.index, 1, false, some .scopeClose⟩

/-- Goals of statements that begin in front of a certain token begin in front of no brace. -/
theorem Goal.isBrace_of_ready {goal : Goal} {kind : TokenKind} (h : goal.ready kind = true)
    (plain : goal.isPlain = true) (eager : goal.eager = true) : kind.isBrace = false := by
  cases goal with
  | syntaxLevel => rcases (Bool.or_eq_true _ _).mp h with h | h <;> rw [beq_iff_eq.mp h] <;> rfl
  | field => exact isBrace_of_startsType h
  | enumValue => exact TokenKind.isBrace_of_isIdentifierLike h
  | qualifiedName tag? =>
    have hstarts := ((Bool.and_eq_true _ _).mp h).2
    split at hstarts
    · exact TokenKind.isBrace_of_isIdentifierLike hstarts
    · exact isBrace_of_startsType hstarts
  | importing | package | option | scope | extend | ranges | rpc | optionList
  | qualifiedNameRest => rw [beq_iff_eq.mp h]; rfl
  | textList | textMessage | textField => cases plain
  | _ => cases eager

/-- What lies between a goal and the goals around a message begins with the body of the message. -/
theorem bodies_pos_of_awaited {pending : List Pending} (awaited : Awaited part pending)
    (goals : pending.map Pending.goal = below ++ aroundMessage) (between : below ≠ []) :
    0 < bodies below := by
  induction below generalizing part pending with
  | nil => exact absurd rfl between
  | cons goal below ih =>
    obtain ⟨next, others, rfl, rfl, hothers⟩ := List.map_eq_cons_iff.mp goals
    rcases below with _ | ⟨second, below⟩
    · obtain ⟨last, file, rfl, hlast, -⟩ := List.map_eq_cons_iff.mp hothers
      have waits := awaited.2.1
      rw [hlast] at waits
      have hbody : next.goal.isBody = true := by
        generalize next.goal = goal at waits
        cases goal with
        | body kind => rfl
        | listAfterItem list failed => cases list <;> cases waits
        | _ => cases waits
      rw [bodies_cons_of_isBody hbody]
      exact Nat.succ_pos _
    · have hpos := ih awaited.2 hothers (List.cons_ne_nil _ _)
      rw [bodies, List.countP_cons]
      exact Nat.lt_of_lt_of_le hpos (Nat.le_add_right _ _)

/-! ## Statements -/

/-- A goal of a statement, other than a body, stays in the message. -/
theorem confined_statement (h : Held tail outer below (bodies below) s) (pursued : Pursued top s)
    (plain : top.goal.isPlain = true) (statement : top.goal.isBody = false) :
    Confined tail outer (pursue top s) := by
  have start (eager : top.goal.eager = true) : s.kind.isBrace = false :=
    Goal.isBrace_of_ready pursued.ready plain eager
  rw [pursue]
  cases goal : top.goal with
  | file | fragmentBody | textList | value | textMessage | textMessageBody | textField
  | textFieldEnd => rw [goal] at plain; cases plain
  | body => rw [goal] at statement; cases statement
  | syntaxLevel => exact h.syntaxLevel (start (goal ▸ rfl)) top
  | importing => exact h.importing (start (goal ▸ rfl)) top
  | package => exact h.package (start (goal ▸ rfl)) top
  | packageEnd => exact h.statementEnd _ top
  | option => exact h.optionStatement (start (goal ▸ rfl)) top
  | optionAfterName => exact h.optionAfterName top
  | optionEnd => exact h.statementEnd _ top
  | optionName => exact h.optionName top
  | optionNamePart => exact h.optionNamePart
  | optionNameExtensionEnd => exact h.optionNameExtensionEnd top
  | optionNameEnd => exact (h.close top _).confined
  | optionList => exact h.optionList (start (goal ▸ rfl)) top
  | listOption => exact h.listOption top
  | listOptionAfterName => exact h.listOptionAfterName top
  | listOptionEnd => exact (h.close top _).confined
  | listAfterItem list failed =>
    cases list with
    | options => exact h.listAfterItem failed top
    | values => rw [goal] at plain; cases plain
  | scope kind => exact h.scope (start (goal ▸ rfl)) kind top
  | extend => exact h.extend (start (goal ▸ rfl)) top
  | extendAfterName => exact h.extendAfterName top
  | declarationEnd kind => exact (h.close top _).confined
  | field => exact h.field (start (goal ▸ rfl)) top
  | fieldAfterType => exact h.fieldAfterType top
  | mapFieldAfterValue => exact h.mapFieldAfterValue top
  | statementEnd kind => exact h.statementEnd kind top
  | enumValue => exact h.enumValue top
  | ranges kind => exact ((h.take (start (goal ▸ rfl))).resume top rfl rfl).confined
  | rangesItem kind => exact h.rangesItem kind top
  | rpc => exact h.rpc (start (goal ▸ rfl)) top
  | rpcAfterInput => exact h.rpcAfterInput top
  | rpcAfterOutput => exact h.rpcAfterOutput top
  | qualifiedName tag? => exact h.qualifiedName tag? top
  | qualifiedNameRest => exact h.qualifiedNameRest (start (goal ▸ rfl))
  | qualifiedNameEnd tag? => exact (h.close top tag?).confined

/-! ## Values -/

/-- A goal of a value stays in the message, unless it loses a bracket. -/
theorem confined_text (h : Inside tail outer below top.goal.owed s) (pursued : Pursued top s)
    (text : top.goal.part.isText = true) (htail : tail = close :: after) :
    Confined tail outer (pursue top s) ∨ Lost close (pursue top s) := by
  have ready := pursued.ready
  have there : s.kind ≠ .eof := by
    intro heof
    obtain ⟨_, _, closes⟩ := h.nested
    exact closes.ne_nil (pursued.atEnd heof)
  rw [pursue]
  cases goal : top.goal with
  | textList =>
    rw [goal] at h ready
    exact .inl (h.textList (beq_iff_eq.mp ready) top)
  | value =>
    rw [goal] at h
    exact .inl h.value
  | textMessage pair =>
    rw [goal] at h ready
    exact .inl (h.textMessage (beq_iff_eq.mp ready) top)
  | textMessageBody pair =>
    rw [goal] at h
    exact .inl (h.textMessageBody there top)
  | textField =>
    rw [goal] at h ready
    exact h.textField ready top htail
  | textFieldEnd =>
    rw [goal] at h
    exact .inl (h.textFieldEnd top)
  | listAfterItem list failed =>
    rw [goal] at h text
    cases list with
    | options => cases text
    | values => exact .inl (h.listAfterItem failed top)
  | _ =>
    rw [goal] at text
    cases text

/-! ## Bodies -/

/-- A body reads no brace but its own. The one that `tail` begins with belongs to the body of the
message. -/
theorem confined_body {kind : BodyKind} (h : Held tail aroundMessage below (bodies below + 1) s)
    (awaited : Awaited (.block kind) s.pending) (there : s.kind ≠ .eof)
    (htail : tail = close :: after) (entry : Pending) :
    Confined tail aroundMessage (s.body kind entry) ∨ ClosedBy close (s.body kind entry) := by
  rw [body]
  split
  case h_1 heof => exact absurd heof there
  case h_2 hclose =>
    show Confined tail aroundMessage ((s.addLeaf kind.closeTag? false).letGo entry) ∨
      ClosedBy close ((s.addLeaf kind.closeTag? false).letGo entry)
    have goals : ((s.addLeaf kind.closeTag? false).letGo entry).goals = below ++ aroundMessage := by
      rw [goals_letGo, goals_addLeaf, h.goals]
    obtain ⟨next, rest, hrest⟩ : ∃ next rest, s.cursor.rest = next :: rest :=
      List.exists_cons_of_ne_nil fun hnil => there (by rw [ParseState.kind, Cursor.kind, hnil])
    have begun := h.begun
    rw [kind_of_rest hrest] at hclose
    rw [hrest] at begun
    rcases begun.of_closer hclose with hbelow | ⟨hnone, hmessage⟩
    · refine .inl (Held.confined ⟨goals, h.plain, ?_, ?_⟩)
      · rw [cursor_letGo, rest_addLeaf, hrest]
        exact hbelow
      · rw [cursor_letGo]
        exact h.spelled.addLeaf _ _
    · -- no goal lies between this body and the end of the message
      have hbelow : below = [] := by
        by_contra hbetween
        exact absurd hnone (Nat.ne_of_gt (bodies_pos_of_awaited awaited h.goals hbetween))
      subst hbelow
      obtain ⟨rfl, -⟩ := List.cons.inj (htail.symm.trans hmessage)
      refine .inr ⟨goals, s.nodes, ?_⟩
      obtain ⟨last, others, hpending, hlast, -⟩ := List.map_eq_cons_iff.mp h.goals
      rw [hpending] at awaited
      have waits := awaited.1
      rw [hlast] at waits
      cases waits
      rw [nodes_letGo, s.nodes_addLeaf _ _ hrest]
      rfl
  case h_3 hthere hclose => exact .inl (h.bodyStatement rfl rfl hclose kind entry)

/-! ## Steps -/

/-- A step in the message stays in the message, loses a bracket, or closes the message. -/
theorem Sound.confined_step {buffer : TokenBuffer} (h : Sound s) (reads : s.Reads buffer)
    (confined : Confined tail aroundMessage s) (htail : tail = close :: after) :
    Confined tail aroundMessage s.step ∨ Lost close s.step ∨ ClosedBy close s.step := by
  obtain ⟨goals, opened, hgoals, fits, closes⟩ := confined
  cases h with
  | finished pending =>
    rw [ParseState.goals, pending] at hgoals
    cases goals <;> cases hgoals
  | @going t top settled pursued =>
    have there : t.kind ≠ .eof := fun heof => closes.ne_nil (pursued.atEnd heof)
    have spelled : Spelled t.cursor.rest := fun lexeme hlexeme =>
      TokenBuffer.spelled_significant buffer lexeme (reads.rest.subset hlexeme)
    show Confined tail aroundMessage (pursue top t) ∨ Lost close (pursue top t) ∨
      ClosedBy close (pursue top t)
    cases fits with
    | @statements goals _ plain braces =>
      rcases goals with _ | ⟨goal, below⟩
      · cases braces
      · obtain ⟨rfl, hbelow⟩ := List.cons.inj hgoals
        rw [List.forall_mem_cons] at plain
        rcases hbody : top.goal.isBody with _ | _
        · have braces : opened.count .brace + 1 = bodies below := by
            rwa [bodies_cons_of_not_isBody hbody] at braces
          exact .inl (confined_statement ⟨hbelow, plain.2, ⟨opened, closes, braces⟩, spelled⟩
            pursued plain.1 hbody)
        · have braces : opened.count .brace + 1 = bodies below + 1 := by
            rwa [bodies_cons_of_isBody hbody] at braces
          have held : Held tail aroundMessage below (bodies below + 1) t :=
            ⟨hbelow, plain.2, ⟨opened, closes, braces⟩, spelled⟩
          have awaited := settled.awaited
          rw [pursue]
          cases goal : top.goal with
          | body kind =>
            rw [goal] at awaited
            exact (confined_body held awaited there htail top).imp_right .inr
          | _ =>
            rw [goal] at hbody
            cases hbody
    | @text goal below opened text fits =>
      obtain ⟨rfl, hbelow⟩ := List.cons.inj hgoals
      have ordered : (t.cursor.rest.map Lexeme.index).Pairwise (· < ·) := by
        refine List.Pairwise.sublist (reads.rest.sublist.map _) ?_
        rw [buffer.map_index_significant]
        exact buffer.pairwise_significantIndices
      exact (confined_text ⟨hbelow, ⟨opened, fits, closes⟩, ordered⟩ pursued text htail).imp_right
        .inl

end ProtoFront
