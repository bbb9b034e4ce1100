import ProtoFront.Proofs.Grammar.Declarations

/-!
# Bodies and rpcs are read as the grammar has them
-/

namespace ProtoFront

open ParseState

variable {entry : Pending} {s : ParseState} {forms : List Form} {body : BodyKind} {again : Goal}

/-! ## Bodies -/

theorem diagnostics_skipGroup : s.skipGroup.diagnostics = s.diagnostics :=
  diagnostics_discardMany _ s

/-- What begins no statement of the body has been reported, here or before. -/
theorem diagnostics_bodyJunk : (s.bodyJunk body again entry).diagnostics ≠ #[] := by
  have skipped (t : ParseState) (ht : t.diagnostics ≠ #[]) :
      (if t.kind.isOpener then t.skipGroup else t.discard).diagnostics ≠ #[] := by
    split
    · rwa [diagnostics_skipGroup]
    · rwa [ParseState.discard, diagnostics_addLeaf]
  rw [bodyJunk]
  change (recoverStatement _ _).diagnostics ≠ #[]
  rw [diagnostics_recoverStatement]
  refine skipped _ ?_
  split
  case isTrue hreported => exact diagnostics_ne_of_reportedHere hreported
  case isFalse => exact s.diagnostics_report_ne _

theorem statement?_semicolon (following : TokenKind) :
    statement? body .semicolon following = none := by
  rcases body with (_ | _ | _ | _) | _ | _ <;> rfl

theorem statement?_closer (pair : Bracket) (following : TokenKind) :
    statement? body (.closer pair) following = none := by
  rcases body with (_ | _ | _ | _) | _ | _ <;> rfl

theorem statement?_eof (following : TokenKind) : statement? body .eof following = none := by
  rcases body with (_ | _ | _ | _) | _ | _ <;> rfl

/-- No statement begins with a token that neither ends nor begins one. -/
theorem not_owesStatement {kind : TokenKind} (hkind : s.kind = kind) (bare : kind ≠ .semicolon)
    (none : ∀ following, statement? body kind following = none) : ¬s.OwesStatement body forms := by
  rintro (⟨hsemicolon, -⟩ | ⟨goal, hgoal, -⟩)
  · exact bare (hkind.symm.trans hsemicolon)
  · rw [hkind, none] at hgoal
    simp at hgoal

theorem owes_bodyStatement : (s.bodyStatement body again entry).Owes [] ↔
    s.Owes [.named (.statement body), again.form] := by
  rw [owes_statement, OwesStatement, bodyStatement]
  split
  case isTrue hsemicolon =>
    rw [owes_resume, and_iff_right hsemicolon]
    refine (or_iff_left (not_owes_chosen ?_)).symm
    rw [hsemicolon, statement?_semicolon]
  case isFalse hsemicolon =>
    rw [or_iff_right fun h => hsemicolon h.1]
    split
    case h_1 goal hgoal => rw [owes_wait, owes_chosen hgoal]
    case h_2 hgoal => exact iff_of_false (not_owes diagnostics_bodyJunk) (not_owes_chosen hgoal)

theorem owes_body : (s.body body entry).Owes [] ↔ s.Owes [.bodyRest body] := by
  have statement : s.Owes [.named (.statement body), .many (.named (.statement body)),
      .just (.closer .brace)] ↔ s.Owes [.named (.statement body), .bodyRest body] := by
    rw [Form.bodyRest, owes_both_behind]
  rw [Form.bodyRest, owes_both, owes_many, owes_just rfl, statement, ParseState.body]
  split
  case h_1 hkind =>
    -- the end of the input is reported, and it begins neither a statement nor a brace
    refine iff_of_false ?_ ?_
    · rw [owes_markEnclosing]
      split
      · exact not_owes (s.diagnostics_report_ne _)
      · exact not_owes_report
    · rw [owes_statement, hkind]
      exact not_or.mpr ⟨fun h => absurd h.1 (by simp),
        not_owesStatement hkind (by simp) statement?_eof⟩
  case h_2 hkind =>
    have closed : s.take.Owes [] ↔
        (if entry.failed then (s.addLeaf body.closeTag? false).markEnclosing
          else s.addLeaf body.closeTag? false).Owes [] := by
      split
      · rw [owes_markEnclosing, owes_addLeaf, take, owes_addLeaf]
      · rw [owes_addLeaf, take, owes_addLeaf]
    rw [and_iff_right hkind, owes_statement]
    exact closed.symm.trans
      (or_iff_left (not_owesStatement hkind (by simp) (statement?_closer .brace))).symm
  case h_3 heof hcloser =>
    rw [or_iff_right fun h => hcloser h.1]
    exact owes_bodyStatement

theorem owes_fragmentBody {kind : ScopeKind} (awaited : Awaited .document s.pending) :
    (s.fragmentBody kind entry).Owes [] ↔ s.Owes [(Goal.fragmentBody kind).form] := by
  rw [Goal.form, owes_many, fragmentBody]
  split
  case isTrue hkind =>
    rw [owes_statement]
    exact (or_iff_left (not_owesStatement hkind (by simp) statement?_eof)).symm
  case isFalse hkind =>
    rw [or_iff_right (not_owes_of_document awaited hkind)]
    exact owes_bodyStatement

/-! ## Rpcs -/

/-- The word `stream` in front of a type may as well be left out of the type. -/
theorem owes_name_of_stream {rest : Form} (hword : s.kind = .identifier)
    (hstarts : startsType s.following = true)
    (h : s.Owes [.named .name, .just (.closer .paren), rest]) :
    s.take.Owes [.named .name, .just (.closer .paren), rest] := by
  rw [owes_named, Nonterminal.rule, owes_both, owes_optional, owes_both, owes_identifier,
    Form.nameTail, owes_many, owes_just rfl, owes_just rfl, hword] at h
  -- `stream` is all of the name, or a dot follows it, or the name begins with a dot
  rcases h with ⟨-, ⟨hcloser, -⟩ | hdot⟩ | ⟨hdot, -⟩
  · rw [← s.kind_addLeaf none false, ← take, hcloser] at hstarts
    cases hstarts
  · rw [owes_both, owes_just rfl] at hdot
    rw [owes_named, Nonterminal.rule, owes_both, owes_optional, owes_just rfl]
    refine .inr ⟨hdot.1, ?_⟩
    rw [owes_both]
    exact hdot.2
  · simp at hdot

theorem owes_rpcType {after : Goal} {kind : ReferenceKind} {rest : Form}
    (spelled : Spelled s.cursor.rest) (hafter : after.form = .just (.closer .paren) ++ rest) :
    (s.rpcType after kind entry).Owes [] ↔ s.Owes [.optional (.word .wordStream) ++
      (.named .name ++ .just (.closer .paren)), rest] := by
  have typed (t : ParseState) : (t.require (startsType t.kind) [.typeName]
      (failStatement entry .rpc) fun s =>
        (s.resume entry after).pushGoal (.qualifiedName (some (.reference kind)))).Owes [] ↔
      t.Owes [.named .name, .just (.closer .paren), rest] := by
    rw [← owes_both_behind, ← hafter]
    exact owes_requireType (fails_failStatement entry .rpc) (owes_wait ..)
  rw [owes_both, owes_both_behind, owes_optional, owes_word, rpcType]
  refine (typed _).trans ?_
  split
  case isTrue hstream =>
    obtain ⟨hword, hstarts⟩ := Bool.and_eq_true_iff.mp hstream
    rw [and_iff_right hword]
    exact (or_iff_right_of_imp (owes_name_of_stream (kind_of_atWord spelled hword) hstarts)).symm
  case isFalse hstream =>
    refine (or_iff_left fun h => hstream (Bool.and_eq_true_iff.mpr ⟨h.1, ?_⟩)).symm
    rw [← s.kind_addLeaf none false]
    exact startsType_of_word h.2.2

theorem owes_rpc (spelled : Spelled s.cursor.rest) (hkind : s.kind = .keyword .kwRpc) :
    (s.rpc entry).Owes [] ↔ s.Owes [.named .rpc] := by
  have fails := fails_failStatement entry .rpc
  rw [owes_named, Nonterminal.rule, owes_both, owes_just_of_kind hkind rfl, owes_both]
  refine owes_requireAmong rfl fails fun _ => ?_
  rw [← owes_takeAs .name, owes_both, Form.rpcType, owes_both]
  exact owes_expect rfl fails fun _ =>
    owes_rpcType (((spelled.addLeaf _ _).addLeaf _ _).addLeaf _ _) rfl

theorem owes_rpcAfterInput (spelled : Spelled s.cursor.rest) (unmarked : entry.failed = false) :
    (s.rpcAfterInput entry).Owes [] ↔ s.Owes [Goal.rpcAfterInput.form] := by
  have fails := fails_failStatement entry .rpc
  rw [rpcAfterInput, unmarked, if_neg Bool.false_ne_true, Goal.form, owes_both]
  refine owes_expect rfl fails fun _ => ?_
  rw [owes_both]
  refine owes_requireWord fails fun _ => ?_
  rw [owes_both, Form.rpcType, owes_both]
  exact owes_expect rfl fails fun _ =>
    owes_rpcType (((spelled.addLeaf _ _).addLeaf _ _).addLeaf _ _) rfl

theorem owes_rpcAfterOutput (unmarked : entry.failed = false) :
    (s.rpcAfterOutput entry).Owes [] ↔ s.Owes [Goal.rpcAfterOutput.form] := by
  have fails := fails_failStatement entry .rpc
  rw [rpcAfterOutput, unmarked, if_neg Bool.false_ne_true, Goal.form, owes_both]
  refine owes_expect rfl fails fun _ => ?_
  rw [Form.rpcEnd, owes_either, owes_just rfl, owes_both, owes_just rfl]
  split
  case h_1 hkind =>
    rw [owes_close, and_iff_right hkind, hkind]
    exact (or_iff_left fun h => absurd h.1 (by simp)).symm
  case h_2 hkind =>
    rw [owes_enterBody, and_iff_right hkind, hkind]
    exact (or_iff_right fun h => absurd h.1 (by simp)).symm
  case h_3 hsemicolon hbrace =>
    exact iff_of_false (not_owes_fail fails)
      (not_or.mpr ⟨fun h => hsemicolon h.1, fun h => hbrace h.1⟩)

end ProtoFront
