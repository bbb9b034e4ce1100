import ProtoFront.Proofs.Recovery.Statements

/-!
# Recovery in values

In a value every bracket is accounted for: a text message or a list of values that is broken skips
to a separator or to its own closing bracket, which it always finds, since a skip ends at no bracket
that was opened in front of it but the innermost one. The one exception is the name of a text field
in square brackets. If its closing bracket is missing, the field ends there and leaves its own
opening bracket behind; the report of it is what tells (`Lost`).
-/

namespace ProtoFront

open ParseState

variable {tail : List Lexeme} {outer below : List Goal} {inner : List Bracket} {pair : Bracket}
variable {entry : Pending} {s t : ParseState}

/-- A goal in a value over `below` is held, and the construct has opened the brackets `inner`. -/
structure Inside (tail : List Lexeme) (outer below : List Goal) (inner : List Bracket)
    (s : ParseState) : Prop where
  goals : s.goals = below ++ outer
  nested : ∃ opened, Fits below opened ∧ Closes tail (inner ++ opened) s.cursor.rest
  ordered : (s.cursor.rest.map Lexeme.index).Pairwise (· < ·)

/-- In front of the lexeme `close`, the name of a text field was reported to lack its closing
bracket. -/
def Lost (close : Lexeme) (s : ParseState) : Prop :=
  ∃ diagnostic ∈ s.diagnostics, diagnostic.expected = [.token (.closer .square)] ∧
    diagnostic.token < close.index

/-- Behind tokens that have been read the parser stands somewhere else. -/
theorem ParseState.position_ne (ordered : (s.cursor.rest.map Lexeme.index).Pairwise (· < ·))
    (suffix : t.cursor.rest <:+ s.cursor.rest) (read : t.left < s.left)
    (there : t.cursor.rest ≠ []) : t.position ≠ s.position := by
  obtain ⟨next, rest, hrest⟩ := List.exists_cons_of_ne_nil there
  obtain ⟨front, hfront⟩ := suffix
  rcases front with _ | ⟨first, front⟩
  · rw [left, left, ← hfront] at read
    exact absurd read (Nat.lt_irrefl _)
  · have hbefore : first.index < next.index := by
      rw [← hfront, hrest, List.cons_append, List.map_cons, List.pairwise_cons] at ordered
      exact ordered.1 _ (List.mem_map_of_mem (by simp))
    rw [position, Cursor.position, hrest, position, Cursor.position, ← hfront]
    exact Nat.ne_of_gt hbefore

/-- A token of another kind is a later one. -/
theorem ParseState.left_lt_of_kind_ne (suffix : t.cursor.rest <:+ s.cursor.rest)
    (hkind : t.kind ≠ s.kind) : t.left < s.left := by
  refine Nat.lt_of_le_of_ne suffix.length_le fun hlength => hkind ?_
  rw [kind, Cursor.kind, suffix.eq_of_length hlength, kind, Cursor.kind]

theorem ParseState.rest_skipTo_suffix (s : ParseState) (stop : TokenKind → Bool) :
    (s.skipTo stop).cursor.rest <:+ s.cursor.rest := by
  rw [skipTo, rest_discardMany]
  exact List.drop_suffix _ _

/-- A recovery that gets somewhere does not give up. -/
theorem ParseState.recoverTo_advanced {stop : TokenKind → Bool}
    (h : (s.skipTo stop).position ≠ s.position) : (s.recoverTo stop).2 = .advanced := by
  rw [recoverTo, resync, SyncGuard.note, if_neg fun hstuck => h hstuck.1.symm]

/-! ## Tokens that are no brackets -/

theorem TokenKind.plain_of_isIdentifierLike {kind : TokenKind} (h : kind.isIdentifierLike = true) :
    kind.isOpener = false ∧ kind.isCloser = false := by
  cases kind with
  | opener pair => cases h
  | closer pair => cases h
  | _ => exact ⟨rfl, rfl⟩

theorem ParseState.plain_of_isTextSeparator {kind : TokenKind} (h : isTextSeparator kind = true) :
    kind.isOpener = false ∧ kind.isCloser = false ∧ kind ≠ .eof := by
  rcases (Bool.or_eq_true _ _).mp h with hcomma | hsemicolon
  · rw [beq_iff_eq.mp hcomma]
    exact ⟨rfl, rfl, by simp⟩
  · rw [beq_iff_eq.mp hsemicolon]
    exact ⟨rfl, rfl, by simp⟩

theorem ParseState.plain_of_isExtensionNamePart {kind : TokenKind}
    (h : isExtensionNamePart kind = true) : kind.isOpener = false ∧ kind.isCloser = false := by
  rw [isExtensionNamePart, Bool.or_eq_true, Bool.or_eq_true, beq_iff_eq, beq_iff_eq] at h
  rcases h with (hword | rfl) | rfl
  · exact TokenKind.plain_of_isIdentifierLike hword
  · exact ⟨rfl, rfl⟩
  · exact ⟨rfl, rfl⟩

namespace Inside

theorem confined (h : Inside tail outer below [] s) : Confined tail outer s := by
  obtain ⟨opened, fits, closes⟩ := h.nested
  exact ⟨below, opened, h.goals, fits, closes⟩

theorem congr (h : Inside tail outer below inner s) (goals : t.goals = s.goals)
    (rest : t.cursor.rest = s.cursor.rest) : Inside tail outer below inner t :=
  ⟨goals.trans h.goals, rest ▸ h.nested, rest ▸ h.ordered⟩

theorem report (h : Inside tail outer below inner s) (expected : List Expectation) :
    Inside tail outer below inner (s.report expected) :=
  h.congr rfl rfl

theorem markEnclosing (h : Inside tail outer below inner s) :
    Inside tail outer below inner s.markEnclosing :=
  h.congr goals_markEnclosing (by rw [cursor_markEnclosing])

theorem close (h : Inside tail outer below inner s) (entry : Pending) (tag? : Option NodeKind) :
    Inside tail outer below inner (s.close entry tag?) :=
  h.congr (goals_close tag?) (by rw [cursor_close])

/-! ## Reading -/

/-- A token that is read changes the brackets that are open as it should. -/
theorem addLeaf (h : Inside tail outer below inner s) (tag? : Option NodeKind) (failed : Bool)
    {inner' : List Bracket} (reads : ∀ opened next rest, s.cursor.rest = next :: rest →
      Closes tail (inner ++ opened) (next :: rest) → Closes tail (inner' ++ opened) rest) :
    Inside tail outer below inner' (s.addLeaf tag? failed) := by
  obtain ⟨opened, fits, closes⟩ := h.nested
  obtain ⟨next, rest, hrest⟩ := List.exists_cons_of_ne_nil closes.ne_nil
  have ordered := h.ordered
  rw [hrest] at closes ordered
  refine ⟨(goals_addLeaf tag? failed).trans h.goals, ⟨opened, fits, ?_⟩, ?_⟩
  · rw [rest_addLeaf, hrest]
    exact reads opened next rest hrest closes
  · rw [rest_addLeaf, hrest]
    exact ordered.tail

theorem addPlain (h : Inside tail outer below inner s) (opener : s.kind.isOpener = false)
    (closer : s.kind.isCloser = false) (tag? : Option NodeKind) (failed : Bool) :
    Inside tail outer below inner (s.addLeaf tag? failed) := by
  refine h.addLeaf tag? failed fun opened next rest hrest closes => ?_
  rw [kind_of_rest hrest] at opener closer
  exact closes.of_plain opener closer

theorem take (h : Inside tail outer below inner s) (opener : s.kind.isOpener = false)
    (closer : s.kind.isCloser = false) : Inside tail outer below inner s.take :=
  h.addPlain opener closer none false

/-- A token of a certain kind that is no bracket is read. -/
theorem takeKind (h : Inside tail outer below inner s) {kind : TokenKind} (hkind : s.kind = kind)
    (opener : kind.isOpener = false) (closer : kind.isCloser = false) :
    Inside tail outer below inner s.take :=
  h.take (by rwa [hkind]) (by rwa [hkind])

theorem takeOpener (h : Inside tail outer below inner s) (hkind : s.kind = .opener pair) :
    Inside tail outer below (pair :: inner) s.take := by
  refine h.addLeaf none false fun opened next rest hrest closes => ?_
  rw [kind_of_rest hrest] at hkind
  exact closes.of_opener hkind

theorem takeCloser (h : Inside tail outer below (pair :: inner) s) (hkind : s.kind = .closer pair) :
    Inside tail outer below inner s.take := by
  refine h.addLeaf none false fun opened next rest hrest closes => ?_
  rw [kind_of_rest hrest] at hkind
  rcases closes.of_closer hkind with ⟨outer, hopened, houter⟩ | ⟨hnone, -⟩
  · obtain ⟨-, rfl⟩ := List.cons.inj hopened
    exact houter
  · cases hnone

theorem takeRun (h : Inside tail outer below inner s) {member : TokenKind → Bool}
    (opener : ∀ kind, member kind = true → kind.isOpener = false)
    (closer : ∀ kind, member kind = true → kind.isCloser = false) :
    Inside tail outer below inner (s.takeRun member) :=
  takeRun_of_take h fun _ ht hkind => ht.take (opener _ hkind) (closer _ hkind)

/-! ## Skipping -/

theorem skipTo (h : Inside tail outer below inner s) (stop : TokenKind → Bool) :
    Inside tail outer below inner (s.skipTo stop) := by
  obtain ⟨opened, fits, closes⟩ := h.nested
  refine ⟨(goals_discardMany _ s).trans h.goals, ⟨opened, fits, ?_⟩, ?_⟩
  · rw [ParseState.skipTo, rest_discardMany]
    exact closes.drop_extentTo stop
  · rw [ParseState.skipTo, rest_discardMany, List.map_drop]
    exact h.ordered.sublist (List.drop_sublist _ _)

/-- A skip finds what it looks for, or the bracket that closes the innermost one. -/
theorem kind_skipTo (h : Inside tail outer below (pair :: inner) s) (stop : TokenKind → Bool) :
    stop (s.skipTo stop).kind = true ∨ (s.skipTo stop).kind = .closer pair := by
  obtain ⟨opened, -, closes⟩ := (h.skipTo stop).nested
  obtain ⟨next, rest, hrest⟩ := List.exists_cons_of_ne_nil closes.ne_nil
  rw [hrest] at closes
  rw [kind_of_rest hrest]
  rw [ParseState.skipTo, rest_discardMany] at hrest
  refine (stops_of_drop_extentTo hrest).imp_right fun hcloser => ?_
  obtain ⟨found, hfound⟩ := TokenKind.eq_closer_of_isCloser hcloser
  rcases closes.of_closer hfound with ⟨outer, hopened, -⟩ | ⟨hnone, -⟩
  · rw [hfound, (List.cons.inj hopened).1]
  · cases hnone

/-! ## The goals -/

/-- The construct waits with its brackets open. -/
theorem resume (goal : Goal) (h : Inside tail outer below goal.owed s)
    (text : goal.part.isText = true) (entry : Pending) :
    Inside tail outer (goal :: below) [] (s.resume entry goal) := by
  obtain ⟨opened, fits, closes⟩ := h.nested
  refine ⟨?_, ⟨goal.owed ++ opened, .text text fits, closes⟩, h.ordered⟩
  rw [List.cons_append, ← h.goals]
  rfl

theorem pushGoal {goal : Goal} (h : Inside tail outer below goal.owed s)
    (text : goal.part.isText = true) : Inside tail outer (goal :: below) [] (s.pushGoal goal) :=
  (h.resume goal text ⟨goal, s.cursor.origin, s.nodes.size, false⟩).congr rfl rfl

/-! ## Values -/

theorem missingValue (h : Inside tail outer below [] s) : Confined tail outer s.missingValue :=
  (h.report _).markEnclosing.confined

theorem value (h : Inside tail outer below [] s) : Confined tail outer s.value := by
  rw [ParseState.value]
  have plain {kind : TokenKind} (hkind : (kind == .stringLiteral) = true) :
      kind.isOpener = false ∧ kind.isCloser = false := by
    rw [beq_iff_eq.mp hkind]
    exact ⟨rfl, rfl⟩
  have signed (opener : s.kind.isOpener = false) (closer : s.kind.isCloser = false) :
      Confined tail outer
        (if (s.following.isNumber || s.following == .identifier) = true then s.take.take
          else s.missingValue) := by
    split
    case isTrue hnumber =>
      have hplain : s.take.kind.isOpener = false ∧ s.take.kind.isCloser = false := by
        rw [ParseState.take, kind_addLeaf]
        cases hkind : s.following with
        | opener | closer => rw [hkind] at hnumber; cases hnumber
        | _ => exact ⟨rfl, rfl⟩
      exact ((h.take opener closer).take hplain.1 hplain.2).confined
    case isFalse => exact h.missingValue
  split
  case h_1 =>
    exact (h.takeRun (fun _ hkind => (plain hkind).1) fun _ hkind => (plain hkind).2).confined
  case h_2 hkind => exact (h.takeKind hkind rfl rfl).confined
  case h_3 hkind => exact (h.takeKind hkind rfl rfl).confined
  case h_4 hkind => exact (h.takeKind hkind rfl rfl).confined
  case h_5 hkind => exact (h.takeKind hkind rfl rfl).confined
  case h_6 hkind => exact (h.takeKind hkind rfl rfl).confined
  case h_7 hkind => exact signed (by rw [hkind]; rfl) (by rw [hkind]; rfl)
  case h_8 hkind => exact signed (by rw [hkind]; rfl) (by rw [hkind]; rfl)
  case h_9 => exact (h.pushGoal rfl).confined
  case h_10 => exact (h.pushGoal rfl).confined
  case h_11 => exact (h.pushGoal rfl).confined
  case h_12 => exact h.missingValue

/-! ## Text messages -/

theorem textMessage (h : Inside tail outer below [] s) (hkind : s.kind = .opener pair)
    (entry : Pending) : Confined tail outer (s.textMessage pair entry) := by
  have opened := h.takeOpener hkind
  exact (opened.resume (.textMessageBody pair) rfl entry).confined

/-- Something in a text message that is no field is skipped, and the message goes on. -/
theorem textMessageJunk (h : Inside tail outer below [pair] s) (hkind : s.kind ≠ .closer pair)
    (entry : Pending) : Confined tail outer (s.textMessageJunk pair entry) := by
  -- where something has been skipped the position is another one, so the message is not closed
  have junk {t : ParseState} (ht : Inside tail outer below [pair] t)
      (suffix : t.cursor.rest <:+ s.cursor.rest) (read : t.left < s.left) : Confined tail outer
        (if t.position = s.position then t.closeTextMessage entry.broken
          else t.resume entry.broken (.textMessageBody pair)) := by
    obtain ⟨_, _, closes⟩ := ht.nested
    rw [if_neg (position_ne h.ordered suffix read closes.ne_nil)]
    exact (ht.resume (.textMessageBody pair) rfl entry.broken).confined
  have separated {t : ParseState} (ht : Inside tail outer below [pair] t)
      (suffix : t.cursor.rest <:+ s.cursor.rest)
      (found : endsTextJunk pair t.kind = true ∨ t.kind = .closer pair) : Confined tail outer
        (if (if isTextSeparator t.kind then t.discard else t).position = s.position then
            (if isTextSeparator t.kind then t.discard else t).closeTextMessage entry.broken
          else (if isTextSeparator t.kind then t.discard else t).resume entry.broken
            (.textMessageBody pair)) := by
    split
    case isTrue hseparator =>
      obtain ⟨opener, closer, there⟩ := plain_of_isTextSeparator hseparator
      have hleft := t.left_addLeaf_lt none true there
      have hle := suffix.length_le
      refine junk (ht.addPlain opener closer none true) ?_ ?_
      · rw [ParseState.discard, rest_addLeaf]
        exact (List.tail_suffix _).trans suffix
      · rw [ParseState.discard]
        exact Nat.lt_of_lt_of_le (Nat.lt_of_succ_le (Nat.le_of_eq hleft)) hle
    case isFalse hseparator =>
      have hcloser : t.kind = .closer pair := by
        rcases found with hstop | hcloser
        · rw [endsTextJunk, Bool.or_assoc, Bool.or_eq_true, beq_iff_eq] at hstop
          exact hstop.resolve_right hseparator
        · exact hcloser
      exact junk ht suffix (left_lt_of_kind_ne suffix (by rw [hcloser]; exact hkind.symm))
  rw [ParseState.textMessageJunk]
  by_cases hreported : s.reportedHere = true
  · rw [if_pos hreported]
    exact separated (h.skipTo _) (rest_skipTo_suffix _ _) (h.kind_skipTo _)
  · rw [if_neg hreported]
    have hr := h.report [.textFieldName]
    exact separated ((hr.skipTo (endsTextJunk pair)).congr rfl rfl)
      (rest_skipTo_suffix (s.report _) (endsTextJunk pair)) (hr.kind_skipTo (endsTextJunk pair))

theorem textMessageBody (h : Inside tail outer below [pair] s) (there : s.kind ≠ .eof)
    (entry : Pending) : Confined tail outer (s.textMessageBody pair entry) := by
  rw [ParseState.textMessageBody]
  split
  case isTrue hkind => exact ((h.takeCloser hkind).close entry _).confined
  case isFalse hkind =>
    split
    · exact ((h.resume (.textMessageBody pair) rfl entry).pushGoal rfl).confined
    · exact h.textMessageJunk hkind entry

/-! ## Text fields -/

theorem textFieldValue (h : Inside tail outer below [] s) (entry : Pending) :
    Confined tail outer (s.textFieldValue entry) := by
  have named : Inside tail outer below [] (if (s.kind == .colon) = true then s.take else s) := by
    split
    case isTrue hcolon => exact h.takeKind (beq_iff_eq.mp hcolon) rfl rfl
    case isFalse => exact h
  rw [ParseState.textFieldValue]
  dsimp only
  generalize (if (s.kind == .colon) = true then s.take else s) = u at named ⊢
  split
  case h_1 next hnext =>
    obtain ⟨owed, text⟩ : next.owed = [] ∧ next.part.isText = true := by
      unfold compositeGoal? at hnext
      split at hnext <;> cases hnext <;> exact ⟨rfl, rfl⟩
    have waits := named.resume .textFieldEnd rfl entry
    exact (Inside.pushGoal (owed ▸ waits) text).confined
  case h_2 =>
    split
    · exact ((named.resume .textFieldEnd rfl entry).pushGoal rfl).confined
    · have reported := named.report [.token .colon]
      split
      · exact ((reported.resume .textFieldEnd rfl _).pushGoal rfl).confined
      · exact (reported.close _ _).confined

/-- A name in square brackets that is not closed is reported. -/
theorem lost_unclosedName (h : Inside tail outer below [.square] s) {close : Lexeme}
    {after : List Lexeme} (htail : tail = close :: after) (entry : Pending) :
    Lost close ((s.report [.token (.closer .square)]).closeTextField entry) := by
  obtain ⟨opened, _, closes⟩ := h.nested
  obtain ⟨next, rest, hrest⟩ := List.exists_cons_of_ne_nil closes.ne_nil
  have ordered := h.ordered
  rw [hrest] at closes ordered
  refine ⟨⟨[.token (.closer .square)], s.kind, s.position⟩, ?_, rfl, ?_⟩
  · rw [closeTextField, diagnostics_close]
    exact Array.mem_push_self
  · rw [position, Cursor.position, hrest]
    exact closes.index_lt htail ordered

theorem textField (h : Inside tail outer below [] s) (starts : startsTextField s.kind = true)
    (entry : Pending) {close : Lexeme} {after : List Lexeme} (htail : tail = close :: after) :
    Confined tail outer (s.textField entry) ∨ Lost close (s.textField entry) := by
  rw [ParseState.textField]
  split
  case isTrue hkind =>
    have named : Inside tail outer below [.square] (s.take.takeRun isExtensionNamePart) :=
      (h.takeOpener hkind).takeRun (fun _ hmember => (plain_of_isExtensionNamePart hmember).1)
        fun _ hmember => (plain_of_isExtensionNamePart hmember).2
    rw [expect, require]
    split
    case isTrue hsquare =>
      exact .inl ((named.takeCloser (beq_iff_eq.mp hsquare)).textFieldValue entry)
    case isFalse => exact .inr (named.lost_unclosedName htail entry.broken)
  case isFalse hkind =>
    have hword : s.kind.isIdentifierLike = true :=
      ((Bool.or_eq_true _ _).mp starts).resolve_right fun hsquare => hkind (beq_iff_eq.mp hsquare)
    obtain ⟨opener, closer⟩ := TokenKind.plain_of_isIdentifierLike hword
    exact .inl ((h.take opener closer).textFieldValue entry)

theorem textFieldEnd (h : Inside tail outer below [] s) (entry : Pending) :
    Confined tail outer (s.textFieldEnd entry) := by
  have closed := h.close entry (some .textField)
  rw [ParseState.textFieldEnd]
  split
  case isTrue hseparator =>
    obtain ⟨opener, closer, -⟩ := plain_of_isTextSeparator hseparator
    exact (closed.take opener closer).confined
  case isFalse =>
    split
    · exact (closed.congr (t := (s.closeTextField entry).addSynthetic .terminator false)
        rfl rfl).confined
    · exact closed.confined

/-! ## Lists of values -/

theorem textList (h : Inside tail outer below [] s) (hkind : s.kind = .opener .square)
    (entry : Pending) : Confined tail outer (s.textList entry) := by
  have opened := h.takeOpener hkind
  rw [ParseState.textList]
  split
  case isTrue hclose => exact ((opened.takeCloser hclose).close entry _).confined
  case isFalse =>
    have waits := opened.resume (.listAfterItem .values false) rfl entry
    exact (waits.pushGoal rfl).confined

theorem listGoOn (h : Inside tail outer below [.square] s) (found : isListSeparator s.kind = true)
    (failed : Bool) (entry : Pending) : Confined tail outer (s.listGoOn .values failed entry) := by
  rw [ParseState.listGoOn]
  split
  case h_1 hkind =>
    have waits := (h.takeKind hkind rfl rfl).resume (.listAfterItem .values failed) rfl
      { entry with failed := false }
    exact (waits.pushGoal rfl).confined
  case h_2 hkind => exact ((h.takeCloser hkind).close _ _).confined
  case h_3 hcomma hclose =>
    rw [isListSeparator, Bool.or_eq_true, beq_iff_eq, beq_iff_eq] at found
    exact (found.elim hcomma hclose).elim

/-- A list finds the separator behind a broken item, or its end. -/
theorem listAfterItem (h : Inside tail outer below [.square] s) (failed : Bool) (entry : Pending) :
    Confined tail outer (s.listAfterItem .values failed entry) := by
  have finds {t : ParseState} (ht : Inside tail outer below [.square] t) :
      isListSeparator (t.skipTo isListSeparator).kind = true := by
    rcases ht.kind_skipTo isListSeparator with hfound | hclose
    · exact hfound
    · rw [hclose]
      rfl
  rw [ParseState.listAfterItem]
  split
  · exact (h.skipTo _).listGoOn (finds h) true entry
  · split
    case isTrue hfound => exact h.listGoOn hfound failed entry
    case isFalse hother =>
      have hr := h.report [.token .comma, .token (.closer .square)]
      obtain ⟨_, _, closes⟩ := (hr.skipTo isListSeparator).nested
      -- the skip reads at least the token that it began at, so the guard lets it go on
      have suffix := rest_skipTo_suffix (s.report [.token .comma, .token (.closer .square)])
        isListSeparator
      have read := left_lt_of_kind_ne suffix fun hsame => hother (by rw [← finds hr, hsame]; rfl)
      have advanced := recoverTo_advanced (position_ne hr.ordered suffix read closes.ne_nil)
      have found : Inside tail outer below [.square]
          ((s.report [.token .comma, .token (.closer .square)]).recoverTo isListSeparator).1 :=
        (hr.skipTo isListSeparator).congr rfl rfl
      have separator : isListSeparator ((s.report [.token .comma,
          .token (.closer .square)]).recoverTo isListSeparator).1.kind = true := finds hr
      split
      case h_1 hstuck =>
        rw [hstuck] at advanced
        cases advanced
      case h_2 hfound =>
        rw [hfound] at found separator
        exact found.listGoOn separator true entry

end Inside

end ProtoFront
