import ProtoFront.Proofs.Composition.Rules
import ProtoFront.Proofs.Parse.Statements

/-!
# What reading and skipping add to a piece

Holding a goal, the parser adds to the piece of its construct: the leaf of a token, the leaves of a
run of tokens, a range. What is skipped may be anything, since only a construct that has failed
skips. Reports add nothing.
-/

namespace ProtoFront

open ParseState Production

variable {buffer : TokenBuffer} {entry : Pending} {s t u : ParseState} {part : Part}
variable {L M N : Language Item} {kind : TokenKind} {word : ContextWord}

/-! ## The next token -/

/-- Tokens that are there and that spell no word of a context. -/
def TokenKind.isPlain : TokenKind → Bool
  | .eof | .identifier => false
  | _ => true

theorem TokenKind.ne_eof_of_isPlain (h : kind.isPlain = true) : kind ≠ .eof := by
  rintro rfl
  cases h

theorem ParseState.kind_ne_eof (s : ParseState) (hkind : s.kind = kind)
    (plain : kind.isPlain = true) : s.kind ≠ .eof :=
  hkind ▸ TokenKind.ne_eof_of_isPlain plain

/-- The item of the next token. -/
def ParseState.item (s : ParseState) : Item := .token s.kind s.cursor.word?

namespace ParseState.Reads

/-- What a token shows in the tree. -/
theorem item_eq (h : s.Reads buffer) {next : Lexeme} {rest : List Lexeme}
    (hrest : s.cursor.rest = next :: rest) : buffer.item next.index = s.item := by
  have hnext : next ∈ buffer.significant := h.rest.subset (by rw [hrest]; exact List.mem_cons_self)
  rw [TokenBuffer.item, TokenBuffer.kindAt_index hnext, ← TokenBuffer.word?_eq_ofText? hnext,
    ParseState.item, kind, Cursor.kind, Cursor.word?, hrest]
  rfl

theorem item_of_plain (h : s.Reads buffer) (hkind : s.kind = kind) (plain : kind.isPlain = true) :
    s.item = .token kind none := by
  have hword : s.cursor.word? = none := by
    by_contra hword
    obtain ⟨word, hword⟩ := Option.ne_none_iff_exists'.mp hword
    have identifier : s.kind = .identifier :=
      kind_of_atWord h.spelled (beq_iff_eq.mpr hword : s.atWord word = true)
    rw [← hkind, identifier] at plain
    cases plain
  rw [item, hword, hkind]

/-- Any word may stand for a name. -/
theorem item_mem_words (h : s.Reads buffer) (hword : s.kind.isIdentifierLike = true) :
    s.item ∈ words := by
  cases hkind : s.kind with
  | identifier =>
    rw [item, hkind]
    exact List.mem_append_left _ (mem_identifiers _)
  | keyword word =>
    rw [h.item_of_plain hkind rfl]
    cases word <;> decide
  | scalar type =>
    rw [h.item_of_plain hkind rfl]
    cases type <;> decide
  | _ =>
    rw [hkind] at hword
    cases hword

theorem item_of_atWord (h : s.Reads buffer) (hword : s.atWord word = true) :
    s.item = .token .identifier (some word) := by
  rw [item, kind_of_atWord h.spelled hword, beq_iff_eq.mp hword]

end ParseState.Reads

/-! ## Adding to the tree -/

/-- From `s` to `t` the parser adds one of `M` to the tree. -/
structure Adds (buffer : TokenBuffer) (M : Language Item) (s t : ParseState) : Prop where
  pending : t.pending = s.pending
  reads : t.Reads buffer
  grows : ∃ added : Forest, added.Complete buffer ∧ added.items buffer ∈ M ∧
    ∀ forest, s.Lays forest → t.Lays (forest ++ added)

namespace Adds

theorem mono (h : Adds buffer L s t) (hL : L ≤ M) : Adds buffer M s t := by
  obtain ⟨added, complete, items, lays⟩ := h.grows
  exact ⟨h.pending, h.reads, added, complete, hL items, lays⟩

theorem trans (h : Adds buffer L s t) (h' : Adds buffer M t u) : Adds buffer (L * M) s u := by
  obtain ⟨first, hfirst, hL, hs⟩ := h.grows
  obtain ⟨second, hsecond, hM, ht⟩ := h'.grows
  refine ⟨h'.pending.trans h.pending, h'.reads, first ++ second,
    Forest.complete_append.mpr ⟨hfirst, hsecond⟩, ?_, fun forest lays => ?_⟩
  · rw [Forest.items_append]
    exact Language.append_mem_mul hL hM
  · rw [← Forest.append_assoc]
    exact ht _ (hs forest lays)

/-- Nothing is added. -/
theorem nothing (reads : t.Reads buffer) (pending : t.pending = s.pending)
    (nodes : t.nodes = s.nodes) : Adds buffer 1 s t := by
  refine ⟨pending, reads, .nil, Forest.complete_nil, rfl, fun forest lays => ?_⟩
  rw [Forest.append_nil, Lays, nodes]
  exact lays

theorem leaf_complete {tag? : Option NodeKind} {token? : Option Nat} {failed : Bool}
    (bare : tag?.all NodeKind.isBare = true) : (Forest.leaf token? failed tag?).Complete buffer :=
  Forest.complete_nil.tree (Forest.made_of_isBare bare)

/-- A word is a name of its own. -/
theorem word_complete {kind : NodeKind} {token : Nat} {failed : Bool} (named : kind.isName = true)
    (hword : buffer.item token ∈ words) :
    (Forest.leaf (some token) failed (some kind)).Complete buffer := by
  refine Forest.complete_nil.tree ⟨fun _ other hkind => ?_, fun _ other hkind _ => ?_⟩
  · obtain rfl := Option.some.inj hkind
    cases named
  · obtain rfl := Option.some.inj hkind
    have lone : [buffer.item token] ∈ dotted.matches' :=
      ⟨[buffer.item token], mem_oneOf.mpr hword, [], Language.nil_mem_kstar _, rfl⟩
    cases kind with
    | name => exact lone
    | reference kind => exact ⟨[], .inl rfl, _, lone, rfl⟩
    | _ => cases named

/-- A token becomes a leaf. -/
theorem addLeaf_of_complete (reads : s.Reads buffer) (tag? : Option NodeKind) (failed : Bool)
    {next : Lexeme} {rest : List Lexeme} (hrest : s.cursor.rest = next :: rest)
    (complete : (Forest.leaf (some next.index) failed tag?).Complete buffer) :
    Adds buffer {[(tag?.map Item.node).getD s.item]} s (s.addLeaf tag? failed) := by
  refine ⟨s.pending_addLeaf tag? failed, reads.addLeaf tag? failed,
    .leaf (some next.index) failed tag?, complete, ?_,
    fun forest lays => lays.addLeaf tag? failed hrest⟩
  rw [← reads.item_eq hrest]
  cases tag? <;> rfl

theorem addLeaf (reads : s.Reads buffer) (there : s.kind ≠ .eof) (tag? : Option NodeKind)
    (bare : tag?.all NodeKind.isBare = true) (failed : Bool) :
    Adds buffer {[(tag?.map Item.node).getD s.item]} s (s.addLeaf tag? failed) := by
  obtain ⟨next, rest, hrest⟩ := exists_rest there
  exact addLeaf_of_complete reads tag? failed hrest (leaf_complete bare)

theorem take (reads : s.Reads buffer) (there : s.kind ≠ .eof) :
    Adds buffer {[s.item]} s s.take :=
  addLeaf reads there none rfl false

theorem just (reads : s.Reads buffer) (hkind : s.kind = kind) (plain : kind.isPlain = true) :
    Adds buffer (Production.just kind).matches' s s.take := by
  have taken := take reads (hkind ▸ TokenKind.ne_eof_of_isPlain plain)
  rwa [reads.item_of_plain hkind plain] at taken

theorem contextual (reads : s.Reads buffer) (hword : s.atWord word = true) :
    Adds buffer (Production.contextual word).matches' s s.take := by
  have taken := take reads (by rw [kind_of_atWord reads.spelled hword]; simp)
  rwa [reads.item_of_atWord hword] at taken

/-- A word becomes a name. -/
theorem takeAs (reads : s.Reads buffer) (hkind : s.kind.isIdentifierLike = true) (tag : NodeKind)
    (named : tag.isName = true) : Adds buffer (node tag).matches' s (s.takeAs tag) := by
  obtain ⟨next, rest, hrest⟩ := exists_rest (TokenKind.ne_eof_of_isIdentifierLike hkind)
  refine addLeaf_of_complete reads (some tag) false hrest (word_complete named ?_)
  rw [reads.item_eq hrest]
  exact reads.item_mem_words hkind

/-- The same kind of token in a row. -/
theorem takeRun (reads : s.Reads buffer) (plain : kind.isPlain = true) :
    Adds buffer (Production.just kind).star.matches' s (s.takeRun (· == kind)) := by
  refine takeRun_of_take ((nothing reads rfl rfl).mono one_le_kstar) fun t run hkind => ?_
  exact (run.trans (just run.reads (beq_iff_eq.mp hkind) plain)).mono kstar_mul_le_kstar

/-- What is read since `s` becomes a range. -/
theorem range (h : Adds buffer someItems s t) (token : Nat) :
    Adds buffer (node .range).matches' s
      (t.addParent (some token) s.nodes.size (some .range) false) := by
  obtain ⟨added, complete, items, lays⟩ := h.grows
  refine ⟨h.pending, ⟨h.reads.rest, h.reads.endIndex⟩,
    .tree ⟨some token, false, some .range⟩ added, complete.tree (Forest.made_of_isBare rfl), ?_,
    fun forest hforest => ?_⟩
  · have inner := Forest.size_pos_of_items_ne_nil items
    exact congrArg (· :: []) (Label.item_node _ (Option.some_ne_none token) inner)
  · rw [hforest.size_eq]
    exact (lays forest hforest).addParent _ _ _

/-! ### Adding anything -/

theorem addLeaf_or_not (reads : s.Reads buffer) (tag? : Option NodeKind)
    (bare : tag?.all NodeKind.isBare = true) (failed : Bool) :
    Adds buffer ⊤ s (s.addLeaf tag? failed) := by
  rcases hrest : s.cursor.rest with _ | ⟨next, rest⟩
  · rw [s.addLeaf_of_rest_eq_nil _ _ hrest]
    exact (nothing reads rfl rfl).mono le_top
  · refine (addLeaf reads ?_ tag? bare failed).mono le_top
    rw [kind_of_rest hrest]
    exact TokenBuffer.kind_ne_eof (reads.rest.subset (by rw [hrest]; exact .head rest))

theorem discard (reads : s.Reads buffer) : Adds buffer ⊤ s s.discard :=
  addLeaf_or_not reads none rfl true

theorem takeAny (reads : s.Reads buffer) (member : TokenKind → Bool) :
    Adds buffer ⊤ s (s.takeRun member) := by
  refine takeRun_of_take ((nothing reads rfl rfl).mono le_top) fun t run _ => ?_
  exact (run.trans (addLeaf_or_not run.reads none rfl false)).mono le_top

theorem discardMany (reads : s.Reads buffer) (n : Nat) :
    Adds buffer ⊤ s (ParseState.discardMany n s) := by
  induction n generalizing s with
  | zero => exact (nothing reads rfl rfl).mono le_top
  | succ n ih =>
    have first := discard reads
    exact (first.trans (ih first.reads)).mono le_top

theorem skipTo (reads : s.Reads buffer) (stop : TokenKind → Bool) :
    Adds buffer ⊤ s (s.skipTo stop) :=
  discardMany reads _

theorem skipStatement (reads : s.Reads buffer) (origin : Origin) :
    Adds buffer ⊤ s (s.skipStatement origin) := by
  have skipped := discardMany reads (statementExtent origin s.cursor.rest)
  rw [ParseState.skipStatement]
  split
  case isFalse => exact skipped
  case isTrue hkind => exact (skipped.trans (just skipped.reads hkind rfl)).mono le_top

theorem resync (h : Adds buffer M s t) (start : Nat) : Adds buffer M s (t.resync start).1 := by
  obtain ⟨added, complete, items, lays⟩ := h.grows
  exact ⟨h.pending, ⟨h.reads.rest, h.reads.endIndex⟩, added, complete, items, lays⟩

theorem recoverTo (reads : s.Reads buffer) (stop : TokenKind → Bool) :
    Adds buffer ⊤ s (s.recoverTo stop).1 :=
  (skipTo reads stop).resync s.position

theorem addSynthetic (reads : s.Reads buffer) (kind : NodeKind)
    (bare : kind.isBare = true) (failed : Bool) :
    Adds buffer ⊤ s (s.addSynthetic kind failed) :=
  ⟨rfl, ⟨reads.rest, reads.endIndex⟩, .leaf none failed (some kind), leaf_complete bare, trivial,
    fun _ lays => lays.addSynthetic kind failed⟩

end Adds

/-! ## Adding to a piece -/

theorem Piled.add {before more : Forest} (h : Piled buffer s before more)
    (adds : Adds buffer M s t) : ∃ added : Forest, added.items buffer ∈ M ∧
      Piled buffer t before (more ++ added) := by
  obtain ⟨added, complete, items, lays⟩ := adds.grows
  refine ⟨added, items, ?_, ?_, ?_, adds.reads⟩
  · rw [adds.pending]
    exact h.below
  · rw [← Forest.append_assoc]
    exact lays _ h.lays
  · rw [← Forest.append_assoc]
    exact Forest.complete_append.mpr ⟨h.complete, complete⟩

theorem Returns.reads (h : Returns buffer part L s) : s.Reads buffer := by
  obtain ⟨_, _, piled, -, -, -⟩ := h
  exact piled.reads

/-- Behind a part that has ended, something more is added to the construct around it. -/
theorem Returns.add (h : Returns buffer part L s) (adds : Adds buffer M s t) :
    Returns buffer part (L * M) t := by
  obtain ⟨before, more, piled, awaited, inner, made⟩ := h
  obtain ⟨added, items, hpiled⟩ := piled.add adds
  refine ⟨before, more ++ added, hpiled, ?_, inner, fun next below hpending unflagged => ?_⟩
  · rwa [adds.pending]
  · rw [adds.pending] at hpending
    rw [Forest.items_append]
    exact Language.append_mem_mul (made next below hpending unflagged) items

namespace Holds

theorem reads (h : Holds buffer L entry s) : s.Reads buffer := by
  obtain ⟨_, _, piled, -, -, -⟩ := h
  exact piled.reads

theorem add (h : Holds buffer L entry s) (adds : Adds buffer M s t) :
    Holds buffer (L * M) entry t := by
  obtain ⟨before, since, piled, awaited, start, made⟩ := h
  obtain ⟨added, items, hpiled⟩ := piled.add adds
  refine ⟨before, since ++ added, hpiled, ?_, start, fun unflagged => ?_⟩
  · rwa [adds.pending]
  · rw [Forest.items_append]
    exact Language.append_mem_mul (made unflagged) items

theorem take (h : Holds buffer L entry s) (there : s.kind ≠ .eof) :
    Holds buffer (L * {[s.item]}) entry s.take :=
  h.add (.take h.reads there)

theorem just (h : Holds buffer L entry s) (hkind : s.kind = kind) (plain : kind.isPlain = true) :
    Holds buffer (L * (Production.just kind).matches') entry s.take :=
  h.add (.just h.reads hkind plain)

theorem contextual (h : Holds buffer L entry s) (hword : s.atWord word = true) :
    Holds buffer (L * (Production.contextual word).matches') entry s.take :=
  h.add (.contextual h.reads hword)

theorem takeAs (h : Holds buffer L entry s) (hkind : s.kind.isIdentifierLike = true)
    (tag : NodeKind) (named : tag.isName = true) :
    Holds buffer (L * (node tag).matches') entry (s.takeAs tag) :=
  h.add (.takeAs h.reads hkind tag named)

/-- A token that may be there or not. -/
theorem takeIf {production : Production} (h : Holds buffer L entry s) (c : Prop) [Decidable c]
    (adds : c → Adds buffer production.matches' s s.take) :
    Holds buffer (L * (perhaps production).matches') entry (if c then s.take else s) := by
  split
  case isTrue hc => exact h.add ((adds hc).mono le_sup_right)
  case isFalse => exact h.add ((Adds.nothing h.reads rfl rfl).mono le_sup_left)

/-- A report changes nothing in the tree. -/
theorem report (h : Holds buffer L entry s) (expected : List Expectation) :
    Holds buffer L entry (s.report expected) := by
  have nothing : Adds buffer 1 s (s.report expected) :=
    .nothing ⟨h.reads.rest, h.reads.endIndex⟩ rfl rfl
  have reported := h.add nothing
  rwa [mul_one] at reported

end Holds

end ProtoFront
