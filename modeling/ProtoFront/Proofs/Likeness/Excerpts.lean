import ProtoFront.Proofs.Likeness.Blocks

/-!
# Statements on their own

A statement of a file whose tree is unmarked is parsed in the same way when nothing else is in the
buffer, whatever is wrong with the rest of the file.
-/

namespace ProtoFront

open ParseState

variable {front : List Lexeme} {block nodes : List Node} {token : Nat → Nat}

/-! ## The trees of the statements -/

/-- The last node of a stretch of nodes that has the size of the stretch is the root of it. -/
theorem ParseTree.subtree_eq {tree : ParseTree} {before after : List Node} {root : Node}
    (hnodes : tree.nodes.toList = before ++ block ++ after) (hlast : block.getLast? = some root)
    (hsize : root.size = block.length) : ∃ id, before.length + block.length = id + 1 ∧
      tree.node? id = some root ∧ tree.sizeAt id = block.length ∧ tree.subtree id = block := by
  obtain ⟨init, rfl⟩ := List.getLast?_eq_some_iff.mp hlast
  have hnode : tree.node? (before ++ init).length = some root := by
    rw [node?, ← Array.getElem?_toList, hnodes, ← List.append_assoc, List.append_assoc,
      List.getElem?_append_right (Nat.le_refl _), Nat.sub_self]
    rfl
  have hsizeAt : tree.sizeAt (before ++ init).length = (init ++ [root]).length := by
    rw [sizeAt, hnode, ← hsize]
    rfl
  refine ⟨(before ++ init).length, by simp [Nat.add_assoc], hnode, hsizeAt, ?_⟩
  have hfirst : tree.firstOf (before ++ init).length = before.length := by
    rw [firstOf, hsizeAt]
    simp
  rw [subtree, hfirst, Array.toList_extract, hnodes, List.extract_eq_take_drop, List.append_assoc,
    List.drop_left]
  refine List.take_left' ?_
  rw [List.length_append, List.length_append, List.length_singleton]
  omega

/-- The roots of a file are the last nodes of its statements, and their trees are all that the
statements have made. -/
theorem Blocks.exists_of_mem_siblings {tree : ParseTree} {before after : List Node} {id : Nat}
    (h : Blocks front nodes) (hnodes : tree.nodes.toList = before ++ nodes ++ after)
    (hid : id ∈ tree.siblings 0 (before.length + nodes.length)) :
    id ∈ tree.siblings 0 before.length ∨ ∃ part, part <:+: front ∧ Block part (tree.subtree id) ∧
      tree.node? id = (tree.subtree id).getLast? := by
  induction h generalizing before with
  | nil => exact .inl hid
  | @cons part rest block nodes hblock blocks ih =>
    rw [List.length_append, ← Nat.add_assoc, ← List.length_append] at hid
    rcases ih (by rw [hnodes]; simp) hid with hbefore | ⟨part', hpart, hfound⟩
    · obtain ⟨root, hlast, hsize, -⟩ := hblock.root
      obtain ⟨own, hown, hnode, hsizeAt, hsubtree⟩ :=
        ParseTree.subtree_eq (show _ = before ++ block ++ (nodes ++ after) by rw [hnodes]; simp)
          hlast hsize
      rw [List.length_append, hown, ParseTree.siblings, if_pos (Nat.succ_pos _)] at hbefore
      rcases List.mem_cons.mp hbefore with rfl | hbelow
      · refine .inr ⟨part, (List.prefix_append _ _).isInfix, ?_, ?_⟩
        · rwa [hsubtree]
        · rw [hsubtree, hnode, hlast]
      · have hpos : block.length ≠ 0 := by
          rw [List.length_eq_zero_iff.ne]
          rintro rfl
          cases hlast
        rw [Nat.add_sub_cancel, hsizeAt] at hbelow
        refine .inl ?_
        rwa [show max 0 (own + 1 - max 1 block.length) = before.length by omega] at hbelow
    · exact .inr ⟨part', hpart.trans (List.suffix_append _ _).isInfix, hfound⟩

/-! ## Buffers made of a few tokens -/

namespace TokenBuffer

/-- A buffer that holds only some of the tokens of another one, with the same kinds and texts, and
an end marker behind them. -/
structure Excerpt (buffer : TokenBuffer) (tokens : List Nat) (other : TokenBuffer) : Prop where
  size : other.size = tokens.length + 1
  ended : other.kindAt tokens.length = .eof
  kind : ∀ n token, tokens[n]? = some token → other.kindAt n = buffer.kindAt token
  text : ∀ n token, tokens[n]? = some token → other.text n = buffer.text token

variable {buffer other : TokenBuffer} {lexeme : Lexeme}

theorem Excerpt.tokens_ne {tokens : List Nat} (h : buffer.Excerpt tokens other) :
    other.tokens ≠ #[] := by
  intro hempty
  have hsize := h.size
  rw [TokenBuffer.size, hempty] at hsize
  cases hsize

/-- The tokens of an excerpt are all significant if those that it is made of are. -/
theorem Excerpt.significantIndices_eq (h : buffer.Excerpt (front.map Lexeme.index) other)
    (hfront : ∀ lexeme ∈ front, lexeme ∈ buffer.significant) :
    other.significantIndices = List.range front.length := by
  have kinds (n : Nat) (hn : n ∈ List.range front.length) :
      other.kindAt n ≠ .eof ∧ (other.kindAt n).isComment = false := by
    have hn := List.mem_range.mp hn
    have hlexeme := hfront _ (List.getElem_mem hn)
    obtain ⟨token, htoken, there, hcomment, -⟩ := mem_significant hlexeme
    rw [h.kind n front[n].index (by simp [hn]), kindAt, htoken]
    exact ⟨there, hcomment⟩
  have hended := h.ended
  rw [List.length_map] at hended
  rw [significantIndices, h.size, List.length_map, List.range_succ, List.takeWhile_append_of_pos
    fun n hn => bne_iff_ne.mpr (kinds n hn).1, List.takeWhile_cons_of_neg (by simp [hended]),
    List.append_nil]
  exact List.filter_eq_self.mpr fun n hn => by rw [(kinds n hn).2]; rfl

/-- The lexemes of an excerpt are those that it is made of, numbered from zero on. -/
theorem Excerpt.significant_matches (h : buffer.Excerpt (front.map Lexeme.index) other)
    (hfront : ∀ lexeme ∈ front, lexeme ∈ buffer.significant)
    (numbers : (front.map Lexeme.index).map token = List.range front.length) :
    List.Forall₂ (Lexeme.Matches token) front other.significant := by
  have indices := (map_index_significant other).trans (h.significantIndices_eq hfront)
  have length : other.significant.length = front.length := by
    rw [← List.length_map Lexeme.index, indices, List.length_range]
  refine List.forall₂_iff_get.mpr ⟨length.symm, fun n hn hn' => ?_⟩
  simp only [List.get_eq_getElem]
  have hlexeme := hfront _ (List.getElem_mem hn)
  have hother := List.getElem_mem hn'
  have hindex : other.significant[n].index = n := by
    have hget := congrArg (fun indices => indices[n]?) indices
    simpa [hn, hn'] using hget
  have hnumber : token front[n].index = n := by
    have hget := congrArg (fun numbers => numbers[n]?) numbers
    simpa [hn] using hget
  have hkind : other.significant[n].kind = front[n].kind := by
    rw [← kindAt_index hother, hindex, h.kind n front[n].index (by simp [hn]), kindAt_index hlexeme]
  refine ⟨hindex.trans hnumber.symm, hkind, ?_⟩
  rw [word?_eq_ofText? hother, word?_eq_ofText? hlexeme, hkind, hindex,
    h.text n front[n].index (by simp [hn])]

/-- Where there are no comments, tokens that come one after the other are numbered from zero on by
a shift. -/
theorem exists_shift (plain : ∀ index, (buffer.kindAt index).isComment = false)
    (hfront : front <:+: buffer.significant) :
    ∃ first, (front.map Lexeme.index).map (· - first) = List.range front.length := by
  have indices : ∃ n, buffer.significant.map Lexeme.index = List.range n := by
    rw [map_index_significant, significantIndices,
      List.filter_eq_self.mpr fun index _ => by rw [plain index]; rfl,
      List.takeWhile_eq_take_findIdx_not, List.take_range]
    exact ⟨_, rfl⟩
  obtain ⟨before, after, hsignificant⟩ := hfront
  obtain ⟨n, hn⟩ := indices
  rw [← hsignificant, List.map_append, List.map_append] at hn
  refine ⟨before.length, List.ext_getElem (by simp) fun index h h' => ?_⟩
  have hindex : index < front.length := by simpa using h
  have hget := congrArg (fun indices => indices[before.length + index]?) hn
  have hlength := congrArg List.length hn
  simp only [List.length_append, List.length_map, List.length_range] at hlength
  rw [List.append_assoc, List.getElem?_append_right (by simp), List.length_map,
    Nat.add_sub_cancel_left, List.getElem?_append_left (by simpa using hindex),
    List.getElem?_range (by omega)] at hget
  obtain ⟨hlt, hvalue⟩ := List.getElem?_eq_some_iff.mp hget
  rw [List.getElem_map, hvalue, List.getElem_range, Nat.add_sub_cancel_left]

end TokenBuffer

/-! ## Statements on their own -/

/-- Nodes that a parser makes of certain tokens wherever they stand are what it makes of a buffer of
just these tokens. -/
theorem Carries.parseTokens_eq {other : TokenBuffer} (h : Carries atTopLevel front block)
    (same : List.Forall₂ (Lexeme.Matches token) front other.significant) (syncLimit : Nat) :
    (other.parseTokens .file syncLimit).diagnostics = [] ∧
      (other.parseTokens .file syncLimit).tree.nodes.toList = block.map (Node.rename token) := by
  have between := between_initial other.cursor syncLimit
  obtain ⟨t, leads, pending, rest, diagnostics, nodes⟩ :=
    h token _ _ [] between.among (List.append_nil _).symm same
  have hbetween : t.Between := by rwa [Between, pending]
  have hstep := hbetween.step_of_end rest
  rw [TokenBuffer.parseTokens_eq_of_leads (leads.trans (.step t)) (by rw [hstep]), hstep]
  exact ⟨congrArg Array.toList diagnostics, nodes⟩

/-- The tree of a root has been made of consecutive tokens, as a statement. -/
theorem TokenBuffer.exists_block (buffer : TokenBuffer) (syncLimit : Nat) {id : Nat}
    (hid : id ∈ (buffer.parseTokens .file syncLimit).tree.roots) :
    ∃ part, part <:+: buffer.significant ∧
      Block part ((buffer.parseTokens .file syncLimit).tree.subtree id) ∧
      (buffer.parseTokens .file syncLimit).tree.node? id =
        ((buffer.parseTokens .file syncLimit).tree.subtree id).getLast? := by
  generalize htree : (buffer.parseTokens .file syncLimit).tree = tree at hid ⊢
  have blocks := buffer.blocks_parseTokens syncLimit
  rw [htree] at blocks
  have hnodes : tree.nodes.toList = [] ++ tree.nodes.toList ++ [] := by simp
  refine (blocks.exists_of_mem_siblings hnodes ?_).resolve_left fun hnone => ?_
  · rwa [List.length_nil, Nat.zero_add, Array.length_toList]
  · rw [List.length_nil, ParseTree.siblings_self] at hnone
    cases hnone

/-- Whatever is wrong elsewhere in a file, a statement whose root is unmarked is what a parse of
just its tokens gives: it reports nothing, and the tree is the same, with the tokens numbered from
zero on. In a buffer without comments that is a shift. -/
theorem parse_excerpt (buffer : TokenBuffer) (syncLimit : Nat) (nonempty : buffer.tokens ≠ #[]) :
    ∃ parsed, buffer.parse .file syncLimit = .ok parsed ∧
      ∀ id ∈ parsed.tree.roots, ∀ root, parsed.tree.node? id = some root → root.failed = false →
        ∀ leaves, (⟨(parsed.tree.subtree id).toArray⟩ : ParseTree).leafTokens = leaves →
          ((∀ index, (buffer.kindAt index).isComment = false) →
            ∃ first, leaves.map (· - first) = List.range leaves.length) ∧
          ∀ (other : TokenBuffer) (token : Nat → Nat) (syncLimit' : Nat),
            buffer.Excerpt leaves other → leaves.map token = List.range leaves.length →
              ∃ parsed', other.parse .file syncLimit' = .ok parsed' ∧ parsed'.diagnostics = [] ∧
                parsed'.tree.nodes.toList = (parsed.tree.subtree id).map (Node.rename token) := by
  refine ⟨_, buffer.parse_eq_ok .file syncLimit nonempty, ?_⟩
  rintro id hid root hroot unmarked leaves hleaves
  obtain ⟨part, hpart, block, hlast⟩ := buffer.exists_block syncLimit hid
  obtain ⟨root', hroot', -, carries⟩ := block.root
  obtain rfl : root' = root := by
    rw [hroot, hroot'] at hlast
    exact (Option.some.inj hlast).symm
  have hlexemes : leaves = part.map Lexeme.index := by
    rw [← hleaves, ParseTree.leafTokens_eq, List.toList_toArray, block.leaves]
  subst hlexemes
  rw [List.length_map]
  refine ⟨fun plain => TokenBuffer.exists_shift plain hpart, ?_⟩
  intro other token syncLimit' excerpt numbers
  have same := excerpt.significant_matches (fun _ h => hpart.subset h) numbers
  obtain ⟨diagnostics, nodes⟩ := (carries unmarked).parseTokens_eq same syncLimit'
  exact ⟨_, other.parse_eq_ok .file syncLimit' excerpt.tokens_ne, diagnostics, nodes⟩

/-- An import, and a brace that closes nothing. -/
def TokenBuffer.importAndBrace : TokenBuffer :=
  ⟨"import \"a\"; \x7d", #[⟨.keyword .kwImport, 0, 0, 6⟩, ⟨.stringLiteral, 0, 7, 3⟩,
    ⟨.semicolon, 0, 10, 1⟩, ⟨.closer .brace, 0, 12, 1⟩], #[⟨0, 13⟩]⟩

/-- The same import alone. -/
def TokenBuffer.importAlone : TokenBuffer :=
  { importAndBrace with tokens := #[⟨.keyword .kwImport, 0, 0, 6⟩, ⟨.stringLiteral, 0, 7, 3⟩,
    ⟨.semicolon, 0, 10, 1⟩, ⟨.eof, 0, 13, 0⟩] }

theorem TokenBuffer.excerpt_importAlone : importAndBrace.Excerpt [0, 1, 2] importAlone where
  size := rfl
  ended := rfl
  kind n token h := by
    rcases n with _ | _ | _ | n <;> cases h <;> rfl
  text n token h := by
    rcases n with _ | _ | _ | n <;> cases h <;> rfl

theorem parse_excerpt_importAlone : TokenBuffer.importAndBrace.tokens ≠ #[] ∧
    TokenBuffer.importAndBrace.Excerpt [0, 1, 2] TokenBuffer.importAlone ∧
      ∃ parsed', TokenBuffer.importAlone.parse .file 0 = .ok parsed' ∧ parsed'.diagnostics = [] ∧
        parsed'.tree.nodes.toList = [⟨some 0, 1, false, none⟩, ⟨some 1, 1, false, none⟩,
          ⟨some 2, 1, false, none⟩, ⟨some 0, 4, false, some (.declaration .importing)⟩] := by
  obtain ⟨parsed, hparsed, h⟩ := parse_excerpt TokenBuffer.importAndBrace 0 (by decide)
  obtain rfl := Except.ok.inj hparsed
  have hroot : 3 ∈ (TokenBuffer.importAndBrace.parseTokens .file 0).tree.roots := by
    have hsize : (TokenBuffer.importAndBrace.parseTokens .file 0).tree.size = 5 := rfl
    have hlast : (TokenBuffer.importAndBrace.parseTokens .file 0).tree.sizeAt 4 = 1 := rfl
    rw [ParseTree.roots, hsize, ParseTree.siblings, ParseTree.siblings]
    simp [hlast]
  refine ⟨by decide, TokenBuffer.excerpt_importAlone, ?_⟩
  have statement := (h 3 hroot _ rfl rfl _ rfl).2
  exact statement TokenBuffer.importAlone id 0 TokenBuffer.excerpt_importAlone rfl

end ProtoFront
