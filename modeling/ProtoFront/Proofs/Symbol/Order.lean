import Mathlib.Data.String.Basic
import ProtoFront.Proofs.Symbol.Table

/-!
# The order of names

Names are compared character by character, and that is the order of their UTF-8 bytes: the
encoding of a character that is less has a lesser byte at the first place where the two encodings
differ (`bytesOf_le_iff`). So a table that is sorted by name is sorted by the bytes of the names,
and searching it finds what a walk over the symbols finds (`SymbolTable.search_eq_scan`).
-/

namespace ProtoFront

/-- The UTF-8 bytes of a text. -/
def bytesOf (text : String) : List UInt8 := text.toUTF8.data.toList

/-- A text is encoded character by character. -/
theorem bytesOf_eq (text : String) : bytesOf text = text.toList.flatMap String.utf8EncodeChar := by
  rw [bytesOf, String.toUTF8_eq_toByteArray, ← String.utf8Encode_toList, List.utf8Encode,
    List.toList_data_toByteArray]

/-! ## One character -/

/-- The bytes behind the first one, which hold the last digits to base 64. -/
def continuation (value : Nat) : Nat → List UInt8
  | 0 => []
  | count + 1 => UInt8.ofNat (value / 64 ^ count % 64 + 128) :: continuation value count

theorem cons_lt_cons_of_lt {first second : Nat} (h : first < second) (hbyte : second < 256)
    (rest rest' : List UInt8) : UInt8.ofNat first :: rest < UInt8.ofNat second :: rest' := by
  apply List.cons_lt_cons_iff.mpr
  left
  rw [UInt8.lt_iff_toNat_lt, UInt8.toNat_ofNat', UInt8.toNat_ofNat', Nat.mod_eq_of_lt hbyte,
    Nat.mod_eq_of_lt (h.trans hbyte)]
  exact h

/-- The digits that are left of a value that is less are less where they differ. -/
theorem continuation_append_lt {value value' : Nat} (h : value < value') (rest rest' : List UInt8)
    {count : Nat} (same : value / 64 ^ count = value' / 64 ^ count) :
    continuation value count ++ rest < continuation value' count ++ rest' := by
  induction count with
  | zero =>
    rw [pow_zero, Nat.div_one, Nat.div_one] at same
    exact absurd same h.ne
  | succ count ih =>
    rw [pow_succ, ← Nat.div_div_eq_div_mul, ← Nat.div_div_eq_div_mul] at same
    rw [continuation, continuation, List.cons_append, List.cons_append]
    have hle : value / 64 ^ count ≤ value' / 64 ^ count := Nat.div_le_div_right h.le
    rcases hle.lt_or_eq with hlt | heq
    · exact cons_lt_cons_of_lt (by omega) (by omega) _ _
    · rw [heq]
      exact List.cons_lt_cons_iff.mpr (.inr ⟨rfl, ih heq⟩)

/-- The encoding of a character: a first byte that tells the length, and the digits behind it. -/
theorem utf8EncodeChar_cases (char : Char) :
    ∃ count lead, String.utf8EncodeChar char =
      UInt8.ofNat lead :: continuation char.toNat count ∧
      (char.toNat < 0x80 ∧ count = 0 ∧ lead = char.toNat ∨
        0x80 ≤ char.toNat ∧ char.toNat < 0x800 ∧ count = 1 ∧ lead = char.toNat / 64 + 0xc0 ∨
        0x800 ≤ char.toNat ∧ char.toNat < 0x10000 ∧ count = 2 ∧ lead = char.toNat / 4096 + 0xe0 ∨
        0x10000 ≤ char.toNat ∧ char.toNat < 0x110000 ∧ count = 3 ∧
          lead = char.toNat / 262144 + 0xf0) := by
  have hscalar : char.toNat < 0x110000 := by
    rcases char.valid with hlow | hhigh
    · exact hlow.trans (by decide)
    · exact hhigh.2
  have hvalue : char.val.toNat = char.toNat := rfl
  rw [String.utf8EncodeChar, hvalue]
  split_ifs with hone htwo hthree
  · refine ⟨0, char.toNat, ?_, by omega⟩
    rw [continuation]
  · refine ⟨1, char.toNat / 64 + 0xc0, ?_, by omega⟩
    rw [continuation, continuation, pow_zero, Nat.div_one,
      Nat.mod_eq_of_lt (by omega : char.toNat / 64 < 0x20)]
  · refine ⟨2, char.toNat / 4096 + 0xe0, ?_, by omega⟩
    rw [continuation, continuation, continuation, pow_zero, pow_one, Nat.div_one,
      Nat.mod_eq_of_lt (by omega : char.toNat / 4096 < 0x10)]
  · refine ⟨3, char.toNat / 262144 + 0xf0, ?_, by omega⟩
    rw [continuation, continuation, continuation, continuation, pow_zero, pow_one, Nat.div_one,
      Nat.mod_eq_of_lt (by omega : char.toNat / 262144 < 0x08)]
    rfl

/-- Encodings are in the order of the characters, whatever is behind them. -/
theorem utf8EncodeChar_append_lt {first second : Char} (h : first < second)
    (rest rest' : List UInt8) :
    String.utf8EncodeChar first ++ rest < String.utf8EncodeChar second ++ rest' := by
  have hlt : first.toNat < second.toNat := h
  obtain ⟨count, lead, hfirst, hsize⟩ := utf8EncodeChar_cases first
  obtain ⟨count', lead', hsecond, hsize'⟩ := utf8EncodeChar_cases second
  rw [hfirst, hsecond, List.cons_append, List.cons_append]
  have hbyte : lead' < 256 := by omega
  have hle : lead ≤ lead' := by omega
  rcases hle.lt_or_eq with hlead | rfl
  · exact cons_lt_cons_of_lt hlead hbyte _ _
  · obtain rfl : count = count' := by omega
    -- one first byte, so the encodings differ behind it
    have same : first.toNat / 64 ^ count = second.toNat / 64 ^ count := by
      rcases hsize with ⟨_, rfl, _⟩ | ⟨_, _, rfl, _⟩ | ⟨_, _, rfl, _⟩ | ⟨_, _, rfl, _⟩ <;> omega
    exact List.cons_lt_cons_iff.mpr (.inr ⟨rfl, continuation_append_lt hlt rest rest' same⟩)

/-! ## Texts -/

/-- Encodings of texts are in the order of their characters. -/
theorem flatMap_utf8EncodeChar_lt {first second : List Char} (h : first < second) :
    first.flatMap String.utf8EncodeChar < second.flatMap String.utf8EncodeChar := by
  induction h with
  | @nil char rest =>
    rw [List.flatMap_nil, List.flatMap_cons]
    obtain ⟨byte, bytes, hbytes⟩ :=
      List.exists_cons_of_ne_nil (String.utf8EncodeChar_ne_nil (c := char))
    rw [hbytes, List.cons_append]
    exact List.nil_lt_cons _ _
  | rel hchar =>
    rw [List.flatMap_cons, List.flatMap_cons]
    exact utf8EncodeChar_append_lt hchar _ _
  | cons _ ih =>
    rw [List.flatMap_cons, List.flatMap_cons]
    exact List.append_left_lt ih

theorem bytesOf_lt_of_lt {first second : String} (h : first < second) :
    bytesOf first < bytesOf second := by
  rw [bytesOf_eq, bytesOf_eq]
  exact flatMap_utf8EncodeChar_lt (String.lt_iff_toList_lt.mp h)

/-- The order of texts is the order of their bytes. -/
theorem bytesOf_le_iff {first second : String} :
    bytesOf first ≤ bytesOf second ↔ first ≤ second := by
  constructor
  · intro h
    apply le_of_not_gt
    intro hlt
    exact h (bytesOf_lt_of_lt hlt)
  · intro h
    rcases h.lt_or_eq with hlt | rfl
    · exact List.le_of_lt (bytesOf_lt_of_lt hlt)
    · exact List.le_refl _

/-! ## The table -/

namespace SymbolTable

/-- Halving a table that is sorted finds what a walk over the symbols in the order of their
insertion finds: every symbol with a name, and the first of them that can be seen. The sorted table
has the symbols that were inserted, in the order of the bytes of their names. -/
theorem search_eq_scan (symbols : List Symbol) :
    let table := (empty.insertAll symbols).sorted
    (∀ name, table.lookup name = symbols.filter fun symbol => symbol.name == name) ∧
    (∀ name visible, table.lookupVisible name visible =
      symbols.find? fun symbol => symbol.name == name && visible.contains symbol.file) ∧
    table.symbols.toList.Perm symbols ∧
    table.symbols.toList.Pairwise fun first second =>
      bytesOf first.name ≤ bytesOf second.name := by
  have inserted : (empty.insertAll symbols).symbols.toList = symbols := by
    rw [toList_insertAll]
    exact List.nil_append _
  refine ⟨?_, ?_, ?_, ?_⟩
  · intro name
    rw [lookup_sorted, inserted]
  · intro name visible
    rw [lookupVisible_sorted, inserted]
  · have perm := (empty.insertAll symbols).perm_sorted
    rwa [inserted] at perm
  · apply (pairwise_sorted _).imp
    intro first second h
    exact bytesOf_le_iff.mpr h

end SymbolTable

end ProtoFront
