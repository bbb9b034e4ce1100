import ProtoFront.Total

/-!
# Byte offsets into text

Positions in a source are counted in UTF-8 bytes. `byteLength` is the measure on characters, and
`slice?` reads the text between two offsets; an offset inside a character, or past the end, has
no text.
-/

namespace ProtoFront

/-- The number of bytes that encode the characters. -/
def byteLength (text : List Char) : Nat := total Char.utf8Size text

@[simp] theorem byteLength_nil : byteLength [] = 0 := rfl

@[simp] theorem byteLength_cons (c : Char) (text : List Char) :
    byteLength (c :: text) = c.utf8Size + byteLength text := rfl

@[simp] theorem byteLength_append (text more : List Char) :
    byteLength (text ++ more) = byteLength text + byteLength more := by
  simp [byteLength]

/-- The text from byte `start` up to byte `stop`, when both fall between characters. -/
def slice? (text : String) (start stop : Nat) : Option String :=
  match text.pos? ⟨start⟩, text.pos? ⟨stop⟩ with
  | some first, some last => if start ≤ stop then some (text.extract first last) else none
  | _, _ => none

end ProtoFront
