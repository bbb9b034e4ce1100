import ProtoFront.Json.Number
import ProtoFront.Text.Slice

/-!
# The tokens of JSON

`JsonToken.tokens` cuts a text into tokens. A token that is not well formed is the last one: it
tells what is wrong, and the text behind it is not looked at.
-/

namespace ProtoFront

/-- A token of JSON. -/
inductive JsonToken where
  | openArray
  | closeArray
  | openObject
  | closeObject
  | colon
  | comma
  | null
  | bool (value : Bool)
  /-- a number, with its value if it is a natural number -/
  | number (natural? : Option Nat)
  | string (value : String)
  /-- a string that is not well formed -/
  | brokenString (fault : JsonFault)
  /-- anything else that is not well formed -/
  | broken (fault : JsonFault)
  deriving DecidableEq, Repr, Inhabited

namespace JsonToken

/-! ## Strings -/

/-- The value of a hexadecimal digit. -/
def hexValue? (c : Char) : Option Nat :=
  if c.isDigit then some (c.toNat - '0'.toNat)
  else if 'a' ≤ c ∧ c ≤ 'f' then some (c.toNat - 'a'.toNat + 10)
  else if 'A' ≤ c ∧ c ≤ 'F' then some (c.toNat - 'A'.toNat + 10)
  else none

/-- The number that four hexadecimal digits write, and the rest of the text. -/
def readUnit : List Char → Except JsonFault (Nat × List Char)
  | a :: b :: c :: d :: rest =>
    match hexValue? a, hexValue? b, hexValue? c, hexValue? d with
    | some a, some b, some c, some d => .ok (((a * 16 + b) * 16 + c) * 16 + d, rest)
    | _, _, _, _ => .error .malformed
  | short => .error (if byteLength short < 4 then .endsEarly else .malformed)

/-- Whether a number is the first half of a pair that writes one character. -/
def isHighHalf (n : Nat) : Bool := 0xd800 ≤ n && n < 0xdc00

/-- Whether a number is the second half of a pair. -/
def isLowHalf (n : Nat) : Bool := 0xdc00 ≤ n && n < 0xe000

/-- The character that a pair writes. -/
def joinHalves (high low : Nat) : Char :=
  Char.ofNat (0x10000 + (high - 0xd800) * 0x400 + (low - 0xdc00))

/-- The character that a pair writes whose first half has been read. -/
def readLowHalf (high : Nat) (text : List Char) : Except JsonFault (Char × List Char) :=
  match text with
  | [] => .error .endsEarly
  | ['\\'] => .error .endsEarly
  | '\\' :: 'u' :: more =>
    match readUnit more with
    | .ok (low, rest) =>
      if isLowHalf low then .ok (joinHalves high low, rest) else .error .malformed
    | .error fault => .error fault
  | _ => .error .malformed

/-- The character that one escape, or a pair of them, writes by its number. -/
def readUnits (text : List Char) : Except JsonFault (Char × List Char) :=
  match readUnit text with
  | .ok (unit, rest) =>
    if isHighHalf unit then readLowHalf unit rest
    else if isLowHalf unit then .error .malformed
    else .ok (Char.ofNat unit, rest)
  | .error fault => .error fault

/-- The character that an escape means, and the rest of the text. The backslash has been read. -/
def readEscape : List Char → Except JsonFault (Char × List Char)
  | [] => .error .endsEarly
  | '"' :: rest => .ok ('"', rest)
  | '\\' :: rest => .ok ('\\', rest)
  | '/' :: rest => .ok ('/', rest)
  | 'b' :: rest => .ok ('\x08', rest)
  | 'f' :: rest => .ok ('\x0c', rest)
  | 'n' :: rest => .ok ('\n', rest)
  | 'r' :: rest => .ok ('\r', rest)
  | 't' :: rest => .ok ('\t', rest)
  | 'u' :: rest => readUnits rest
  | _ => .error .malformed

theorem length_readUnit_lt {text : List Char} {result : Nat × List Char}
    (done : readUnit text = .ok result) : result.2.length < text.length := by
  unfold readUnit at done
  split at done
  case h_1 =>
    split at done
    case h_1 => cases done; simp only [List.length_cons]; omega
    case h_2 => cases done
  case h_2 => cases done

theorem length_readLowHalf_le {high : Nat} {text : List Char} {result : Char × List Char}
    (done : readLowHalf high text = .ok result) : result.2.length ≤ text.length := by
  unfold readLowHalf at done
  split at done
  case h_3 more =>
    split at done
    case h_1 equation =>
      have shorter := length_readUnit_lt equation
      split at done
      case isTrue =>
        rw [← Except.ok.inj done]
        simp only [List.length_cons] at *
        omega
      case isFalse => cases done
    case h_2 => cases done
  all_goals cases done

theorem length_readUnits_lt {text : List Char} {result : Char × List Char}
    (done : readUnits text = .ok result) : result.2.length < text.length := by
  unfold readUnits at done
  split at done
  case h_1 equation =>
    have shorter := length_readUnit_lt equation
    split at done
    case isTrue => exact Nat.lt_of_le_of_lt (length_readLowHalf_le done) shorter
    case isFalse =>
      split at done
      case isTrue => cases done
      case isFalse => cases done; exact shorter
  case h_2 => cases done

theorem length_readEscape_lt {text : List Char} {result : Char × List Char}
    (done : readEscape text = .ok result) : result.2.length < text.length := by
  unfold readEscape at done
  split at done
  case h_10 => exact Nat.lt_succ_of_lt (length_readUnits_lt done)
  case h_1 | h_11 => cases done
  all_goals
    rw [← Except.ok.inj done]
    exact Nat.lt_succ_self _

/-- The rest of a string whose opening quote has been read: its characters, and what follows the
closing quote. -/
def readString (text : List Char) : Except JsonFault (List Char × List Char) :=
  match text with
  | [] => .error .endsEarly
  | '"' :: rest => .ok ([], rest)
  | '\\' :: rest =>
    match _done : readEscape rest with
    | .ok (c, rest) => (readString rest).map (Prod.map (c :: ·) id)
    | .error fault => .error fault
  | c :: rest =>
    if c.toNat < 32 then .error .malformed else (readString rest).map (Prod.map (c :: ·) id)
termination_by text.length
decreasing_by
  · have := length_readEscape_lt _done
    simp only [List.length_cons] at *
    omega
  · simp

/-! ## Tokens -/

/-- Whether a character is passed over between tokens. -/
def isBlank (c : Char) : Bool := c == ' ' || c == '\t' || c == '\n' || c == '\r'

/-- A word whose first letter has been read; `rest` is what must follow. -/
def readWord (token : JsonToken) : (word rest : List Char) → JsonToken × List Char
  | [], rest => (token, rest)
  | _, [] => (broken .endsEarly, [])
  | letter :: word, c :: rest =>
    if c = letter then readWord token word rest else (broken .malformed, [])

/-- The token at the front of a text that is not blank, and the rest of the text, which is empty
if the token is not well formed. -/
def readToken (c : Char) (rest : List Char) : JsonToken × List Char :=
  match c with
  | '[' => (openArray, rest)
  | ']' => (closeArray, rest)
  | '\x7b' => (openObject, rest)
  | '\x7d' => (closeObject, rest)
  | ':' => (colon, rest)
  | ',' => (comma, rest)
  | 'n' => readWord null "ull".toList rest
  | 't' => readWord (bool true) "rue".toList rest
  | 'f' => readWord (bool false) "alse".toList rest
  | '"' =>
    match readString rest with
    | .ok (cs, rest) => (string (String.ofList cs), rest)
    | .error fault => (brokenString fault, [])
  | c =>
    if c.isDigit || c == '-' then
      match JsonNumber.read (c :: rest) with
      | .ok (natural?, rest) => (number natural?, rest)
      | .error fault => (broken fault, [])
    else (broken .malformed, [])

theorem length_readString_lt {text cs rest : List Char}
    (done : readString text = .ok (cs, rest)) : rest.length < text.length := by
  fun_induction readString text generalizing cs rest
  case case1 => cases done
  case case2 => cases done; simp
  case case3 equation ih =>
    have shorter := length_readEscape_lt equation
    obtain ⟨_, later⟩ := JsonFault.eq_ok_of_map_eq_ok done
    have shorterStill := ih later
    simp only [List.length_cons] at *
    omega
  case case4 => cases done
  case case5 => cases done
  case case6 ih =>
    obtain ⟨_, later⟩ := JsonFault.eq_ok_of_map_eq_ok done
    have shorter := ih later
    simp only [List.length_cons]
    omega

theorem length_readWord_le (token : JsonToken) (word rest : List Char) :
    (readWord token word rest).2.length ≤ rest.length := by
  fun_induction readWord token word rest <;> simp_all
  omega

theorem length_readToken_le (c : Char) (rest : List Char) :
    (readToken c rest).2.length ≤ rest.length := by
  unfold readToken
  split
  case h_7 | h_8 | h_9 => exact length_readWord_le _ _ _
  case h_10 =>
    split
    case h_1 equation => exact Nat.le_of_lt (length_readString_lt equation)
    case h_2 => exact Nat.zero_le _
  case h_11 =>
    split
    case isTrue =>
      split
      case h_1 equation => exact Nat.le_of_lt_succ (JsonNumber.length_read_lt equation)
      case h_2 => exact Nat.zero_le _
    case isFalse => exact Nat.zero_le _
  all_goals exact Nat.le_refl _

/-- The tokens of a text. -/
def tokens (text : List Char) : List JsonToken :=
  match text with
  | [] => []
  | c :: rest =>
    if isBlank c then tokens rest
    else (readToken c rest).1 :: tokens (readToken c rest).2
termination_by text.length
decreasing_by
  · simp
  · exact Nat.lt_succ_of_le (length_readToken_le c rest)

end JsonToken

end ProtoFront
