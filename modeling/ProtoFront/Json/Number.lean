import ProtoFront.Json.Fault

/-!
# The numbers of JSON

`JsonNumber.read` reads a number from the front of a text. A number that has neither a sign, a
fraction nor an exponent is a natural number. All others are read as numbers of double precision,
and the only thing that matters here is that they must not be too large for it
(`JsonNumber.isOutOfRange`).
-/

namespace ProtoFront

namespace JsonNumber

/-! ## Range -/

/-- The nearest number with at most 53 binary digits before its trailing zeros. Of two that are
equally near, the one whose last digit is zero is taken. -/
def nearest (n : Nat) : Nat :=
  let unit := Nat.pow 2 (n.log2 + 1 - 53)
  let quotient := n / unit
  let twice := 2 * (n % unit)
  if unit < twice ∨ (twice = unit ∧ quotient % 2 = 1) then (quotient + 1) * unit
  else quotient * unit

/-- The least number that no longer rounds to a finite number of double precision. -/
def firstInfinite : Nat := Nat.pow 2 1024 - Nat.pow 2 970

/-- Whether a significand times a power of ten is too large. The two factors are rounded before
they are multiplied. -/
def isOutOfRange (significand : Nat) (exponent : Int) : Bool :=
  match exponent with
  | .ofNat power =>
    significand != 0
      && (308 < power
        || decide (firstInfinite ≤ nearest significand * nearest (Nat.pow 10 power)))
  | .negSucc _ => false

/-! ## Digits -/

/-- The value of a decimal digit. -/
def digit (c : Char) : Nat := c.toNat - '0'.toNat

/-- Takes in decimal digits as long as the significand stays below 2⁶⁴. The digits that are left
are returned. -/
def significandOf (significand : Nat) : List Char → Nat × List Char
  | [] => (significand, [])
  | c :: rest =>
    let next := significand * 10 + digit c
    if next < UInt64.size then significandOf next rest else (significand, c :: rest)

/-- The value of decimal digits. -/
def valueOf (digits : List Char) : Nat :=
  digits.foldl (fun value c => value * 10 + digit c) 0

/-- Digits at the front of a text, of which there must be one, and the rest of the text. -/
def readDigits (text : List Char) : Except JsonFault (List Char × List Char) :=
  match text with
  | [] => .error .endsEarly
  | c :: _ =>
    if c.isDigit then .ok (text.takeWhile Char.isDigit, text.dropWhile Char.isDigit)
    else .error .malformed

theorem length_readDigits_lt {text digits rest : List Char}
    (done : readDigits text = .ok (digits, rest)) : rest.length < text.length := by
  unfold readDigits at done
  split at done
  case h_1 => cases done
  case h_2 c more =>
    split at done
    case isTrue isDigit =>
      cases done
      have shorter := (List.dropWhile_suffix (l := more) Char.isDigit).length_le
      simp only [List.dropWhile_cons, isDigit, if_true, List.length_cons]
      omega
    case isFalse => cases done

/-! ## Parts -/

/-- A sign at the front of a text, if there is one of the given signs. -/
def readSign (signs : List Char) (text : List Char) : Option Char × List Char :=
  match text with
  | [] => (none, [])
  | c :: rest => if signs.contains c then (some c, rest) else (none, text)

/-- The digits before the point. A zero in front stands alone. -/
def readWhole (text : List Char) : Except JsonFault (List Char × List Char) :=
  match readDigits text with
  | .ok (digits, rest) =>
    if digits.head? == some '0' && digits.length != 1 then .error .malformed
    else .ok (digits, rest)
  | .error fault => .error fault

/-- The digits behind a point, if there is one, and the rest of the text. -/
def readFraction (text : List Char) : Except JsonFault (Option (List Char) × List Char) :=
  match readSign ['.'] text with
  | (none, rest) => .ok (none, rest)
  | (some _, rest) => (readDigits rest).map (Prod.map some id)

/-- The exponent that a sign and digits write. -/
def exponentOf (sign? : Option Char) (digits : List Char) : Int :=
  if sign? = some '-' then -(valueOf digits : Int) else valueOf digits

/-- An exponent, if there is one, and the rest of the text. -/
def readExponent (text : List Char) : Except JsonFault (Option Int × List Char) :=
  match readSign ['e', 'E'] text with
  | (none, rest) => .ok (none, rest)
  | (some _, rest) =>
    let signed := readSign ['+', '-'] rest
    (readDigits signed.2).map (Prod.map (fun digits => some (exponentOf signed.1 digits)) id)

theorem length_readSign_le (signs text : List Char) :
    (readSign signs text).2.length ≤ text.length := by
  unfold readSign
  split
  · simp
  · split <;> simp

theorem length_readWhole_lt {text digits rest : List Char}
    (done : readWhole text = .ok (digits, rest)) : rest.length < text.length := by
  unfold readWhole at done
  split at done
  case h_1 equation =>
    have shorter := length_readDigits_lt equation
    split at done
    case isTrue => cases done
    case isFalse => cases done; exact shorter
  case h_2 => cases done

theorem length_readFraction_le {text rest : List Char} {fraction? : Option (List Char)}
    (done : readFraction text = .ok (fraction?, rest)) : rest.length ≤ text.length := by
  have shorter := length_readSign_le ['.'] text
  unfold readFraction at done
  split at done
  case h_1 equation => cases done; simpa [equation] using shorter
  case h_2 equation =>
    rw [equation] at shorter
    obtain ⟨_, digits⟩ := JsonFault.eq_ok_of_map_eq_ok done
    exact Nat.le_trans (Nat.le_of_lt (length_readDigits_lt digits)) shorter

theorem length_readExponent_le {text rest : List Char} {exponent? : Option Int}
    (done : readExponent text = .ok (exponent?, rest)) : rest.length ≤ text.length := by
  have shorter := length_readSign_le ['e', 'E'] text
  unfold readExponent at done
  split at done
  case h_1 equation => cases done; simpa [equation] using shorter
  case h_2 unsigned equation =>
    rw [equation] at shorter
    obtain ⟨_, digits⟩ := JsonFault.eq_ok_of_map_eq_ok done
    exact Nat.le_trans (Nat.le_of_lt (length_readDigits_lt digits))
      (Nat.le_trans (length_readSign_le _ unsigned) shorter)

/-! ## Numbers -/

/-- A number as it is written, in its parts. -/
structure Parts where
  negative : Bool
  whole : List Char
  fraction? : Option (List Char)
  exponent? : Option Int
  deriving DecidableEq, Repr, Inhabited

/-- The parts of a number at the front of a text, and the rest of the text. -/
def readParts (text : List Char) : Except JsonFault (Parts × List Char) :=
  let signed := readSign ['-'] text
  match readWhole signed.2 with
  | .error fault => .error fault
  | .ok (whole, rest) =>
    match readFraction rest with
    | .error fault => .error fault
    | .ok (fraction?, rest) =>
      (readExponent rest).map (Prod.map (Parts.mk signed.1.isSome whole fraction?) id)

/-- Whether a number is too large. The digits that go beyond the significand count for powers of
ten if they stand before the point, and for nothing if they stand behind it. -/
def Parts.isTooLarge (parts : Parts) : Bool :=
  let fraction := parts.fraction?.getD []
  let (upToPoint, uncounted) := significandOf 0 parts.whole
  let (significand, unread) := significandOf upToPoint fraction
  isOutOfRange significand
    (uncounted.length - (fraction.length - unread.length : Nat) + parts.exponent?.getD 0)

/-- The value of a number that is a natural number. -/
def Parts.natural? (parts : Parts) : Option Nat :=
  if parts.negative || parts.fraction?.isSome || parts.exponent?.isSome then none
  else some (valueOf parts.whole)

/-- Reads a number from the front of a text: its value if it is a natural number, and the rest of
the text. -/
def read (text : List Char) : Except JsonFault (Option Nat × List Char) :=
  match readParts text with
  | .error fault => .error fault
  | .ok (parts, rest) =>
    if parts.isTooLarge then .error .malformed else .ok (parts.natural?, rest)

theorem length_readParts_lt {text rest : List Char} {parts : Parts}
    (done : readParts text = .ok (parts, rest)) : rest.length < text.length := by
  have unsigned := length_readSign_le ['-'] text
  unfold readParts at done
  dsimp only at done
  split at done
  case h_1 => cases done
  case h_2 whole =>
    have shorter := length_readWhole_lt whole
    split at done
    case h_1 => cases done
    case h_2 fraction =>
      have noLonger := length_readFraction_le fraction
      obtain ⟨_, exponent⟩ := JsonFault.eq_ok_of_map_eq_ok done
      have last := length_readExponent_le exponent
      omega

theorem length_read_lt {text rest : List Char} {natural? : Option Nat}
    (done : read text = .ok (natural?, rest)) : rest.length < text.length := by
  unfold read at done
  split at done
  case h_1 => cases done
  case h_2 equation =>
    have shorter := length_readParts_lt equation
    split at done
    case isTrue => cases done
    case isFalse => cases done; exact shorter

end JsonNumber

end ProtoFront
