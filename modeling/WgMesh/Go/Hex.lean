/-
This file models `encoding/hex`.

`DecodeString` decodes pairs of digits of either case and stops at the first
pair that is not one; what it has decoded until then is returned next to the
error. A caller that drops the error therefore works on a prefix, whose length
nothing but the content of the string bounds. An even number of lower-case digits
is decoded to half as many bytes, and encoding these gives the digits back.
-/

import WgMesh.Go.Text

namespace Go

/-- The value of a hex digit of either case. -/
def hexValue (digit : UInt8) : Option UInt8 :=
  if 48 ≤ digit ∧ digit ≤ 57 then some (digit - 48)
  else if 97 ≤ digit ∧ digit ≤ 102 then some (digit - 87)
  else if 65 ≤ digit ∧ digit ≤ 70 then some (digit - 55)
  else none

/-- `hex.DecodeString` with its error dropped: the bytes decoded before the first invalid
pair of digits. -/
def hexDecode : Text → List UInt8
  | high :: low :: rest =>
    match hexValue high, hexValue low with
    | some upper, some lower => (upper <<< 4 ||| lower) :: hexDecode rest
    | _, _ => []
  | _ => []

/-- The lower-case digit of a half byte. -/
def hexDigit (half : UInt8) : UInt8 :=
  if half < 10 then half + 48 else half + 87

/-- The two digits of a byte. -/
def hexPair (byte : UInt8) : Text :=
  [hexDigit (byte >>> 4), hexDigit (byte &&& 15)]

/-- `hex.EncodeToString`. -/
def hexEncode (bytes : List UInt8) : Text :=
  bytes.flatMap hexPair

/-- A digit that `hexEncode` writes. -/
def IsLowerHex (digit : UInt8) : Prop :=
  (48 ≤ digit ∧ digit ≤ 57) ∨ (97 ≤ digit ∧ digit ≤ 102)

instance : DecidablePred IsLowerHex := fun _ => inferInstanceAs (Decidable (_ ∨ _))

/-! ### Lengths -/

theorem hexEncode_length (bytes : List UInt8) : (hexEncode bytes).length = 2 * bytes.length := by
  induction bytes with
  | nil => rfl
  | cons byte rest inductionHypothesis =>
    rw [hexEncode, List.flatMap_cons, List.length_append, ← hexEncode, inductionHypothesis,
      List.length_cons]
    simp only [hexPair, List.length_cons, List.length_nil]
    omega

/-- Decoding reads two digits for each byte it returns. -/
theorem hexDecode_length_le (s : Text) : 2 * (hexDecode s).length ≤ s.length := by
  induction s using hexDecode.induct with
  | case1 high low rest upper lower highValue lowValue inductionHypothesis =>
    simp only [hexDecode, highValue, lowValue, List.length_cons]
    omega
  | case2 high low rest invalid =>
    rw [hexDecode]
    split
    · rename_i upper lower highValue lowValue
      exact absurd lowValue (invalid upper lower highValue)
    · exact Nat.zero_le _
  | case3 s short =>
    rw [hexDecode, List.length_nil]
    · exact Nat.zero_le _
    · exact short

theorem hexValue_of_isLowerHex {digit : UInt8} (lower : IsLowerHex digit) :
    (hexValue digit).isSome := by
  unfold hexValue
  rcases lower with decimal | letter
  · rw [if_pos decimal]
    rfl
  · by_cases decimal : 48 ≤ digit ∧ digit ≤ 57
    · rw [if_pos decimal]
      rfl
    · rw [if_neg decimal, if_pos letter]
      rfl

theorem hexValues_of_lower {high low : UInt8} {rest : Text}
    (lower : ∀ digit ∈ high :: low :: rest, IsLowerHex digit) :
    ∃ upper lowerValue, hexValue high = some upper ∧ hexValue low = some lowerValue := by
  have highSome := hexValue_of_isLowerHex (lower high List.mem_cons_self)
  have lowSome := hexValue_of_isLowerHex (lower low (List.mem_cons_of_mem _ List.mem_cons_self))
  obtain ⟨upper, highValue⟩ := Option.isSome_iff_exists.mp highSome
  obtain ⟨lowerValue, lowValue⟩ := Option.isSome_iff_exists.mp lowSome
  exact ⟨upper, lowerValue, highValue, lowValue⟩

/-- A string of lower-case digits is decoded to its end. -/
theorem hexDecode_length_of_lower (s : Text) (lower : ∀ digit ∈ s, IsLowerHex digit) :
    (hexDecode s).length = s.length / 2 := by
  induction s using hexDecode.induct with
  | case1 high low rest upper lowerValue highValue lowValue inductionHypothesis =>
    simp only [hexDecode, highValue, lowValue, List.length_cons]
    rw [inductionHypothesis fun digit member =>
      lower digit (List.mem_cons_of_mem _ (List.mem_cons_of_mem _ member))]
    omega
  | case2 high low rest invalid =>
    obtain ⟨upper, lowerValue, highValue, lowValue⟩ := hexValues_of_lower lower
    exact absurd lowValue (invalid upper lowerValue highValue)
  | case3 s short =>
    match s, short with
    | [], _ => rfl
    | [_], _ => simp [hexDecode]
    | high :: low :: rest, short => exact absurd rfl (short high low rest)

/-! ### Encoded text -/

theorem isLowerHex_hexDigit_high (byte : UInt8) : IsLowerHex (hexDigit (byte >>> 4)) := by
  revert byte
  decide +kernel

theorem isLowerHex_hexDigit_low (byte : UInt8) : IsLowerHex (hexDigit (byte &&& 15)) := by
  revert byte
  decide +kernel

/-- Encoding writes lower-case digits only. -/
theorem isLowerHex_of_mem_hexEncode (bytes : List UInt8) (digit : UInt8)
    (member : digit ∈ hexEncode bytes) : IsLowerHex digit := by
  obtain ⟨byte, _, inPair⟩ := List.mem_flatMap.mp member
  simp only [hexPair, List.mem_cons, List.mem_nil_iff, or_false] at inPair
  rcases inPair with rfl | rfl
  · exact isLowerHex_hexDigit_high byte
  · exact isLowerHex_hexDigit_low byte

/-- The lower-case digit of a half byte is read as this half byte. -/
theorem hexDigit_of_hexValue {digit value : UInt8} (lower : IsLowerHex digit)
    (read : hexValue digit = some value) : value < 16 ∧ hexDigit value = digit := by
  revert digit value
  have each : ∀ digit : UInt8, IsLowerHex digit →
      (hexValue digit).all (fun value => value < 16 && hexDigit value == digit) = true := by
    decide +kernel
  intro digit value lower read
  have found := each digit lower
  rw [read] at found
  simpa using found

theorem halves_of_byte {upper lower : UInt8} (upperHalf : upper < 16) (lowerHalf : lower < 16) :
    (upper <<< 4 ||| lower) >>> 4 = upper ∧ (upper <<< 4 ||| lower) &&& 15 = lower := by
  revert upper lower
  have each : ∀ upper : UInt8, upper < 16 → ∀ lower : UInt8, lower < 16 →
      (upper <<< 4 ||| lower) >>> 4 = upper ∧ (upper <<< 4 ||| lower) &&& 15 = lower := by
    decide +kernel
  exact fun {_ _} upperHalf lowerHalf => each _ upperHalf _ lowerHalf

/-- Encoding undoes the decoding of an even number of lower-case digits. -/
theorem hexEncode_hexDecode (s : Text) (lower : ∀ digit ∈ s, IsLowerHex digit)
    (even : s.length % 2 = 0) : hexEncode (hexDecode s) = s := by
  induction s using hexDecode.induct with
  | case1 high low rest upper lowerValue lowValue highValue inductionHypothesis =>
    obtain ⟨highLower, lowLower, restLower⟩ : IsLowerHex high ∧ IsLowerHex low ∧
        ∀ digit ∈ rest, IsLowerHex digit := by
      simpa using lower
    obtain ⟨upperHalf, highDigit⟩ := hexDigit_of_hexValue highLower highValue
    obtain ⟨lowerHalf, lowDigit⟩ := hexDigit_of_hexValue lowLower lowValue
    obtain ⟨upperBits, lowerBits⟩ := halves_of_byte upperHalf lowerHalf
    have restEven : rest.length % 2 = 0 := by
      simp only [List.length_cons] at even
      omega
    simp only [hexDecode, highValue, lowValue]
    rw [hexEncode, List.flatMap_cons, ← hexEncode, inductionHypothesis restLower restEven, hexPair,
      upperBits, lowerBits, highDigit, lowDigit]
    rfl
  | case2 high low rest invalid =>
    obtain ⟨upper, lowerValue, highValue, lowValue⟩ := hexValues_of_lower lower
    exact absurd lowValue (invalid upper lowerValue highValue)
  | case3 s short =>
    match s, short with
    | [], _ => rfl
    | [_], _ => cases even
    | high :: low :: rest, short => exact absurd rfl (short high low rest)

theorem hexDecode_hexPair (byte : UInt8) (rest : Text) :
    hexDecode (hexPair byte ++ rest) = byte :: hexDecode rest := by
  have each : ∀ byte : UInt8, hexValue (hexDigit (byte >>> 4)) = some (byte >>> 4) ∧
      hexValue (hexDigit (byte &&& 15)) = some (byte &&& 15) ∧
      (byte >>> 4) <<< 4 ||| byte &&& 15 = byte := by
    decide +kernel
  obtain ⟨high, low, whole⟩ := each byte
  rw [hexPair, List.cons_append, List.cons_append, List.nil_append, hexDecode, high, low]
  exact congrArg (· :: hexDecode rest) whole

/-- Decoding undoes encoding. -/
theorem hexDecode_hexEncode (bytes : List UInt8) : hexDecode (hexEncode bytes) = bytes := by
  induction bytes with
  | nil => rfl
  | cons byte rest inductionHypothesis =>
    rw [hexEncode, List.flatMap_cons, hexDecode_hexPair, ← hexEncode, inductionHypothesis]

end Go
