/-
This file models `base64.StdEncoding.DecodeString`: the standard alphabet with
padding. Carriage returns and line feeds are skipped anywhere, a padded group is
the last one, and the bits that padding leaves over are not looked at. So a byte
string has many texts that decode to it, of which one is its encoding.
-/

import WgMesh.Go.Text

namespace Go

/-- The six bits a character of the alphabet stands for. -/
def base64Value (char : UInt8) : Option UInt8 :=
  if 65 ≤ char ∧ char ≤ 90 then some (char - 65)
  else if 97 ≤ char ∧ char ≤ 122 then some (char - 71)
  else if 48 ≤ char ∧ char ≤ 57 then some (char + 4)
  else if char = 43 then some 62
  else if char = 47 then some 63
  else none

/-- Groups of four characters, of which the last may be padded. -/
def base64Groups : Text → Option (List UInt8)
  | [] => some []
  | first :: second :: third :: fourth :: rest => do
    let a ← base64Value first
    let b ← base64Value second
    if fourth = 61 then
      if rest ≠ [] then none
      else if third = 61 then return [a <<< 2 ||| b >>> 4]
      else
        let c ← base64Value third
        return [a <<< 2 ||| b >>> 4, b <<< 4 ||| c >>> 2]
    else
      let c ← base64Value third
      let d ← base64Value fourth
      let more ← base64Groups rest
      return (a <<< 2 ||| b >>> 4) :: (b <<< 4 ||| c >>> 2) :: (c <<< 6 ||| d) :: more
  | _ => none

/-- `base64.StdEncoding.DecodeString`. -/
def base64Decode (s : Text) : Option (List UInt8) :=
  base64Groups (s.filter fun char => char ≠ 10 ∧ char ≠ 13)

example : base64Decode (text "bWVz\naA==") = some (text "mesh") := by decide

/-! ### Encoding -/

/-- The character that stands for the lower six bits. -/
def base64Char (bits : UInt8) : UInt8 :=
  let value := bits &&& 63
  if value < 26 then value + 65
  else if value < 52 then value + 71
  else if value < 62 then value - 4
  else if value = 62 then 43
  else 47

/-- `base64.StdEncoding.EncodeToString`. -/
def base64Encode : List UInt8 → Text
  | [] => []
  | [x] => [base64Char (x >>> 2), base64Char (x <<< 4), 61, 61]
  | [x, y] =>
    [base64Char (x >>> 2), base64Char (x <<< 4 ||| y >>> 4), base64Char (y <<< 2), 61]
  | x :: y :: z :: rest =>
    base64Char (x >>> 2) :: base64Char (x <<< 4 ||| y >>> 4) ::
      base64Char (y <<< 2 ||| z >>> 6) :: base64Char z :: base64Encode rest

theorem base64Value_base64Char (bits : UInt8) :
    base64Value (base64Char bits) = some (bits &&& 63) := by
  revert bits
  decide +kernel

/-- The characters of the alphabet are neither padding nor line breaks. -/
theorem base64Char_plain (bits : UInt8) :
    base64Char bits ≠ 61 ∧ base64Char bits ≠ 10 ∧ base64Char bits ≠ 13 := by
  revert bits
  decide +kernel

theorem base64_first (x y : UInt8) :
    (x >>> 2 &&& 63) <<< 2 ||| ((x <<< 4 ||| y >>> 4) &&& 63) >>> 4 = x := by
  refine UInt8.eq_of_toBitVec_eq (BitVec.eq_of_getElem_eq fun position inRange => ?_)
  interval_cases position <;> simp

theorem base64_second (x y z : UInt8) :
    ((x <<< 4 ||| y >>> 4) &&& 63) <<< 4 ||| ((y <<< 2 ||| z >>> 6) &&& 63) >>> 2 = y := by
  refine UInt8.eq_of_toBitVec_eq (BitVec.eq_of_getElem_eq fun position inRange => ?_)
  interval_cases position <;> simp

theorem base64_third (y z : UInt8) : ((y <<< 2 ||| z >>> 6) &&& 63) <<< 6 ||| (z &&& 63) = z := by
  refine UInt8.eq_of_toBitVec_eq (BitVec.eq_of_getElem_eq fun position inRange => ?_)
  interval_cases position <;> simp

theorem base64Groups_base64Encode (bytes : List UInt8) :
    base64Groups (base64Encode bytes) = some bytes := by
  induction bytes using base64Encode.induct with
  | case1 => rfl
  | case2 x =>
    have first := base64_first x 0
    simp only [UInt8.zero_shiftRight, UInt8.or_zero] at first
    simp [base64Encode, base64Groups, base64Value_base64Char, first]
  | case3 x y =>
    have second := base64_second x y 0
    simp only [UInt8.zero_shiftRight, UInt8.or_zero] at second
    simp [base64Encode, base64Groups, base64Value_base64Char, base64Char_plain, base64_first,
      second]
  | case4 x y z rest inductionHypothesis =>
    simp [base64Encode, base64Groups, base64Value_base64Char, base64Char_plain, base64_first,
      base64_second, base64_third, inductionHypothesis]

theorem base64Encode_plain (bytes : List UInt8) :
    ∀ char ∈ base64Encode bytes, char ≠ 10 ∧ char ≠ 13 := by
  induction bytes using base64Encode.induct with
  | case1 => exact List.forall_mem_nil _
  | case2 x => simp [base64Encode, base64Char_plain]
  | case3 x y => simp [base64Encode, base64Char_plain]
  | case4 x y z rest inductionHypothesis =>
    simpa [base64Encode, base64Char_plain] using inductionHypothesis

/-- What is encoded can be printed in a column of its own. -/
theorem base64Encode_visible (bytes : List UInt8) :
    ∀ char ∈ base64Encode bytes, 32 < char ∧ char < 127 := by
  have visible : ∀ bits : UInt8, 32 < base64Char bits ∧ base64Char bits < 127 := by
    decide +kernel
  induction bytes using base64Encode.induct with
  | case1 => exact List.forall_mem_nil _
  | case2 x => simp [base64Encode, visible]
  | case3 x y => simp [base64Encode, visible]
  | case4 x y z rest inductionHypothesis =>
    simpa [base64Encode, visible] using inductionHypothesis

theorem length_base64Encode (bytes : List UInt8) :
    (base64Encode bytes).length = 4 * ((bytes.length + 2) / 3) := by
  induction bytes using base64Encode.induct with
  | case1 => rfl
  | case2 x => simp [base64Encode]
  | case3 x y => simp [base64Encode]
  | case4 x y z rest inductionHypothesis =>
    simp only [base64Encode, List.length_cons, inductionHypothesis]
    omega

/-- Decoding undoes encoding. -/
theorem base64Decode_base64Encode (bytes : List UInt8) :
    base64Decode (base64Encode bytes) = some bytes := by
  have kept : (base64Encode bytes).filter (fun char => char ≠ 10 ∧ char ≠ 13) =
      base64Encode bytes :=
    List.filter_eq_self.mpr fun char member =>
      decide_eq_true (base64Encode_plain bytes char member)
  rw [base64Decode, kept, base64Groups_base64Encode]

end Go
