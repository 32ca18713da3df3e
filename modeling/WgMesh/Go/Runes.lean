/-
This file models a `range` over a string, which visits runes, and the conversion
of a rune to a string. Lean's characters are the runes that have an encoding. A
byte that does not begin a valid encoding is visited as the replacement character.
Bytes below 128 stand only for themselves.
-/

import WgMesh.Go.Text

namespace Go

/-- The bytes of a rune, `string(r)`. -/
def encodeRune (rune : Char) : Text := String.utf8EncodeChar rune

/-- The bytes of runes one after another. -/
def encodeRunes (runes : List Char) : Text := runes.flatMap encodeRune

/-- The runes that a `range` over a string visits. A byte that does not begin a valid encoding
counts as the replacement character. -/
def runes (s : Text) : List Char :=
  match s with
  | [] => []
  | byte :: rest =>
    match (byte :: rest).toByteArray.utf8DecodeChar? 0 with
    | some rune => rune :: runes ((byte :: rest).drop rune.utf8Size)
    | none => Char.ofNat 0xFFFD :: runes rest
termination_by s.length
decreasing_by
  · rw [List.length_drop]
    exact Nat.sub_lt (Nat.succ_pos _) rune.utf8Size_pos
  · exact Nat.lt_succ_self _

/-- A string is valid UTF-8 when it encodes runes. -/
def ValidUTF8 (s : Text) : Prop := ∃ runes, s = encodeRunes runes

/-! ### Decoding what was encoded -/

theorem runes_encode_cons (rune : Char) (rest : Text) :
    runes (encodeRune rune ++ rest) = rune :: runes rest := by
  have nonempty : encodeRune rune ++ rest ≠ [] := by
    have length : (encodeRune rune).length = rune.utf8Size := String.length_utf8EncodeChar rune
    have positive := rune.utf8Size_pos
    intro empty
    rw [(List.append_eq_nil_iff.mp empty).1] at length
    exact absurd length.symm (Nat.ne_of_gt positive)
  have decoded : (encodeRune rune ++ rest).toByteArray.utf8DecodeChar? 0 = some rune := by
    rw [List.toByteArray_append]
    exact ByteArray.utf8DecodeChar?_utf8EncodeChar_append
  obtain ⟨byte, others, whole⟩ := List.exists_cons_of_ne_nil nonempty
  rw [whole] at decoded ⊢
  rw [runes, decoded]
  show rune :: runes ((byte :: others).drop rune.utf8Size) = _
  rw [← whole, ← String.length_utf8EncodeChar]
  exact congrArg (rune :: runes ·) List.drop_left

/-- A `range` over valid UTF-8 visits the runes it encodes. -/
theorem runes_encodeRunes (decoded : List Char) : runes (encodeRunes decoded) = decoded := by
  induction decoded with
  | nil => rw [encodeRunes, List.flatMap_nil, runes]
  | cons rune rest inductionHypothesis =>
    rw [encodeRunes, List.flatMap_cons, runes_encode_cons]
    exact congrArg (rune :: ·) inductionHypothesis

example : runes [0xff, 97, 0xc3, 0xa9] = [Char.ofNat 0xFFFD, 'a', 'é'] := by decide +kernel

/-! ### ASCII bytes -/

theorem not_ascii_ofNat {number : Nat} (low : 128 ≤ number) (high : number < 256) :
    ¬ UInt8.ofNat number < 128 := by
  rw [UInt8.lt_iff_toNat_lt, UInt8.toNat_ofNat', Nat.mod_eq_of_lt high]
  exact Nat.not_lt.mpr low

/-- An ASCII byte occurs only in the encoding of its own rune. -/
theorem toNat_of_mem_encodeRune {rune : Char} {byte : UInt8} (ascii : byte < 128)
    (member : byte ∈ encodeRune rune) : rune.toNat = byte.toNat := by
  unfold encodeRune String.utf8EncodeChar at member
  simp only at member
  split at member
  · rename_i single
    rw [List.mem_singleton.mp member, UInt8.toNat_ofNat']
    exact (Nat.mod_eq_of_lt (Nat.lt_of_le_of_lt single (by decide))).symm
  · -- Every byte of a longer encoding has its high bit set.
    exfalso
    split at member
    · simp only [List.mem_cons, List.not_mem_nil, or_false] at member
      rcases member with rfl | rfl
      all_goals exact not_ascii_ofNat (by omega) (by omega) ascii
    · split at member
      · simp only [List.mem_cons, List.not_mem_nil, or_false] at member
        rcases member with rfl | rfl | rfl
        all_goals exact not_ascii_ofNat (by omega) (by omega) ascii
      · simp only [List.mem_cons, List.not_mem_nil, or_false] at member
        rcases member with rfl | rfl | rfl | rfl
        all_goals exact not_ascii_ofNat (by omega) (by omega) ascii

theorem validUTF8_nil : ValidUTF8 [] := ⟨[], rfl⟩

theorem validUTF8_encodeRune (rune : Char) : ValidUTF8 (encodeRune rune) :=
  ⟨[rune], by rw [encodeRunes, List.flatMap_singleton]⟩

theorem ValidUTF8.append {first second : Text} (firstValid : ValidUTF8 first)
    (secondValid : ValidUTF8 second) : ValidUTF8 (first ++ second) := by
  obtain ⟨firstRunes, rfl⟩ := firstValid
  obtain ⟨secondRunes, rfl⟩ := secondValid
  refine ⟨firstRunes ++ secondRunes, ?_⟩
  rw [encodeRunes, encodeRunes, encodeRunes, List.flatMap_append]

end Go
