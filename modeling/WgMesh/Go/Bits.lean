/-
This file reads byte strings as bit strings, most significant bit first, and
measures the prefix two of them share. The bits of an exclusive or are the
position-wise exclusive or of the bits, so the shared prefix of two strings of
one length is the run of zero bits their exclusive or starts with.

Read as numbers, byte strings of one length are ordered like the numbers, and the
byte-wise exclusive or is that of the numbers.
-/

import Mathlib

namespace Go

/-- The length of the longest common prefix of two lists. -/
def sharedPrefix {Symbol : Type} [DecidableEq Symbol] : List Symbol → List Symbol → Nat
  | first :: firsts, second :: seconds =>
    if first = second then sharedPrefix firsts seconds + 1 else 0
  | _, _ => 0

/-- The bits of a byte, most significant first. -/
def byteBits (byte : UInt8) : List Bool :=
  (List.range 8).map fun position => byte.toNat.testBit (7 - position)

/-- The bits of a byte string. -/
def bits (bytes : List UInt8) : List Bool := bytes.flatMap byteBits

theorem byteBits_length (byte : UInt8) : (byteBits byte).length = 8 := by
  simp [byteBits]

theorem bits_cons (byte : UInt8) (rest : List UInt8) :
    bits (byte :: rest) = byteBits byte ++ bits rest := rfl

theorem byteBits_xor (first second : UInt8) :
    byteBits (first ^^^ second) = List.zipWith xor (byteBits first) (byteBits second) := by
  unfold byteBits
  rw [List.zipWith_map, List.zipWith_self]
  refine List.map_congr_left fun position _ => ?_
  rw [UInt8.toNat_xor, Nat.testBit_xor]

/-! ### Shared prefixes -/

section SharedPrefix

variable {Symbol : Type} [DecidableEq Symbol]

theorem sharedPrefix_self (symbols : List Symbol) :
    sharedPrefix symbols symbols = symbols.length := by
  induction symbols with
  | nil => rfl
  | cons symbol rest inductionHypothesis =>
    rw [sharedPrefix, if_pos rfl, inductionHypothesis, List.length_cons]

/-- Lists that begin alike share that beginning and what follows it. -/
theorem sharedPrefix_append_left (common first second : List Symbol) :
    sharedPrefix (common ++ first) (common ++ second) =
      common.length + sharedPrefix first second := by
  induction common with
  | nil => simp
  | cons symbol rest inductionHypothesis =>
    rw [List.cons_append, List.cons_append, sharedPrefix, if_pos rfl, inductionHypothesis,
      List.length_cons]
    omega

/-- Beginnings of one length that differ decide the shared prefix. -/
theorem sharedPrefix_append_of_ne {first second : List Symbol} (rest others : List Symbol)
    (sameLength : first.length = second.length) (different : first ≠ second) :
    sharedPrefix (first ++ rest) (second ++ others) = sharedPrefix first second := by
  induction first generalizing second with
  | nil => exact absurd (List.length_eq_zero_iff.mp sameLength.symm).symm different
  | cons symbol symbols inductionHypothesis =>
    cases second with
    | nil => cases sameLength
    | cons other tail =>
      rw [List.cons_append, List.cons_append, sharedPrefix, sharedPrefix]
      by_cases same : symbol = other
      · rw [if_pos same, if_pos same]
        rw [inductionHypothesis (Nat.succ.inj sameLength)]
        rintro rfl
        exact different (by rw [same])
      · rw [if_neg same, if_neg same]

end SharedPrefix

/-- The prefix two bit strings share is the run of zeros their exclusive or starts with. -/
theorem sharedPrefix_eq_xor (first second : List Bool) (sameLength : first.length = second.length) :
    sharedPrefix first second =
      sharedPrefix (List.zipWith xor first second) (List.replicate first.length false) := by
  induction first generalizing second with
  | nil => rfl
  | cons bit rest inductionHypothesis =>
    cases second with
    | nil => cases sameLength
    | cons other others =>
      rw [List.zipWith_cons_cons, List.length_cons, List.replicate_succ, sharedPrefix,
        sharedPrefix, inductionHypothesis others (Nat.succ.inj sameLength)]
      cases bit <;> cases other <;> rfl

/-! ### Byte strings as numbers -/

/-- The number that a byte string writes, most significant byte first. -/
def bigEndian : List UInt8 → Nat
  | [] => 0
  | byte :: rest => byte.toNat * 2 ^ (8 * rest.length) + bigEndian rest

theorem bigEndian_lt (bytes : List UInt8) : bigEndian bytes < 2 ^ (8 * bytes.length) := by
  induction bytes with
  | nil => decide
  | cons byte rest inductionHypothesis =>
    have small := byte.toNat_lt
    calc bigEndian (byte :: rest)
        < byte.toNat * 2 ^ (8 * rest.length) + 2 ^ (8 * rest.length) :=
          Nat.add_lt_add_left inductionHypothesis _
      _ = (byte.toNat + 1) * 2 ^ (8 * rest.length) := (Nat.succ_mul _ _).symm
      _ ≤ 2 ^ 8 * 2 ^ (8 * rest.length) := Nat.mul_le_mul_right _ small
      _ = 2 ^ (8 * (byte :: rest).length) := by
          rw [← pow_add, List.length_cons, Nat.mul_succ, Nat.add_comm]

/-- A number in base `2 ^ width` is below another if its high digit is, or its low one when the
high digits are equal. -/
theorem add_lt_add_iff_of_lt {bound high low otherHigh otherLow : Nat} (small : low < bound)
    (otherSmall : otherLow < bound) :
    high * bound + low < otherHigh * bound + otherLow ↔
      high < otherHigh ∨ high = otherHigh ∧ low < otherLow := by
  rcases Nat.lt_trichotomy high otherHigh with less | rfl | more
  · have step := Nat.mul_le_mul_right bound less
    rw [Nat.succ_mul] at step
    exact iff_of_true (by omega) (.inl less)
  · simp
  · have step := Nat.mul_le_mul_right bound more
    rw [Nat.succ_mul] at step
    exact iff_of_false (by omega) (by omega)

/-- Byte strings of one length are ordered like the numbers they write. -/
theorem lt_iff_bigEndian_lt {first second : List UInt8}
    (sameLength : first.length = second.length) :
    first < second ↔ bigEndian first < bigEndian second := by
  induction first generalizing second with
  | nil =>
    cases second with
    | nil => decide
    | cons other others => cases sameLength
  | cons byte rest inductionHypothesis =>
    cases second with
    | nil => cases sameLength
    | cons other others =>
      have restLength := Nat.succ.inj sameLength
      rw [List.cons_lt_cons_iff, inductionHypothesis restLength, bigEndian, bigEndian, restLength,
        add_lt_add_iff_of_lt (restLength ▸ bigEndian_lt rest) (bigEndian_lt others),
        UInt8.lt_iff_toNat_lt, ← UInt8.toNat_inj]

/-- Byte strings of one length that write the same number are equal. -/
theorem bigEndian_injective {first second : List UInt8} (sameLength : first.length = second.length)
    (same : bigEndian first = bigEndian second) : first = second := by
  have notLess : ¬ first < second := by
    rw [lt_iff_bigEndian_lt sameLength]
    omega
  have notMore : ¬ second < first := by
    rw [lt_iff_bigEndian_lt sameLength.symm]
    omega
  exact List.le_antisymm (List.not_lt.mp notMore) (List.not_lt.mp notLess)

/-- The exclusive or of two numbers digit by digit. -/
theorem add_xor_add {width high low otherHigh otherLow : Nat} (small : low < 2 ^ width)
    (otherSmall : otherLow < 2 ^ width) :
    (high * 2 ^ width + low) ^^^ (otherHigh * 2 ^ width + otherLow) =
      (high ^^^ otherHigh) * 2 ^ width + (low ^^^ otherLow) := by
  have positive := Nat.two_pow_pos width
  rw [← Nat.div_add_mod (_ ^^^ _) (2 ^ width), Nat.xor_div_two_pow, Nat.xor_mod_two_pow]
  simp only [Nat.mul_comm _ (2 ^ width), Nat.mul_add_div positive, Nat.mul_add_mod,
    Nat.div_eq_of_lt small, Nat.div_eq_of_lt otherSmall, Nat.mod_eq_of_lt small,
    Nat.mod_eq_of_lt otherSmall, Nat.add_zero]

/-- The byte-wise exclusive or writes the exclusive or of the numbers. -/
theorem bigEndian_zipWith_xor {first second : List UInt8}
    (sameLength : first.length = second.length) :
    bigEndian (List.zipWith (· ^^^ ·) first second) = bigEndian first ^^^ bigEndian second := by
  induction first generalizing second with
  | nil =>
    cases second with
    | nil => rfl
    | cons other others => cases sameLength
  | cons byte rest inductionHypothesis =>
    cases second with
    | nil => cases sameLength
    | cons other others =>
      have restLength := Nat.succ.inj sameLength
      rw [List.zipWith_cons_cons, bigEndian, bigEndian, bigEndian, inductionHypothesis restLength,
        List.length_zipWith, ← restLength, Nat.min_self, UInt8.toNat_xor,
        add_xor_add (bigEndian_lt rest) (restLength ▸ bigEndian_lt others)]

end Go
