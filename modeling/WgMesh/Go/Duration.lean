/-
This file models `time.Duration.Seconds`, which goes through `float64`.

A `float64` is a rational number here. Every operation rounds its exact result to
53 significant bits, to the nearest and to an even significand in a tie; the
numbers of seconds and nanoseconds are far from both ends of the exponents, so
there are none. The seconds of a duration may round up to the next whole second.
Below `2 ^ 24` of them they do not: there the whole seconds are what is left of the
duration by division.
-/

import Mathlib

namespace Go

/-! ### Rounding -/

/-- The nearest integer, the even one in a tie. -/
def roundHalfEven (value : ℚ) : ℤ :=
  let rest := value - ⌊value⌋
  if rest < 1 / 2 then ⌊value⌋
  else if 1 / 2 < rest then ⌊value⌋ + 1
  else if ⌊value⌋ % 2 = 0 then ⌊value⌋ else ⌊value⌋ + 1

/-- The unit in the last of the 53 bits of a number. -/
def ulp (value : ℚ) : ℚ := 2 ^ (Int.log 2 |value| - 52)

/-- The `float64` for an exact result. -/
def float64 (value : ℚ) : ℚ := roundHalfEven (value / ulp value) * ulp value

/-- The conversion of a `float64` to an integer. -/
def truncate (value : ℚ) : ℤ := if 0 ≤ value then ⌊value⌋ else ⌈value⌉

theorem roundHalfEven_cases (value : ℚ) :
    roundHalfEven value = ⌊value⌋ ∧ value - ⌊value⌋ ≤ 1 / 2 ∨
      roundHalfEven value = ⌊value⌋ + 1 ∧ 1 / 2 ≤ value - ⌊value⌋ := by
  unfold roundHalfEven
  dsimp only
  split_ifs with below above even
  · exact Or.inl ⟨rfl, below.le⟩
  · exact Or.inr ⟨rfl, above.le⟩
  · exact Or.inl ⟨rfl, not_lt.mp above⟩
  · exact Or.inr ⟨rfl, not_lt.mp below⟩

theorem floor_le_roundHalfEven (value : ℚ) : ⌊value⌋ ≤ roundHalfEven value := by
  rcases roundHalfEven_cases value with ⟨down, _⟩ | ⟨up, _⟩ <;> omega

theorem roundHalfEven_le (value : ℚ) : (roundHalfEven value : ℚ) ≤ value + 1 / 2 := by
  rcases roundHalfEven_cases value with ⟨down, _⟩ | ⟨up, half⟩
  · rw [down]
    exact (Int.floor_le value).trans (by linarith)
  · rw [up]
    push_cast
    linarith

theorem roundHalfEven_intCast (number : ℤ) : roundHalfEven number = number := by
  unfold roundHalfEven
  rw [Int.floor_intCast, sub_self]
  exact if_pos (by norm_num)

theorem ulp_pos (value : ℚ) : 0 < ulp value := zpow_pos (by norm_num) _

theorem float64_le (value : ℚ) : float64 value ≤ value + ulp value / 2 := by
  have rounded := mul_le_mul_of_nonneg_right (roundHalfEven_le (value / ulp value))
    (ulp_pos value).le
  rw [add_mul, div_mul_cancel₀ _ (ulp_pos value).ne'] at rounded
  unfold float64
  linarith

/-- The last bit of a number below a power of two. -/
theorem ulp_le {value : ℚ} {bits : ℕ} (below : |value| < 2 ^ bits) (positive : 0 < bits) :
    ulp value ≤ 2 ^ ((bits : ℤ) - 53) := by
  refine zpow_le_zpow_right₀ (by norm_num) ?_
  rcases eq_or_ne value 0 with rfl | nonzero
  · rw [abs_zero, Int.log_of_right_le_zero _ le_rfl]
    omega
  · have less : Int.log 2 |value| < bits :=
      (Int.lt_zpow_iff_log_lt (by norm_num) (abs_pos.mpr nonzero)).mp (by exact_mod_cast below)
    omega

/-- Up to 53 bits, an integer is a number of units in the last bit. -/
theorem exists_units {value : ℚ} (below : |value| < 2 ^ 53) (number : ℤ) :
    ∃ units : ℤ, (number : ℚ) = units * ulp value := by
  have fine : Int.log 2 |value| - 52 ≤ 0 := by
    have last := ulp_le below (by norm_num)
    have exponents := (zpow_le_zpow_iff_right₀ (by norm_num : (1 : ℚ) < 2)).mp last
    exact exponents
  obtain ⟨shift, same⟩ := Int.eq_ofNat_of_zero_le (neg_nonneg.mpr fine)
  refine ⟨number * 2 ^ shift, ?_⟩
  rw [ulp, ← neg_neg (Int.log 2 |value| - 52), same]
  push_cast
  rw [zpow_neg, zpow_natCast, mul_assoc, mul_inv_cancel₀ (by positivity), mul_one]

/-- A number does not round down past an integer. -/
theorem le_float64 {value : ℚ} (below : |value| < 2 ^ 53) {number : ℤ}
    (least : (number : ℚ) ≤ value) : (number : ℚ) ≤ float64 value := by
  obtain ⟨units, same⟩ := exists_units below number
  rw [same, float64]
  refine mul_le_mul_of_nonneg_right ?_ (ulp_pos value).le
  have quotient : (units : ℚ) ≤ value / ulp value := by
    rw [le_div_iff₀ (ulp_pos value), ← same]
    exact least
  exact_mod_cast (Int.le_floor.mpr quotient).trans (floor_le_roundHalfEven _)

theorem float64_intCast {number : ℤ} (below : |(number : ℚ)| < 2 ^ 53) :
    float64 number = number := by
  obtain ⟨units, same⟩ := exists_units below number
  have quotient : (number : ℚ) / ulp number = units := by
    rw [div_eq_iff (ulp_pos _).ne', ← same]
  rw [float64, quotient, roundHalfEven_intCast, ← same]

/-! ### Seconds -/

/-- `time.Duration.Seconds`. -/
def seconds (duration : ℤ) : ℚ :=
  let sec := duration.tdiv 1000000000
  let nsec := duration.tmod 1000000000
  float64 (float64 sec + float64 (float64 nsec / float64 (1000000000 : ℤ)))

/-- What the nanoseconds add to the whole seconds. -/
theorem float64_nanoseconds {nsec : ℚ} (nonneg : 0 ≤ nsec) (below : nsec ≤ 999999999) :
    0 ≤ float64 (nsec / 1000000000) ∧
      float64 (nsec / 1000000000) ≤ 999999999 / 1000000000 + 2 ^ (-53 : ℤ) := by
  have low : 0 ≤ nsec / 1000000000 := div_nonneg nonneg (by norm_num)
  have high : nsec / 1000000000 ≤ 999999999 / 1000000000 := by gcongr
  have small : |nsec / 1000000000| < 2 := by
    rw [abs_of_nonneg low]
    exact high.trans_lt (by norm_num)
  constructor
  · exact_mod_cast le_float64 (small.trans (by norm_num)) (by exact_mod_cast low)
  · have last := @ulp_le (nsec / 1000000000) 1 (by simpa using small) one_pos
    have rounded := float64_le (nsec / 1000000000)
    norm_num at last ⊢
    linarith

/-- The sum does not round up to the next second. -/
theorem float64_add_bounds {sec : ℤ} {fraction : ℚ} (nonneg : (0 : ℚ) ≤ sec)
    (below : (sec : ℚ) ≤ 2 ^ 24 - 1) (low : 0 ≤ fraction)
    (high : fraction ≤ 999999999 / 1000000000 + 2 ^ (-53 : ℤ)) :
    sec ≤ float64 (sec + fraction) ∧ float64 (sec + fraction) < sec + 1 := by
  norm_num at high
  have small : |sec + fraction| < 2 ^ 24 := abs_lt.mpr ⟨by linarith, by linarith⟩
  constructor
  · exact le_float64 (small.trans (by norm_num)) (by linarith)
  · have last := ulp_le small (by norm_num)
    have rounded := float64_le (sec + fraction)
    norm_num at last
    linarith

/-- Below `2 ^ 24` seconds the whole seconds of a duration are exact. -/
theorem truncate_seconds {duration : ℤ} (nonneg : 0 ≤ duration)
    (below : duration < 2 ^ 24 * 1000000000) :
    truncate (seconds duration) = duration.tdiv 1000000000 := by
  have whole : 0 ≤ duration.tdiv 1000000000 := Int.tdiv_nonneg nonneg (by norm_num)
  have remaining : 0 ≤ duration.tmod 1000000000 := Int.tmod_nonneg _ nonneg
  have under := Int.tmod_lt_of_pos duration (by norm_num : (0 : ℤ) < 1000000000)
  have parts := Int.mul_tdiv_add_tmod duration 1000000000
  unfold seconds
  dsimp only
  generalize duration.tdiv 1000000000 = sec at *
  generalize duration.tmod 1000000000 = nsec at *
  have secLow : (0 : ℚ) ≤ sec := by exact_mod_cast whole
  have secHigh : (sec : ℚ) ≤ 2 ^ 24 - 1 := by exact_mod_cast (by omega : sec ≤ 2 ^ 24 - 1)
  have nsecLow : (0 : ℚ) ≤ nsec := by exact_mod_cast remaining
  have nsecHigh : (nsec : ℚ) ≤ 999999999 := by exact_mod_cast (by omega : nsec ≤ 999999999)
  -- The three conversions from integers are exact.
  rw [float64_intCast (abs_lt.mpr ⟨by linarith, by linarith⟩),
    float64_intCast (abs_lt.mpr ⟨by linarith, by linarith⟩), float64_intCast (by norm_num)]
  obtain ⟨low, high⟩ := float64_nanoseconds nsecLow nsecHigh
  push_cast
  obtain ⟨down, up⟩ := float64_add_bounds secLow secHigh low high
  rw [truncate, if_pos (secLow.trans down)]
  exact Int.floor_eq_iff.mpr ⟨down, up⟩

example : truncate (seconds ((2 ^ 24 - 1) * 1000000000 + 999999999)) = 2 ^ 24 - 1 := by
  decide +kernel

example : truncate (seconds (2 ^ 24 * 1000000000 + 999999999)) = 2 ^ 24 + 1 := by
  decide +kernel

end Go
