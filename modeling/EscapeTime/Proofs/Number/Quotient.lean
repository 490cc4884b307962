import EscapeTime.Number.Numeral
import EscapeTime.Proofs.Number.Rounding

/-!
# Rounding of quotients

The exact bound from which on the single precision number nearest to a quotient is infinite, and
with it the decimal numbers that are out of range.
-/

namespace EscapeTime.Number

/-! ### Scaling by a power of two -/

/-- The quotient over a power of two, as a quotient of whole numbers. -/
theorem scaled_quotient (num den : Nat) (e : ℤ) :
    ((num * 2 ^ (-e).toNat : Nat) : ℚ) / ((den * 2 ^ e.toNat : Nat) : ℚ) = num / den / 2 ^ e := by
  have exponent : e = (e.toNat : ℤ) - (-e).toNat := by omega
  conv_rhs => rw [exponent]
  rw [zpow_sub₀ two_ne_zero, zpow_natCast, zpow_natCast]
  push_cast
  field_simp

theorem pow_le_quotient_iff (num : Nat) {den : Nat} (denPos : 0 < den) (e : ℤ) :
    (if 0 ≤ e then den * Nat.pow 2 e.toNat ≤ num else den ≤ num * Nat.pow 2 (-e).toNat) ↔
      (2 : ℚ) ^ e ≤ num / den := by
  have scaled : (if 0 ≤ e then den * Nat.pow 2 e.toNat ≤ num else
      den ≤ num * Nat.pow 2 (-e).toNat) ↔ den * 2 ^ e.toNat ≤ num * 2 ^ (-e).toNat := by
    split_ifs with sign
    · rw [show (-e).toNat = 0 by omega, Nat.pow_zero, Nat.mul_one]
      rfl
    · rw [show e.toNat = 0 by omega, Nat.pow_zero, Nat.mul_one]
      rfl
  have positive : (0 : ℚ) < (den * 2 ^ e.toNat : Nat) := by positivity
  rw [scaled, ← one_le_div (by positivity : (0 : ℚ) < 2 ^ e), ← scaled_quotient, one_le_div positive,
    Nat.cast_le]

theorem floorLog2_bounds {num den : Nat} (pos : 0 < num) (denPos : 0 < den) :
    (2 : ℚ) ^ floorLog2 num den ≤ num / den ∧ (num : ℚ) / den < 2 ^ (floorLog2 num den + 1) := by
  have numLow : (2 ^ num.log2 : ℚ) ≤ num := by exact_mod_cast Nat.log2_self_le pos.ne'
  have numHigh : (num : ℚ) < 2 ^ (num.log2 + 1) := by exact_mod_cast Nat.lt_log2_self
  have denLow : (2 ^ den.log2 : ℚ) ≤ den := by exact_mod_cast Nat.log2_self_le denPos.ne'
  have denHigh : (den : ℚ) < 2 ^ (den.log2 + 1) := by exact_mod_cast Nat.lt_log2_self
  have low : (2 : ℚ) ^ ((num.log2 : ℤ) - den.log2 - 1) ≤ num / den := by
    rw [show (num.log2 : ℤ) - den.log2 - 1 = num.log2 - (den.log2 + 1 : Nat) by push_cast; ring,
      zpow_sub₀ two_ne_zero, zpow_natCast, zpow_natCast]
    gcongr
  have high : (num : ℚ) / den < 2 ^ ((num.log2 : ℤ) - den.log2 + 1) := by
    rw [show (num.log2 : ℤ) - den.log2 + 1 = (num.log2 + 1 : Nat) - den.log2 by push_cast; ring,
      zpow_sub₀ two_ne_zero, zpow_natCast, zpow_natCast]
    gcongr
  have fits := pow_le_quotient_iff num denPos ((num.log2 : ℤ) - den.log2)
  unfold floorLog2
  dsimp only
  by_cases whole : (2 : ℚ) ^ ((num.log2 : ℤ) - den.log2) ≤ num / den
  · rw [if_pos (fits.mpr whole)]
    exact ⟨whole, high⟩
  · rw [if_neg fun fit => whole (fits.mp fit), sub_add_cancel]
    exact ⟨low, not_le.mp whole⟩

/-! ### Overflow -/

/-- The quotient in units of `2 ^ e`, to the nearest. -/
def roundAt (num den : Nat) (e : ℤ) : Nat :=
  divRound (num * 2 ^ (-e).toNat) (den * 2 ^ e.toNat)

theorem roundAt_eq (num den : Nat) (e : ℤ) :
    roundAt num den e = if 0 ≤ e then divRound num (den * Nat.pow 2 e.toNat)
      else divRound (num * Nat.pow 2 (-e).toNat) den := by
  unfold roundAt
  split_ifs with sign
  · rw [show (-e).toNat = 0 by omega, Nat.pow_zero, Nat.mul_one]
    rfl
  · rw [show e.toNat = 0 by omega, Nat.pow_zero, Nat.mul_one]
    rfl

theorem nearest_eq {num den : Nat} (pos : 0 < num) {e : ℤ}
    (exponent : max (floorLog2 num den - 23) (-149) = e) :
    binary32.nearest num den =
      min 0x7f800000 ((e + 149).toNat * 2 ^ 23 + roundAt num den e) := by
  rw [roundAt_eq, ← exponent]
  exact if_neg pos.ne'

theorem lt_roundAt_iff {num den q : Nat} (denPos : 0 < den) (odd : q % 2 = 1) (e : ℤ) :
    q < roundAt num den e ↔ ((2 * q + 1 : Nat) : ℚ) / 2 * 2 ^ e ≤ num / den := by
  have positive : 0 < den * 2 ^ e.toNat := by positivity
  have power : (0 : ℚ) < 2 ^ e := by positivity
  rw [roundAt, lt_divRound_iff positive odd, ← le_div_iff₀ power, ← scaled_quotient,
    div_le_div_iff₀ two_pos (by exact_mod_cast positive), mul_comm (_ : ℚ) 2]
  exact_mod_cast Iff.rfl

theorem le_roundAt {num den low : Nat} {e : ℤ} (denPos : 0 < den)
    (below : low * 2 ^ e ≤ (num : ℚ) / den) : low ≤ roundAt num den e := by
  have positive : 0 < den * 2 ^ e.toNat := by positivity
  rw [← le_div_iff₀ (by positivity), ← scaled_quotient,
    le_div_iff₀ (by exact_mod_cast positive)] at below
  have whole : low ≤ num * 2 ^ (-e).toNat / (den * 2 ^ e.toNat) :=
    (Nat.le_div_iff_mul_le positive).mpr (by exact_mod_cast below)
  exact Nat.le_trans whole (divRound_mem _ _).1

theorem roundAt_le {num den high : Nat} {e : ℤ} (denPos : 0 < den)
    (above : (num : ℚ) / den < high * 2 ^ e) : roundAt num den e ≤ high := by
  have positive : 0 < den * 2 ^ e.toNat := by positivity
  rw [← div_lt_iff₀ (by positivity), ← scaled_quotient,
    div_lt_iff₀ (by exact_mod_cast positive)] at above
  have whole : num * 2 ^ (-e).toNat / (den * 2 ^ e.toNat) < high :=
    (Nat.div_lt_iff_lt_mul positive).mpr (by exact_mod_cast above)
  exact Nat.le_trans (divRound_mem _ _).2 whole

/-- The middle between the largest finite number and the power of two beyond it. -/
def overflow : ℚ :=
  2 ^ 128 - 2 ^ 103

/-- The nearest number is infinite from `overflow` on. -/
theorem nearest_eq_infinity_iff {num den : Nat} (pos : 0 < num) (denPos : 0 < den) :
    binary32.nearest num den = 0x7f800000 ↔ overflow ≤ num / den := by
  obtain ⟨low, high⟩ := floorLog2_bounds pos denPos
  obtain ⟨e, exponent⟩ : ∃ e, max (floorLog2 num den - 23) (-149) = e := ⟨_, rfl⟩
  have short : roundAt num den e ≤ 2 ^ 24 := by
    refine roundAt_le denPos (lt_of_lt_of_le high ?_)
    rw [show ((2 ^ 24 : Nat) : ℚ) = 2 ^ (24 : ℤ) by norm_num, ← zpow_add₀ two_ne_zero]
    exact zpow_le_zpow_right₀ one_le_two (by omega)
  rw [nearest_eq pos exponent]
  -- Only in the last unit before infinity does the rounding decide.
  rcases lt_trichotomy e 104 with less | last | more
  · have small : (num : ℚ) / den < overflow :=
      calc (num : ℚ) / den < 2 ^ (floorLog2 num den + 1) := high
        _ ≤ 2 ^ (127 : ℤ) := zpow_le_zpow_right₀ one_le_two (by omega)
        _ < overflow := by norm_num [overflow]
    exact iff_of_false (by omega) (not_le.mpr small)
  · have up : 2 ^ 24 - 1 < roundAt num den e ↔ _ := lt_roundAt_iff denPos (by decide) e
    have bound : ((2 * (2 ^ 24 - 1) + 1 : Nat) : ℚ) / 2 * 2 ^ (104 : ℤ) = overflow := by
      norm_num [overflow]
    rw [last, bound, ← last] at up
    rw [← up]
    omega
  · have large : overflow ≤ num / den :=
      calc overflow ≤ 2 ^ (128 : ℤ) := by norm_num [overflow]
        _ ≤ 2 ^ floorLog2 num den := zpow_le_zpow_right₀ one_le_two (by omega)
        _ ≤ num / den := low
    have full : 2 ^ 23 ≤ roundAt num den e := by
      refine le_roundAt denPos (le_trans ?_ low)
      rw [show ((2 ^ 23 : Nat) : ℚ) = 2 ^ (23 : ℤ) by norm_num, ← zpow_add₀ two_ne_zero]
      exact zpow_le_zpow_right₀ one_le_two (by omega)
    exact iff_of_true (by omega) large

/-! ### Decimal numbers -/

theorem length_toDigits_bounds {n : Nat} (pos : 0 < n) :
    n < 10 ^ (Nat.toDigits 10 n).length ∧ 10 ^ ((Nat.toDigits 10 n).length - 1) ≤ n := by
  have nonempty : 0 < (Nat.toDigits 10 n).length := Nat.length_toDigits_pos
  refine ⟨(Nat.length_toDigits_le_iff (by decide) nonempty).mp (Nat.le_refl _), ?_⟩
  rcases Nat.eq_zero_or_pos ((Nat.toDigits 10 n).length - 1) with single | more
  · rw [single]
    exact pos
  · rw [← Nat.not_lt, ← Nat.length_toDigits_le_iff (by decide) more]
    omega

theorem Scientific.nearest_le (x : Scientific) : x.nearest binary32 ≤ binary32.infinity := by
  unfold Scientific.nearest
  dsimp only
  split_ifs
  · exact Nat.zero_le _
  · exact Nat.le_refl _
  · exact Nat.zero_le _
  · exact Number.nearest_le _ _
  · exact Number.nearest_le _ _

/-- A decimal number is out of range from `overflow` on. -/
theorem Scientific.nearest_eq_infinity_iff (digits places : Nat) :
    (Scientific.mk 10 digits (0 - places)).nearest binary32 = binary32.infinity ↔
      overflow ≤ (digits : ℚ) / 10 ^ places := by
  have positive : 0 < overflow := by norm_num [overflow]
  unfold Scientific.nearest
  dsimp only
  rcases Nat.eq_zero_or_pos digits with rfl | pos
  · rw [if_pos rfl, Nat.cast_zero, zero_div]
    exact iff_of_false (by decide) (not_le.mpr positive)
  rw [if_neg pos.ne']
  obtain ⟨high, low⟩ := length_toDigits_bounds pos
  split_ifs with large small whole
  · -- The power of ten alone is out of range.
    refine iff_of_true rfl ?_
    have power : 10 ^ 39 * 10 ^ places ≤ digits := by
      rw [← Nat.pow_add]
      exact Nat.le_trans (Nat.pow_le_pow_right (by decide) (by omega)) low
    rw [le_div_iff₀ (by positivity)]
    calc overflow * 10 ^ places ≤ 10 ^ 39 * 10 ^ places := by
          gcongr
          norm_num [overflow]
      _ ≤ digits := by exact_mod_cast power
  · refine iff_of_false (by decide) (not_le.mpr ?_)
    have power : digits < 10 ^ places :=
      Nat.lt_of_lt_of_le high (Nat.pow_le_pow_right (by decide) (by omega))
    have below : (digits : ℚ) / 10 ^ places < 1 := by
      rw [div_lt_one (by positivity)]
      exact_mod_cast power
    exact below.trans (by norm_num [overflow])
  · obtain rfl : places = 0 := by omega
    have bound := Number.nearest_eq_infinity_iff pos one_pos
    rw [Nat.cast_one] at bound
    rw [pow_zero, ← bound]
    show binary32.nearest (digits * 1) 1 = _ ↔ _
    rw [Nat.mul_one]
    rfl
  · have bound := Number.nearest_eq_infinity_iff pos (Nat.pow_pos (by decide) : 0 < 10 ^ places)
    rw [Nat.cast_pow, Nat.cast_ofNat] at bound
    rw [← bound, show (-(0 - (places : ℤ))).toNat = places by omega]
    rfl

end EscapeTime.Number
