import EscapeTime.Proofs.Number.Arithmetic
import EscapeTime.Proofs.Number.Quotient

/-!
# Underflow and overflow

The exact bounds beyond which the number nearest to a magnitude is zero or infinite, and from them
the bounds beyond which a square is.
-/

namespace EscapeTime

namespace Number

namespace Magnitude

variable (x : Magnitude)

theorem value_nonneg : 0 ≤ x.value := by
  unfold value
  positivity

theorem value_product (y : Magnitude) : (x.product y).value = x.value * y.value := by
  unfold value product
  push_cast
  rw [zpow_add₀ two_ne_zero]
  ring

/-- The magnitude over half of its unit. -/
theorem value_half_units : x.value =
    ((2 * (x.mantissa * 2 ^ (x.exponent - x.unit).toNat) : Nat) : ℚ) /
      (2 ^ (x.unit - x.exponent).toNat : Nat) * 2 ^ (x.unit - 1) := by
  have exponent : x.exponent =
      ((x.exponent - x.unit).toNat : ℤ) - (x.unit - x.exponent).toNat + (1 + (x.unit - 1)) := by
    omega
  unfold value
  conv_lhs => rw [exponent]
  rw [zpow_add₀ two_ne_zero, zpow_sub₀ two_ne_zero, zpow_natCast, zpow_natCast,
    zpow_add₀ two_ne_zero, zpow_one]
  push_cast
  ring

theorem inUnits_eq_zero_iff : x.inUnits = 0 ↔ x.value ≤ 2 ^ (x.unit - 1) := by
  have half := divRound_pos (x.mantissa * 2 ^ (x.exponent - x.unit).toNat)
    (2 ^ (x.unit - x.exponent).toNat) (by positivity)
  rw [value_half_units, mul_le_iff_le_one_left (by positivity), div_le_one (by positivity),
    Nat.cast_le, ← not_lt, ← half, inUnits]
  omega

theorem value_bounds (pos : 0 < x.mantissa) :
    (2 : ℚ) ^ (x.mantissa.log2 + x.exponent) ≤ x.value ∧
      x.value < 2 ^ (x.mantissa.log2 + 1 + x.exponent) := by
  have low : 2 ^ x.mantissa.log2 ≤ x.mantissa := Nat.log2_self_le pos.ne'
  have high : x.mantissa < 2 ^ (x.mantissa.log2 + 1) := Nat.lt_log2_self
  unfold value
  rw [zpow_add₀ two_ne_zero, zpow_add₀ two_ne_zero]
  constructor
  · gcongr
    exact_mod_cast low
  · gcongr
    exact_mod_cast high

/-- The nearest number is zero up to half of the least one. -/
theorem nearest_eq_zero_iff (pos : 0 < x.mantissa) :
    binary32.nearest x.ratio.1 x.ratio.2 = 0 ↔ x.value ≤ 2 ^ (-150 : ℤ) := by
  have unit : x.unit = max (x.mantissa.log2 + x.exponent - 23) (-149) := rfl
  have bounds := x.inUnits_bounds pos
  rw [x.nearest_ratio pos]
  by_cases least : x.unit = -149
  · have none := x.inUnits_eq_zero_iff
    rw [least, show (-149 - 1 : ℤ) = -150 by decide] at none
    rw [← none, least]
    omega
  · have large : (2 : ℚ) ^ (-150 : ℤ) < x.value :=
      lt_of_lt_of_le (zpow_lt_zpow_right₀ one_lt_two (by omega)) (x.value_bounds pos).1
    exact iff_of_false (by omega) (not_le.2 large)

/-- The nearest number is infinite from the middle between the largest one and `2 ^ 128` on. -/
theorem nearest_eq_infinity_iff (pos : 0 < x.mantissa) :
    binary32.nearest x.ratio.1 x.ratio.2 = 0x7f800000 ↔ (2 ^ 25 - 1) * 2 ^ (103 : ℤ) ≤ x.value := by
  obtain ⟨denPos, value⟩ := x.ratio_eq
  have numPos : 0 < x.ratio.1 := by
    unfold ratio
    split
    · exact Nat.mul_pos pos (Nat.pow_pos two_pos)
    · exact pos
  rw [Number.nearest_eq_infinity_iff numPos denPos, value, overflow]
  norm_num

end Magnitude

end Number

namespace Single

open Number

theorem isZero_ofMagnitude (negative : Bool) (x : Magnitude) :
    (ofMagnitude negative x).isZero = true ↔ binary32.nearest x.ratio.1 x.ratio.2 = 0 := by
  have small := nearest_le x.ratio.1 x.ratio.2
  rw [isZero_iff, toNat_ofMagnitude]
  split <;> omega

theorem isInf_ofMagnitude (negative : Bool) (x : Magnitude) :
    (ofMagnitude negative x).isInf = true ↔ binary32.nearest x.ratio.1 x.ratio.2 = 0x7f800000 := by
  have small := nearest_le x.ratio.1 x.ratio.2
  rw [isInf_iff, toNat_ofMagnitude]
  split <;> omega

theorem isZero_mul_self {x : Single} (proper : x.Proper) :
    (x * x).isZero = true ↔ x.magnitude.value ≤ 2 ^ (-75 : ℤ) := by
  obtain ⟨pos, -⟩ := proper.magnitude_bounds
  rw [mul_eq proper proper, isZero_ofMagnitude,
    Magnitude.nearest_eq_zero_iff _ (Nat.mul_pos pos pos), Magnitude.value_product, ← pow_two,
    show (2 : ℚ) ^ (-150 : ℤ) = (2 ^ (-75 : ℤ)) ^ 2 by norm_num]
  exact pow_le_pow_iff_left₀ x.magnitude.value_nonneg (by positivity) two_ne_zero

theorem isInf_mul_self {x : Single} (proper : x.Proper) :
    (x * x).isInf = true ↔ 2 ^ (64 : ℤ) ≤ x.magnitude.value := by
  obtain ⟨pos, short, -, normal⟩ := proper.magnitude_bounds
  rw [mul_eq proper proper, isInf_ofMagnitude,
    Magnitude.nearest_eq_infinity_iff _ (Nat.mul_pos pos pos), Magnitude.value_product, ← pow_two]
  constructor
  · intro large
    by_contra small
    -- The greatest number below the bound is still a unit of its own away from it.
    have below : x.magnitude.value ≤ (2 ^ 24 - 1) * 2 ^ (40 : ℤ) := by
      unfold Magnitude.value at small ⊢
      by_cases low : x.magnitude.exponent ≤ 40
      · have mantissa : (x.magnitude.mantissa : ℚ) ≤ 2 ^ 24 - 1 := by
          have whole : (x.magnitude.mantissa + 1 : ℚ) ≤ 2 ^ 24 := by exact_mod_cast short
          linarith
        gcongr
        exact one_le_two
      · refine absurd ?_ small
        have mantissa : (2 ^ 23 : ℚ) ≤ x.magnitude.mantissa := by
          exact_mod_cast normal.resolve_right (by omega)
        calc (2 : ℚ) ^ (64 : ℤ) = 2 ^ 23 * 2 ^ (41 : ℤ) := by norm_num
          _ ≤ (x.magnitude.mantissa : ℚ) * 2 ^ x.magnitude.exponent := by
            gcongr
            · exact one_le_two
            · omega
    have square : x.magnitude.value ^ 2 ≤ ((2 ^ 24 - 1) * 2 ^ (40 : ℤ)) ^ 2 :=
      pow_le_pow_left₀ x.magnitude.value_nonneg below 2
    norm_num at square large
    linarith
  · intro large
    calc (2 ^ 25 - 1 : ℚ) * 2 ^ (103 : ℤ) ≤ (2 ^ (64 : ℤ)) ^ 2 := by norm_num
      _ ≤ x.magnitude.value ^ 2 := by gcongr

theorem isNegative_mul_self {x : Single} (proper : x.Proper) : (x * x).isNegative = false := by
  have small := nearest_le (x.magnitude.product x.magnitude).ratio.1
    (x.magnitude.product x.magnitude).ratio.2
  rw [mul_eq proper proper, bne_self_eq_false, ← Bool.not_eq_true, isNegative_iff,
    toNat_ofMagnitude]
  simp only [Bool.false_eq_true, if_false]
  omega

/-! ### Squares of all numbers -/

theorem isNaN_quiet {x : Single} (nan : x.isNaN = true) : x.quiet.isNaN = true := by
  rw [isNaN_iff] at nan ⊢
  have more : x.bits.toNat % 2 ^ 31 ≤ x.quiet.bits.toNat % 2 ^ 31 := by
    rw [quiet, UInt32.toNat_or, Nat.or_mod_two_pow]
    exact Nat.left_le_or
  omega

theorem eq_infinity {x : Single} (inf : x.isInf = true) (plus : x.isNegative = false) :
    x = infinity := by
  have bounded := x.bits.toNat_lt
  have low : ¬ 2 ^ 31 ≤ x.bits.toNat := by
    rw [← isNegative_iff, plus]
    exact Bool.false_ne_true
  rw [isInf_iff] at inf
  have bits : x.bits = 0x7f800000 := UInt32.toNat_inj.1 (by show x.bits.toNat = 0x7f800000; omega)
  rw [← show (⟨x.bits⟩ : Single) = x from rfl, bits]
  rfl

theorem value_infinity : infinity.magnitude.value = 2 ^ (128 : ℤ) := by
  show ((8388608 : Nat) : ℚ) * 2 ^ (105 : ℤ) = 2 ^ (128 : ℤ)
  norm_num

/-- The kind of a square, for a number that is not a NaN. -/
theorem mul_self_kind {x : Single} (positive : 0 < x) :
    (x * x).isNaN = false ∧ (x * x).isNegative = false ∧
      ((x * x).isZero = true ↔ x.magnitude.value ≤ 2 ^ (-75 : ℤ)) ∧
      ((x * x).isInf = true ↔ 2 ^ (64 : ℤ) ≤ x.magnitude.value) := by
  obtain ⟨number, nonzero, plus⟩ := (zero_lt_iff x).1 positive
  by_cases inf : x.isInf = true
  · rw [eq_infinity inf plus, value_infinity]
    refine ⟨by decide, by decide, iff_of_false (by decide) ?_, iff_of_true (by decide) ?_⟩
    · norm_num
    · norm_num
  · have proper : x.Proper := ⟨number, Bool.eq_false_iff.2 inf, nonzero⟩
    refine ⟨?_, isNegative_mul_self proper, isZero_mul_self proper, isInf_mul_self proper⟩
    rw [mul_eq proper proper]
    exact isNaN_ofMagnitude ..

end Single

end EscapeTime
