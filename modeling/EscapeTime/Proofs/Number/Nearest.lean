import EscapeTime.Proofs.Number.Range

/-!
# Nearest numbers

A quotient that is nearer than half a unit to a number of the format is rounded to it, and every
other number is farther away. From `2 ^ -6` on, nine decimal places come that near.
-/

namespace EscapeTime

namespace Number

/-! ### Whole numbers -/

/-- The whole number is the nearest one to `q`, the even one where two are equally near. -/
def IsRounded (q : ℚ) (n : ℤ) : Prop :=
  |q - n| ≤ 1 / 2 ∧ (|q - n| = 1 / 2 → Even n)

theorem IsRounded.neg {q : ℚ} {n : ℤ} (rounded : IsRounded q n) : IsRounded (-q) (-n) := by
  have distance : |-q - (-n : ℤ)| = |q - n| := by
    rw [Int.cast_neg, neg_sub_neg, abs_sub_comm]
  unfold IsRounded
  rw [distance, even_neg]
  exact rounded

theorem divRound_isRounded (a : Nat) {b : Nat} (pos : 0 < b) :
    IsRounded (a / b) (divRound a b : Nat) := by
  have positive : (0 : ℚ) < b := by exact_mod_cast pos
  have split : (a : ℚ) / b = (a / b : Nat) + (a % b : Nat) / b := by
    rw [div_eq_iff positive.ne', add_mul, div_mul_cancel₀ _ positive.ne']
    exact_mod_cast (Nat.div_add_mod' a b).symm
  have rest : ((a % b : Nat) : ℚ) / b < 1 := by
    rw [div_lt_one positive]
    exact_mod_cast Nat.mod_lt a pos
  have half (r : Nat) : (r : ℚ) / b < 1 / 2 ↔ 2 * r < b := by
    rw [div_lt_iff₀ positive, one_div_mul_eq_div, lt_div_iff₀ two_pos, mul_comm]
    exact_mod_cast Iff.rfl
  have halfUp (r : Nat) : 1 / 2 < (r : ℚ) / b ↔ b < 2 * r := by
    rw [lt_div_iff₀ positive, one_div_mul_eq_div, div_lt_iff₀ two_pos, mul_comm (r : ℚ)]
    exact_mod_cast Iff.rfl
  have nonneg : 0 ≤ ((a % b : Nat) : ℚ) / b := by positivity
  unfold IsRounded divRound
  dsimp only
  rw [Int.cast_natCast, Int.even_coe_nat, split]
  split_ifs with below above
  · have less := (half _).2 below
    rw [add_sub_cancel_left, abs_of_nonneg nonneg]
    exact ⟨less.le, fun tie => absurd tie less.ne⟩
  · have more := (halfUp _).2 above
    push_cast
    rw [add_sub_add_left_eq_sub, abs_of_nonpos (by linarith)]
    exact ⟨by linarith, fun tie => absurd tie (by linarith)⟩
  · have tie : ((a % b : Nat) : ℚ) / b = 1 / 2 :=
      le_antisymm (not_lt.1 (mt (halfUp _).1 above)) (not_lt.1 (mt (half _).1 below))
    rw [tie, Nat.cast_add, add_sub_add_left_eq_sub]
    refine ⟨?_, fun _ => Nat.even_iff.2 (by omega)⟩
    rcases Nat.mod_two_eq_zero_or_one (a / b) with even | odd
    · rw [even]
      norm_num
    · rw [odd]
      norm_num

theorem IsRounded.eq_of_close {q : ℚ} {n m : ℤ} (rounded : IsRounded q n)
    (close : |q - m| < 1 / 2) : n = m := by
  have apart : |(n : ℚ) - m| < 1 := by
    calc |(n : ℚ) - m| ≤ |n - q| + |q - m| := abs_sub_le ..
      _ < 1 := by
        rw [abs_sub_comm (n : ℚ)]
        linarith [rounded.1]
  have equal : |n - m| < 1 := by exact_mod_cast apart
  have := Int.abs_lt_one_iff.1 equal
  omega

/-! ### Numbers of the format -/

theorem unit_power (e : ℤ) : (2 : ℚ) ^ (e + 23) = 2 ^ 23 * 2 ^ e := by
  rw [add_comm, zpow_add₀ two_ne_zero]
  norm_num

theorem floorLog2_eq {num den : Nat} {k : ℤ} (pos : 0 < num) (denPos : 0 < den)
    (low : (2 : ℚ) ^ k ≤ num / den) (high : (num : ℚ) / den < 2 ^ (k + 1)) :
    floorLog2 num den = k := by
  obtain ⟨below, above⟩ := floorLog2_bounds pos denPos
  have up := (zpow_lt_zpow_iff_right₀ one_lt_two).1 (low.trans_lt above)
  have down := (zpow_lt_zpow_iff_right₀ one_lt_two).1 (below.trans_lt high)
  omega

/-- A quotient nearer than half a unit to a number of the format is rounded to it. -/
theorem nearest_of_close {num den m : Nat} {e : ℤ} (denPos : 0 < den) (least : -149 ≤ e)
    (low : (2 : ℚ) ^ (e + 23) ≤ num / den) (short : m < 2 ^ 24)
    (close : |(num : ℚ) / den - m * 2 ^ e| < 2 ^ (e - 1)) :
    binary32.nearest num den = min 0x7f800000 ((e + 149).toNat * 2 ^ 23 + m) := by
  have unit : (0 : ℚ) < 2 ^ e := by positivity
  have half : (2 : ℚ) ^ (e - 1) = 2 ^ e / 2 := zpow_sub_one₀ two_ne_zero e
  have pos : 0 < num := by
    rcases Nat.eq_zero_or_pos num with rfl | pos
    · rw [Nat.cast_zero, zero_div] at low
      exact absurd low (not_le.2 (by positivity))
    · exact pos
  have high : (num : ℚ) / den < 2 ^ (e + 23 + 1) := by
    have most : (m : ℚ) + 1 ≤ 2 ^ 24 := by exact_mod_cast short
    calc (num : ℚ) / den < m * 2 ^ e + 2 ^ e := by linarith [(abs_lt.1 close).2]
      _ = (m + 1) * 2 ^ e := by ring
      _ ≤ 2 ^ 24 * 2 ^ e := by gcongr
      _ = 2 ^ (e + 23 + 1) := by
        rw [zpow_add_one₀ two_ne_zero, unit_power]
        ring
  have length := floorLog2_eq pos denPos low high
  have rounded : roundAt num den e = m := by
    have positive : 0 < den * 2 ^ e.toNat := by positivity
    refine Int.ofNat_inj.1 ((divRound_isRounded (num * 2 ^ (-e).toNat) positive).eq_of_close ?_)
    have gap : (num : ℚ) / den / 2 ^ e - m = (num / den - m * 2 ^ e) / 2 ^ e := by
      rw [sub_div, mul_div_cancel_right₀ _ unit.ne']
    rw [scaled_quotient, Int.cast_natCast, gap, abs_div, abs_of_pos unit, div_lt_iff₀ unit]
    linarith
  rw [nearest_eq pos (e := e) (by omega), rounded]

/-- Two numbers that differ and are multiples of a unit are at least a unit apart. -/
theorem unit_le_distance {m m' : Nat} {e e' : ℤ} (coarse : e ≤ e')
    (other : (m' : ℚ) * 2 ^ e' ≠ m * 2 ^ e) : (2 : ℚ) ^ e ≤ |(m' : ℚ) * 2 ^ e' - m * 2 ^ e| := by
  have unit : (0 : ℚ) < 2 ^ e := by positivity
  obtain ⟨k, shift⟩ := Int.eq_ofNat_of_zero_le (show 0 ≤ e' - e by omega)
  have multiple : (m' : ℚ) * 2 ^ e' = (m' * 2 ^ k : Nat) * 2 ^ e := by
    rw [show e' = (k : ℤ) + e by omega, zpow_add₀ two_ne_zero, zpow_natCast]
    push_cast
    ring
  rw [multiple] at other ⊢
  have distinct : ((m' * 2 ^ k : Nat) : ℤ) - m ≠ 0 := by
    intro same
    apply other
    rw [show m' * 2 ^ k = m by omega]
  have whole : (1 : ℚ) ≤ |((m' * 2 ^ k : Nat) : ℚ) - m| := by exact_mod_cast Int.one_le_abs distinct
  rw [← sub_mul, abs_mul, abs_of_pos unit]
  exact le_mul_of_one_le_left unit.le whole

/-- Where a quotient is nearer than half a unit to a number of full length and not below the power
of two under it, every other number of the format is farther. -/
theorem lt_distance {m m' : Nat} {e e' : ℤ} {q : ℚ} (low : (2 : ℚ) ^ (e + 23) ≤ q)
    (long : 2 ^ 23 ≤ m) (close : |q - m * 2 ^ e| < 2 ^ (e - 1)) (short : m' < 2 ^ 24)
    (other : (m' : ℚ) * 2 ^ e' ≠ m * 2 ^ e) : |q - m * 2 ^ e| < |q - m' * 2 ^ e'| := by
  have half : (2 : ℚ) ^ (e - 1) = 2 ^ e / 2 := zpow_sub_one₀ two_ne_zero e
  by_cases coarse : e ≤ e'
  · have apart := unit_le_distance coarse other
    have around := abs_sub_le (m' * 2 ^ e' : ℚ) q (m * 2 ^ e)
    rw [abs_sub_comm _ q] at around
    linarith
  -- A number with a finer unit is below the power of two.
  have power := unit_power e
  have below : (m' : ℚ) * 2 ^ e' < 2 ^ (e + 23) :=
    calc (m' : ℚ) * 2 ^ e' ≤ m' * 2 ^ (e - 1) := by
          gcongr
          · exact one_le_two
          · omega
      _ < 2 ^ 24 * 2 ^ (e - 1) := by
        gcongr
        exact_mod_cast short
      _ = 2 ^ (e + 23) := by
        rw [power, half]
        ring
  rw [abs_of_pos (show 0 < q - m' * 2 ^ e' by linarith)]
  rcases Nat.lt_or_eq_of_le long with more | full
  · have above : (2 : ℚ) ^ (e + 23) + 2 ^ e ≤ m * 2 ^ e := by
      rw [power, ← add_one_mul]
      gcongr
      exact_mod_cast more
    have := abs_lt.1 close
    rw [abs_lt]
    constructor <;> linarith
  · rw [← full, Nat.cast_pow, Nat.cast_ofNat, ← power, abs_of_nonneg (by linarith)]
    linarith

/-- A decimal number of few places below the bound of overflow is rounded as a quotient. -/
theorem Scientific.nearest_eq {digits places : Nat} (few : places ≤ 1200)
    (inside : (digits : ℚ) / 10 ^ places < overflow) :
    (Scientific.mk 10 digits (0 - places)).nearest binary32 =
      binary32.nearest digits (10 ^ places) := by
  have finite := mt (Scientific.nearest_eq_infinity_iff digits places).1 (not_le.2 inside)
  unfold Scientific.nearest at finite ⊢
  dsimp only at finite ⊢
  rcases Nat.eq_zero_or_pos digits with rfl | pos
  · rw [if_pos rfl, BinaryFormat.nearest, if_pos rfl]
  rw [if_neg pos.ne'] at finite ⊢
  split_ifs with large small whole
  · exact absurd (if_pos large) finite
  · have nonempty : 0 < (Nat.toDigits 10 digits).length := Nat.length_toDigits_pos
    omega
  · obtain rfl : places = 0 := by omega
    exact congrArg (binary32.nearest · 1) (Nat.mul_one digits)
  · rw [show (-(0 - (places : ℤ))).toNat = places by omega]
    rfl

/-- The number with a minus sign if `negative`. -/
def signed (negative : Bool) (q : ℚ) : ℚ :=
  if negative then -q else q

theorem signed_zero (negative : Bool) : signed negative 0 = 0 := by
  cases negative
  · rfl
  · exact neg_zero

theorem abs_signed (negative : Bool) (q : ℚ) : |signed negative q| = |q| := by
  cases negative
  · rfl
  · exact abs_neg q

theorem abs_signed_sub (negative : Bool) (a b : ℚ) :
    |signed negative a - signed negative b| = |a - b| := by
  cases negative
  · rfl
  · show |-a - -b| = _
    rw [neg_sub_neg, abs_sub_comm]

theorem abs_signed_sub_not (negative : Bool) (a b : ℚ) :
    |signed negative a - signed (!negative) b| = |a + b| := by
  cases negative
  · show |a - -b| = _
    rw [sub_neg_eq_add]
  · show |-a - b| = _
    rw [← neg_add', abs_neg]

end Number

namespace Single

open Number

variable {x : Single}

/-! ### Finite numbers -/

theorem magnitude_of_finite (number : x.isNaN = false) (finite : x.isInf = false) :
    x.magnitude.mantissa < 2 ^ 24 ∧ -149 ≤ x.magnitude.exponent ∧ x.magnitude.exponent ≤ 104 ∧
      (2 ^ 23 ≤ x.magnitude.mantissa ∨ x.magnitude.exponent = -149) ∧
      x.bits.toNat % 2 ^ 31 =
        (x.magnitude.exponent + 149).toNat * 2 ^ 23 + x.magnitude.mantissa := by
  have short := x.mantissaField.isLt
  have small : x.bits.toNat % 2 ^ 31 < 0x7f800000 := by
    rw [Bool.eq_false_iff, Ne, isNaN_iff] at number
    rw [Bool.eq_false_iff, Ne, isInf_iff] at finite
    omega
  have exponent := toNat_exponentField x
  have mantissa := toNat_mantissaField x
  obtain ⟨none, magnitude⟩ | ⟨some, magnitude⟩ := magnitude_cases x
  · rw [magnitude]
    dsimp only
    omega
  · rw [magnitude]
    dsimp only
    omega

theorem ofSignBits_self (x : Single) : ofSignBits x.isNegative (x.bits.toNat % 2 ^ 31) = x := by
  have sign := isNegative_iff x
  have word := x.bits.toNat_lt
  suffices bits : (ofSignBits x.isNegative (x.bits.toNat % 2 ^ 31)).bits = x.bits by
    cases x
    exact congrArg mk bits
  rw [← UInt32.toNat_inj, toNat_ofSignBits _ (by omega)]
  cases negative : x.isNegative
  · rw [negative] at sign
    simp only [Bool.false_eq_true, false_iff, if_false] at sign ⊢
    omega
  · rw [negative] at sign
    simp only [true_iff, if_true] at sign ⊢
    omega

/-- The exact value of a finite number. -/
def value (x : Single) : ℚ :=
  signed x.isNegative x.magnitude.value

theorem magnitude_of_isZero (zero : x.isZero = true) : x.magnitude.value = 0 := by
  rw [isZero_iff] at zero
  show (binary32.magnitude (x.bits.toNat % 2 ^ 31)).value = 0
  rw [zero]
  exact zero_mul _

/-- No finite number of another value is as near to `q`. -/
def IsNearest (x : Single) (q : ℚ) : Prop :=
  ∀ y : Single, y.isNaN = false → y.isInf = false → y.value ≠ x.value →
    |q - x.value| < |q - y.value|

/-- The magnitude of `x` has full length, and `q` is nearer than half a unit and not below the power
of two under it. -/
structure Around (x : Single) (q : ℚ) : Prop where
  long : 2 ^ 23 ≤ x.magnitude.mantissa
  low : (2 : ℚ) ^ (x.magnitude.exponent + 23) ≤ q
  close : |q - x.magnitude.value| < 2 ^ (x.magnitude.exponent - 1)

theorem Around.nearest {num den : Nat} (around : x.Around (num / den)) (denPos : 0 < den)
    (number : x.isNaN = false) (finite : x.isInf = false) :
    binary32.nearest num den = x.bits.toNat % 2 ^ 31 := by
  obtain ⟨short, least, most, -, bits⟩ := magnitude_of_finite number finite
  rw [nearest_of_close denPos least around.low short around.close, bits]
  omega

theorem Around.lt_overflow {q : ℚ} (around : x.Around q) (number : x.isNaN = false)
    (finite : x.isInf = false) : q < overflow := by
  obtain ⟨short, -, most, -, -⟩ := magnitude_of_finite number finite
  have half : (2 : ℚ) ^ (x.magnitude.exponent - 1) = 2 ^ x.magnitude.exponent / 2 :=
    zpow_sub_one₀ two_ne_zero _
  have full : (x.magnitude.mantissa : ℚ) + 1 ≤ 2 ^ 24 := by exact_mod_cast short
  calc q < x.magnitude.value + 2 ^ (x.magnitude.exponent - 1) := by
        linarith [(abs_lt.1 around.close).2]
    _ = (x.magnitude.mantissa + 1 / 2) * 2 ^ x.magnitude.exponent := by
      rw [half, Magnitude.value]
      ring
    _ ≤ (2 ^ 24 - 1 / 2) * 2 ^ (104 : ℤ) := by
      gcongr
      · linarith
      · exact one_le_two
    _ = overflow := by norm_num [overflow]

theorem Around.isNearest {q : ℚ} (around : x.Around q) : x.IsNearest (signed x.isNegative q) := by
  obtain ⟨long, low, close⟩ := around
  intro y number finite other
  obtain ⟨short, -⟩ := magnitude_of_finite number finite
  unfold value at other ⊢
  rw [abs_signed_sub]
  by_cases same : y.isNegative = x.isNegative
  · rw [same] at other ⊢
    rw [abs_signed_sub]
    exact lt_distance low long close short fun equal => other (congrArg _ equal)
  · -- A number of the other sign is on the other side of zero.
    rw [Bool.eq_not_of_ne same, abs_signed_sub_not]
    have finer : (2 : ℚ) ^ (x.magnitude.exponent - 1) ≤ 2 ^ (x.magnitude.exponent + 23) :=
      zpow_le_zpow_right₀ one_le_two (by omega)
    have nonneg := y.magnitude.value_nonneg
    calc |q - x.magnitude.value| < q + y.magnitude.value := by linarith
      _ ≤ |q + y.magnitude.value| := le_abs_self _

theorem exponent_of_large (number : x.isNaN = false) (finite : x.isInf = false)
    (large : (2 : ℚ) ^ (-6 : ℤ) ≤ x.magnitude.value) :
    -29 ≤ x.magnitude.exponent ∧ 2 ^ 23 ≤ x.magnitude.mantissa := by
  obtain ⟨short, -, -, normal, -⟩ := magnitude_of_finite number finite
  have fine : -29 ≤ x.magnitude.exponent := by
    by_contra fine
    refine absurd large (not_le.2 ?_)
    calc x.magnitude.value ≤ x.magnitude.mantissa * 2 ^ (-30 : ℤ) := by
          unfold Magnitude.value
          gcongr
          · exact one_le_two
          · omega
      _ < 2 ^ 24 * 2 ^ (-30 : ℤ) := by
        gcongr
        exact_mod_cast short
      _ = 2 ^ (-6 : ℤ) := by norm_num
  exact ⟨fine, normal.resolve_right (by omega)⟩

/-- A power of two of at most nine binary places has at most nine decimal ones. -/
theorem power_rounded {k : ℤ} (few : -9 ≤ k) {n : Nat} (rounded : IsRounded (2 ^ k * 10 ^ 9) n) :
    (n : ℚ) / 10 ^ 9 = 2 ^ k := by
  obtain ⟨j, exponent⟩ := Int.eq_ofNat_of_zero_le (show 0 ≤ k + 9 by omega)
  have whole : (2 : ℚ) ^ k * 10 ^ 9 = (2 ^ j * 5 ^ 9 : Nat) := by
    rw [show k = (j : ℤ) - 9 by omega, zpow_sub₀ two_ne_zero, zpow_natCast]
    push_cast
    norm_num
    ring
  rw [whole] at rounded
  have exact : (n : ℤ) = (2 ^ j * 5 ^ 9 : Nat) := rounded.eq_of_close (by norm_num)
  rw [Int.ofNat_inj.1 exact, ← whole, mul_div_cancel_right₀ _ (by norm_num)]

/-- Nine places are enough from `2 ^ -6` on. -/
theorem around_rounded (number : x.isNaN = false) (finite : x.isInf = false)
    (large : (2 : ℚ) ^ (-6 : ℤ) ≤ x.magnitude.value) {n : Nat}
    (rounded : IsRounded (x.magnitude.value * 10 ^ 9) n) : x.Around (n / 10 ^ 9) := by
  obtain ⟨fine, long⟩ := exponent_of_large number finite large
  have power := unit_power x.magnitude.exponent
  have half : (2 : ℚ) ^ (-30 : ℤ) ≤ 2 ^ (x.magnitude.exponent - 1) :=
    zpow_le_zpow_right₀ one_le_two (by omega)
  have error : |(n : ℚ) / 10 ^ 9 - x.magnitude.value| ≤ 1 / 2 / 10 ^ 9 := by
    have gap : (n : ℚ) / 10 ^ 9 - x.magnitude.value =
        (n - x.magnitude.value * 10 ^ 9) / 10 ^ 9 := by ring
    rw [gap, abs_div, abs_sub_comm, abs_of_pos (show (0 : ℚ) < 10 ^ 9 by norm_num)]
    gcongr
    exact_mod_cast rounded.1
  have tiny : (1 : ℚ) / 2 / 10 ^ 9 < 2 ^ (-30 : ℤ) := by norm_num
  refine ⟨long, ?_, error.trans_lt (tiny.trans_le half)⟩
  rcases Nat.lt_or_eq_of_le long with more | full
  · have above : (2 : ℚ) ^ (x.magnitude.exponent + 23) + 2 ^ x.magnitude.exponent ≤
        x.magnitude.value := by
      rw [power, ← add_one_mul]
      unfold Magnitude.value
      gcongr
      exact_mod_cast more
    have finer : 1 / 2 / 10 ^ 9 < (2 : ℚ) ^ x.magnitude.exponent :=
      tiny.trans_le (zpow_le_zpow_right₀ one_le_two (by omega))
    linarith [(abs_le.1 error).1]
  · -- The number is the power of two itself, which nine places hold exactly.
    have value : x.magnitude.value = 2 ^ (x.magnitude.exponent + 23) := by
      rw [power, Magnitude.value, ← full]
      norm_num
    rw [value] at rounded
    exact (power_rounded (by omega) rounded).ge

end Single

end EscapeTime
