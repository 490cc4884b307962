import EscapeTime.Proofs.Number.Sign

/-!
# Rounding

Bounds on the rounded quotient, and with them on the single precision number nearest to a whole
number: it has the sign of the whole number, is finite for every word, and is at least one for every
positive word.
-/

namespace EscapeTime

namespace Number

theorem divRound_mem (a b : Nat) : a / b ≤ divRound a b ∧ divRound a b ≤ a / b + 1 := by
  unfold divRound
  dsimp only
  split_ifs <;> omega

theorem divRound_one (a : Nat) : divRound a 1 = a := by
  simp [divRound, Nat.mod_one]

theorem divRound_pos (a b : Nat) (pos : 0 < b) : 0 < divRound a b ↔ b < 2 * a := by
  have split := Nat.div_add_mod a b
  have rest := Nat.mod_lt a pos
  unfold divRound
  rcases Nat.eq_zero_or_pos (a / b) with none | some
  · rw [none] at split ⊢
    dsimp only
    split_ifs <;> omega
  · have large : b ≤ b * (a / b) := Nat.le_mul_of_pos_right b some
    dsimp only
    split_ifs <;> omega

theorem lt_divRound_iff {a b q : Nat} (pos : 0 < b) (odd : q % 2 = 1) :
    q < divRound a b ↔ (2 * q + 1) * b ≤ 2 * a := by
  have split := Nat.div_add_mod a b
  have rest := Nat.mod_lt a pos
  have bounds := divRound_mem a b
  rcases Nat.lt_trichotomy (a / b) q with less | equal | more
  · have far : b * (a / b + 1) ≤ b * q := Nat.mul_le_mul_left b less
    rw [Nat.mul_add, Nat.mul_one] at far
    rw [Nat.add_mul, Nat.one_mul, Nat.mul_assoc, Nat.mul_comm q b]
    omega
  · -- Just above an odd whole number a tie goes up.
    rw [← equal] at odd ⊢
    rw [Nat.add_mul, Nat.one_mul, Nat.mul_assoc, Nat.mul_comm (a / b) b]
    unfold divRound
    dsimp only
    split_ifs <;> omega
  · have far : b * (q + 1) ≤ b * (a / b) := Nat.mul_le_mul_left b more
    rw [Nat.mul_add, Nat.mul_one] at far
    rw [Nat.add_mul, Nat.one_mul, Nat.mul_assoc, Nat.mul_comm q b]
    omega

/-- The exact number. -/
def Magnitude.value (m : Magnitude) : ℚ :=
  m.mantissa * 2 ^ m.exponent

theorem Magnitude.ratio_eq (m : Magnitude) :
    0 < m.ratio.2 ∧ m.value = (m.ratio.1 : ℚ) / m.ratio.2 := by
  unfold Magnitude.ratio Magnitude.value
  by_cases whole : 0 ≤ m.exponent
  · obtain ⟨e, exponent⟩ := Int.eq_ofNat_of_zero_le whole
    rw [if_pos whole, exponent]
    simp
  · obtain ⟨e, exponent⟩ := Int.eq_ofNat_of_zero_le (show 0 ≤ -m.exponent by omega)
    have opposite : m.exponent = -(e : Int) := by omega
    rw [if_neg whole, exponent, opposite]
    simp [div_eq_mul_inv]

/-! ### The number nearest to a whole number -/

theorem floorLog2_one {n : Nat} (pos : 0 < n) : floorLog2 n 1 = n.log2 := by
  have fits : 1 * Nat.pow 2 n.log2 ≤ n := by
    rw [Nat.one_mul]
    exact Nat.log2_self_le (by omega)
  have exponent : (n.log2 : Int) - (Nat.log2 1 : Nat) = n.log2 := by
    rw [show Nat.log2 1 = 0 by decide]
    omega
  unfold floorLog2
  rw [exponent]
  simp only [Int.natCast_nonneg, if_true, Int.toNat_natCast, fits]

/-- Before it is held below infinity, the mantissa of a whole number has 24 bits, or is the power
after them. -/
theorem nearest_whole {n : Nat} (pos : 0 < n) :
    ∃ mantissa, 2 ^ 23 ≤ mantissa ∧ mantissa ≤ 2 ^ 24 ∧
      binary32.nearest n 1 = min 0x7f800000 ((n.log2 + 126) * 2 ^ 23 + mantissa) := by
  have low : 2 ^ n.log2 ≤ n := Nat.log2_self_le (by omega)
  have high : n < 2 ^ (n.log2 + 1) := Nat.lt_log2_self
  have exponent : max ((n.log2 : Int) - 23) (-149) = n.log2 - 23 := by omega
  have field : ((n.log2 : Int) - 23 + 149).toNat = n.log2 + 126 := by omega
  have bits : binary32.nearest n 1 = min 0x7f800000 ((n.log2 + 126) * 2 ^ 23 +
      if (0 : Int) ≤ n.log2 - 23 then divRound n (1 * 2 ^ ((n.log2 : Int) - 23).toNat)
      else divRound (n * 2 ^ (-((n.log2 : Int) - 23)).toNat) 1) := by
    rw [BinaryFormat.nearest, if_neg (by omega), floorLog2_one pos]
    show min _ ((max ((n.log2 : Int) - 23) (-149) + 149).toNat * 2 ^ 23 +
      if 0 ≤ max ((n.log2 : Int) - 23) (-149) then
        divRound n (1 * 2 ^ (max ((n.log2 : Int) - 23) (-149)).toNat)
      else divRound (n * 2 ^ (-max ((n.log2 : Int) - 23) (-149)).toNat) 1) = _
    rw [exponent, field]
    rfl
  by_cases large : 23 ≤ n.log2
  · have shift : ((n.log2 : Int) - 23).toNat = n.log2 - 23 := by omega
    rw [if_pos (by omega), shift, Nat.one_mul] at bits
    refine ⟨_, ?_, ?_, bits⟩
    · refine Nat.le_trans ?_ (divRound_mem ..).1
      rw [Nat.le_div_iff_mul_le (by positivity), ← pow_add, Nat.add_sub_cancel' large]
      exact low
    · refine Nat.le_trans (divRound_mem ..).2 ?_
      rw [Nat.succ_le_iff, Nat.div_lt_iff_lt_mul (by positivity), ← pow_add]
      rwa [show 24 + (n.log2 - 23) = n.log2 + 1 by omega]
  · have shift : (-((n.log2 : Int) - 23)).toNat = 23 - n.log2 := by omega
    rw [if_neg (by omega), shift, divRound_one] at bits
    refine ⟨_, ?_, ?_, bits⟩
    · calc 2 ^ 23 = 2 ^ n.log2 * 2 ^ (23 - n.log2) := by rw [← pow_add]; congr 1; omega
        _ ≤ n * 2 ^ (23 - n.log2) := Nat.mul_le_mul_right _ low
    · calc n * 2 ^ (23 - n.log2) ≤ 2 ^ (n.log2 + 1) * 2 ^ (23 - n.log2) :=
          Nat.mul_le_mul_right _ high.le
        _ = 2 ^ 24 := by rw [← pow_add]; congr 1; omega

theorem nearest_le (num den : Nat) : binary32.nearest num den ≤ 0x7f800000 := by
  unfold BinaryFormat.nearest
  split
  · exact Nat.zero_le _
  · exact Nat.min_le_left ..

theorem one_le_value {bits : Nat} (large : 127 * 2 ^ 23 ≤ bits) :
    1 ≤ (binary32.magnitude bits).value := by
  have field : 127 ≤ bits / 2 ^ 23 := by omega
  have magnitude : binary32.magnitude bits =
      ⟨bits % 2 ^ 23 + 2 ^ 23, (bits / 2 ^ 23 : Nat) - 1 - 149⟩ :=
    if_neg (by show bits / 2 ^ 23 ≠ 0; omega)
  rw [magnitude, Magnitude.value]
  calc (1 : ℚ) = 2 ^ 23 * 2 ^ (-23 : ℤ) := by norm_num
    _ ≤ ((bits % 2 ^ 23 + 2 ^ 23 : Nat) : ℚ) * 2 ^ (((bits / 2 ^ 23 : Nat) : ℤ) - 1 - 149) := by
      gcongr
      · push_cast
        have : (0 : ℚ) ≤ ((bits % 2 ^ 23 : Nat) : ℚ) := by positivity
        linarith
      · norm_num
      · omega

end Number

namespace Single

open Number

theorem toNat_ofSignBits (negative : Bool) {bits : Nat} (small : bits < 2 ^ 31) :
    (ofSignBits negative bits).bits.toNat = bits + if negative then 2 ^ 31 else 0 := by
  rw [ofSignBits, UInt32.toNat_ofNat']
  refine Nat.mod_eq_of_lt ?_
  cases negative
  · show bits + 0 < 2 ^ 32
    omega
  · show bits + 2 ^ 31 < 2 ^ 32
    omega

theorem isNegative_ofInt (n : Int) : (ofInt n).isNegative = decide (n < 0) := by
  have small := nearest_le n.natAbs 1
  rw [Bool.eq_iff_iff, isNegative_iff, ofInt, ofRatio, toNat_ofSignBits _ (by omega)]
  by_cases negative : n < 0
  · simp [negative]
  · simp only [negative, decide_false, Bool.false_eq_true, if_false, iff_false]
    omega

/-- A positive word is near to a finite number that is at least one. -/
theorem ofInt_pos {n : Int} (pos : 0 < n) (word : n < 2 ^ 63) :
    (ofInt n).isNaN = false ∧ (ofInt n).isInf = false ∧ 1 ≤ (ofInt n).magnitude.value := by
  obtain ⟨mantissa, low, high, nearest⟩ := nearest_whole (show 0 < n.natAbs by omega)
  have length : n.natAbs.log2 < 63 := (Nat.log2_lt (by omega)).2 (by omega)
  have bits : (ofInt n).bits.toNat = (n.natAbs.log2 + 126) * 2 ^ 23 + mantissa := by
    rw [ofInt, ofRatio, toNat_ofSignBits _ (by rw [nearest]; omega), nearest,
      if_neg (by simp; omega)]
    omega
  have number := isNaN_iff (ofInt n)
  have finite := isInf_iff (ofInt n)
  rw [bits] at number finite
  refine ⟨?_, ?_, ?_⟩
  · rw [← Bool.not_eq_true, number]
    omega
  · rw [← Bool.not_eq_true, finite]
    omega
  · refine one_le_value ?_
    rw [bits]
    show _ ≤ _ % 2 ^ 31
    omega

end Single

end EscapeTime
