import EscapeTime.Proofs.Number.Arithmetic

/-!
# Halving

Division by two and multiplication by one half give the same bits, also where the half of a number
has to be rounded.
-/

namespace EscapeTime

namespace Number

open Float.Model Float.Model.UnpackedFloat

theorem extends_fraction (a : Nat) {b : Nat} (pos : 0 < b) :
    Extends (.ofMantissaAndAccuracy (a / b) (accuracyOfFraction (a % b) b)) a b := by
  have rest := Nat.mod_lt a pos
  unfold accuracyOfFraction
  by_cases none : a % b = 0
  · rw [if_pos none]
    refine ⟨rfl, ?_, ?_⟩
    · simp only [ExtendedMantissa.ofMantissaAndAccuracy, Bool.false_eq_true, false_iff]
      omega
    · simp [ExtendedMantissa.ofMantissaAndAccuracy, none]
  · rw [if_neg none]
    rcases Nat.lt_trichotomy (2 * (a % b)) b with less | equal | more
    · rw [Nat.compare_eq_lt.2 less]
      refine ⟨rfl, ?_, ?_⟩
      · simp only [ExtendedMantissa.ofMantissaAndAccuracy, Bool.false_eq_true, false_iff]
        omega
      · simp only [ExtendedMantissa.ofMantissaAndAccuracy, true_iff, Nat.mod_eq_of_lt less]
        omega
    · rw [Nat.compare_eq_eq.2 equal]
      refine ⟨rfl, ?_, ?_⟩
      · simp only [ExtendedMantissa.ofMantissaAndAccuracy, true_iff]
        omega
      · simp [ExtendedMantissa.ofMantissaAndAccuracy, equal]
    · rw [Nat.compare_eq_gt.2 more]
      refine ⟨rfl, ?_, ?_⟩
      · simp only [ExtendedMantissa.ofMantissaAndAccuracy, true_iff]
        omega
      · simp only [ExtendedMantissa.ofMantissaAndAccuracy, true_iff]
        rw [Nat.mod_eq_sub_mod more.le, Nat.mod_eq_of_lt (by omega)]
        omega

/-- The unit of the quotient by two is the one of the half. -/
theorem unit_half {m : Nat} {e t : Int} (pos : 0 < m) (short : m < 2 ^ 24) (low : -149 ≤ e)
    (target : max ((m.log2 : Int) + e - 25) (-149) = t) :
    Magnitude.unit ⟨m * 2 ^ (e + 22 - t).toNat / 2 ^ 23, t⟩ = Magnitude.unit ⟨m, e - 1⟩ := by
  have length : m.log2 < 24 := (Nat.log2_lt pos.ne').2 short
  have half : Magnitude.unit ⟨m, e - 1⟩ = max ((m.log2 : Int) + (e - 1) - 23) (-149) := rfl
  have quotient (q : Nat) : Magnitude.unit ⟨q, t⟩ = max ((q.log2 : Int) + t - 23) (-149) := rfl
  rw [half, quotient]
  by_cases least : e = -149
  · have small : m * 2 ^ (e + 22 - t).toNat / 2 ^ 23 < 2 ^ 23 := by
      rw [show (e + 22 - t).toNat = 22 by omega]
      omega
    have few : (m * 2 ^ (e + 22 - t).toNat / 2 ^ 23).log2 < 23 := by
      by_cases none : m * 2 ^ (e + 22 - t).toNat / 2 ^ 23 = 0
      · rw [none]
        decide
      · exact (Nat.log2_lt none).2 small
    omega
  · obtain ⟨k, shift⟩ := Int.eq_ofNat_of_zero_le (show 0 ≤ e + 22 - t - 23 by omega)
    have whole : m * 2 ^ (e + 22 - t).toNat / 2 ^ 23 = m * 2 ^ k := by
      rw [show (e + 22 - t).toNat = k + 23 by omega, pow_add, ← Nat.mul_assoc,
        Nat.mul_div_cancel _ (by decide)]
    rw [whole, log2_mul_pow pos]
    push_cast
    omega

theorem divCore_eq (m₁ m₂ : Nat) (e₁ e₂ : Int) {t : Int}
    (target : min (e₁ - e₂) (max ((m₁.log2 : Int) + e₁ - (m₂.log2 + e₂) - 24) (-149)) = t) :
    divCore Format.binary32 m₁ e₁ m₂ e₂ =
      (m₁ * 2 ^ (e₁ - e₂ - t).toNat / m₂, t,
        accuracyOfFraction (m₁ * 2 ^ (e₁ - e₂ - t).toNat % m₂) m₂) := by
  have exponent : min (e₁ - e₂)
      (Format.binary32.targetExponent (totalExponent m₁ e₁ - totalExponent m₂ e₂)) = t := by
    have unfolded : Format.binary32.targetExponent (totalExponent m₁ e₁ - totalExponent m₂ e₂) =
        max ((m₁.log2 : Int) + 1 + e₁ - (m₂.log2 + 1 + e₂) - 24) (-149) := rfl
    rw [unfolded, ← target]
    congr 2
    omega
  unfold divCore
  dsimp only
  rw [exponent, Nat.shiftLeft_eq]

/-- The quotient by two is rounded to the number nearest to the half. -/
theorem toNat_pack_div_two (s : Sign) {m : Nat} {e : Int} (pos : 0 < m) (short : m < 2 ^ 24)
    (low : -149 ≤ e) (two : 0 < 2 ^ 23) :
    (pack Format.binary32 (UnpackedFloat.div Format.binary32 (.finite s m e pos)
      (.finite .positive (2 ^ 23) (-22) two))).toNat =
      s.toBitVec.toNat * 2 ^ 31 +
        binary32.nearest (Magnitude.ratio ⟨m, e - 1⟩).1 (Magnitude.ratio ⟨m, e - 1⟩).2 := by
  have length : m.log2 < 24 := (Nat.log2_lt pos.ne').2 short
  obtain ⟨t, target⟩ : ∃ t, max ((m.log2 : Int) + e - 25) (-149) = t := ⟨_, rfl⟩
  have half : Magnitude.unit ⟨m, e - 1⟩ = max ((m.log2 : Int) + (e - 1) - 23) (-149) := rfl
  have unit := unit_half pos short low target
  obtain ⟨most, least⟩ := Magnitude.inUnits_bounds ⟨m, e - 1⟩ pos
  have rounded : divRound (m * 2 ^ (e + 22 - t).toNat)
      (2 ^ 23 * 2 ^ (Magnitude.unit ⟨m, e - 1⟩ - t).toNat) = Magnitude.inUnits ⟨m, e - 1⟩ := by
    unfold Magnitude.inUnits
    dsimp only
    rw [← pow_add, ← Int.neg_sub (e - 1)]
    exact divRound_shift m (by omega)
  have division : UnpackedFloat.div Format.binary32 (.finite s m e pos)
      (.finite .positive (2 ^ 23) (-22) two) =
        roundWithAccuracy Format.binary32 s (m * 2 ^ (e + 22 - t).toNat / 2 ^ 23) t
          (accuracyOfFraction (m * 2 ^ (e + 22 - t).toNat % 2 ^ 23) (2 ^ 23)) := by
    have sign : s / Sign.positive = s := by cases s <;> rfl
    have quotient := divCore_eq m (2 ^ 23) e (-22) (t := t) (by rw [Nat.log2_two_pow]; omega)
    rw [Int.sub_neg] at quotient
    unfold UnpackedFloat.div
    dsimp only
    rw [quotient, sign]
  rw [division, Magnitude.nearest_ratio _ pos]
  exact toNat_pack_rounded s (extends_fraction _ (by decide)) (by decide) unit (by omega) rounded
    most least

end Number

namespace Single

open Number Float.Model Float.Model.UnpackedFloat

theorem proper_two : (2 : Single).Proper := by
  constructor <;> decide

theorem proper_half : (0.5 : Single).Proper := by
  constructor <;> decide

theorem magnitude_two : (2 : Single).magnitude = ⟨2 ^ 23, -22⟩ := by
  have bits : (2 : Single).bits.toNat % Nat.pow 2 31 = 127 * 2 ^ 23 + 2 ^ 23 := by decide
  rw [magnitude, bits]
  exact magnitude_normal 127 le_rfl (by decide)

theorem magnitude_half : (0.5 : Single).magnitude = ⟨2 ^ 23, -24⟩ := by
  have bits : (0.5 : Single).bits.toNat % Nat.pow 2 31 = 125 * 2 ^ 23 + 2 ^ 23 := by decide
  rw [magnitude, bits]
  exact magnitude_normal 125 le_rfl (by decide)

theorem unpacked_two : ∃ pos, (2 : Single).unpacked = .finite .positive (2 ^ 23) (-22) pos := by
  obtain ⟨pos, unpacks⟩ := proper_two.unpacked
  rw [show (2 : Single).sign = .positive from rfl] at unpacks
  simp only [magnitude_two] at unpacks
  exact ⟨by decide, unpacks⟩

theorem div_two_of_proper {x : Single} (proper : x.Proper) : x / 2 = 0.5 * x := by
  obtain ⟨pos, short, low, -⟩ := proper.magnitude_bounds
  obtain ⟨_, unpacks⟩ := proper.unpacked
  obtain ⟨two, unpacksTwo⟩ := unpacked_two
  have operation : x / 2 = ofFloat32 invalid ⟨Float32.Model.pack (UnpackedFloat.div Format.binary32
      x.toFloat32.toModel.unpack (2 : Single).toFloat32.toModel.unpack)⟩ :=
    arith_eq (· / ·) proper proper_two
  have product : (0.5 : Single).magnitude.product x.magnitude =
      ⟨x.magnitude.mantissa * 2 ^ 23, x.magnitude.exponent - 1 - (23 : Nat)⟩ := by
    rw [magnitude_half, Magnitude.product, Nat.mul_comm]
    congr 1
    show -24 + x.magnitude.exponent = _
    omega
  rw [operation, unpack_toFloat32, unpack_toFloat32, unpacks, unpacksTwo, mul_eq proper_half proper,
    product]
  refine ofFloat32_pack ?_ (isNaN_ofMagnitude ..) _
  rw [toNat_ofMagnitude, Magnitude.nearest_ratio_shift pos]
  refine (toNat_pack_div_two _ pos short low two).trans ?_
  rw [Nat.add_comm]
  refine congrArg _ ?_
  rw [show (0.5 : Single).isNegative = false by decide, sign]
  cases x.isNegative <;> rfl

theorem eq_of_toNat {x : Single} (bits : UInt32) (rest : x.bits.toNat % 2 ^ 31 = bits.toNat) :
    x = ⟨bits⟩ ∨ x = ⟨bits + 0x80000000⟩ := by
  have word := x.bits.toNat_lt
  have sum : (bits + 0x80000000).toNat = bits.toNat + 2 ^ 31 := by
    rw [UInt32.toNat_add]
    exact Nat.mod_eq_of_lt (by show bits.toNat + 2 ^ 31 < 2 ^ 32; omega)
  obtain ⟨code⟩ := x
  rcases Nat.lt_or_ge code.toNat (2 ^ 31) with plus | minus
  · exact .inl (congrArg mk (UInt32.toNat_inj.1 (by dsimp only at rest; omega)))
  · exact .inr (congrArg mk (UInt32.toNat_inj.1 (by dsimp only at rest word; omega)))

/-- Halves and quotients by two are the same, also of infinities and NaNs. -/
theorem div_two (x : Single) : x / 2 = 0.5 * x := by
  by_cases nan : x.isNaN = true
  · have half : ¬ (0.5 : Single).isNaN = true := by decide
    show arith (· / ·) x 2 = arith (· * ·) 0.5 x
    rw [arith, arith, if_pos nan, if_neg half, if_pos nan]
  by_cases inf : x.isInf = true
  · obtain rfl | rfl := eq_of_toNat 0x7f800000 ((isInf_iff x).1 inf)
    · decide
    · decide
  by_cases zero : x.isZero = true
  · obtain rfl | rfl := eq_of_toNat 0 ((isZero_iff x).1 zero)
    · decide
    · decide
  rw [Bool.not_eq_true] at nan inf zero
  exact div_two_of_proper ⟨nan, inf, zero⟩

end Single

end EscapeTime
