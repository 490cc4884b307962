import Mathlib
import EscapeTime.Number.Single

/-!
# The sign of a single precision number

Comparison goes through unpacked floats, and the sign, zero and NaN tests go through bits. Both give
the same answer: a number is at most zero when it is a zero or has its sign bit set.
-/

namespace EscapeTime.Single

open Float.Model Float.Model.UnpackedFloat

def unpacked (x : Single) : UnpackedFloat :=
  unpack Format.binary32 x.bits.toBitVec

def exponentField (x : Single) : BitVec 8 :=
  @unpackExponent Format.binary32 x.bits.toBitVec

/-- The mantissa field of a number, without the leading bit. -/
def mantissaField (x : Single) : BitVec 23 :=
  @unpackMantissa Format.binary32 x.bits.toBitVec

def sign (x : Single) : Sign :=
  if x.isNegative then .negative else .positive

/-! ### Tests on bits -/

theorem toNat_abs (x : Single) : (x.bits &&& 0x7fffffff).toNat = x.bits.toNat % 2 ^ 31 := by
  rw [UInt32.toNat_and]
  exact Nat.and_two_pow_sub_one_eq_mod x.bits.toNat 31

theorem isNaN_iff (x : Single) : x.isNaN = true ↔ 0x7f800000 < x.bits.toNat % 2 ^ 31 := by
  rw [isNaN, decide_eq_true_eq, UInt32.lt_iff_toNat_lt, toNat_abs]
  rfl

theorem isInf_iff (x : Single) : x.isInf = true ↔ x.bits.toNat % 2 ^ 31 = 0x7f800000 := by
  rw [isInf, beq_iff_eq, ← UInt32.toNat_inj, toNat_abs]
  rfl

theorem isZero_iff (x : Single) : x.isZero = true ↔ x.bits.toNat % 2 ^ 31 = 0 := by
  rw [isZero, beq_iff_eq, ← UInt32.toNat_inj, toNat_abs]
  rfl

theorem isNegative_iff (x : Single) : x.isNegative = true ↔ 2 ^ 31 ≤ x.bits.toNat := by
  rw [isNegative, decide_eq_true_eq, UInt32.le_iff_toNat_le]
  rfl

theorem toNat_exponentField (x : Single) : x.exponentField.toNat = x.bits.toNat / 2 ^ 23 % 2 ^ 8 := by
  rw [exponentField, unpackExponent_def, BitVec.extractLsb'_toNat, Nat.shiftRight_eq_div_pow]
  rfl

theorem toNat_mantissaField (x : Single) : x.mantissaField.toNat = x.bits.toNat % 2 ^ 23 := by
  rw [mantissaField, unpackMantissa_def, BitVec.extractLsb'_toNat, Nat.shiftRight_eq_div_pow]
  simp

theorem ofBitVec_sign (x : Single) :
    Sign.ofBitVec (@unpackSign Format.binary32 x.bits.toBitVec) = x.sign := by
  have bit : (@unpackSign Format.binary32 x.bits.toBitVec).toNat = x.bits.toNat / 2 ^ 31 % 2 := by
    rw [unpackSign_def, BitVec.extractLsb'_toNat, Nat.shiftRight_eq_div_pow]
    rfl
  have bounded := x.bits.toNat_lt
  unfold Sign.ofBitVec sign
  simp only [← BitVec.toNat_inj, bit]
  by_cases negative : x.isNegative = true
  · have := (isNegative_iff x).1 negative
    rw [if_neg (by simp; omega), if_pos negative]
  · have := mt (isNegative_iff x).2 negative
    rw [if_pos (by simp; omega), if_neg negative]

theorem exponentField_eq_ones (x : Single) :
    x.exponentField = -1#8 ↔ 0x7f800000 ≤ x.bits.toNat % 2 ^ 31 := by
  rw [← BitVec.toNat_inj, toNat_exponentField]
  have : (-1#8).toNat = 255 := rfl
  omega

theorem exponentField_eq_zero (x : Single) :
    x.exponentField = 0#8 ↔ x.bits.toNat % 2 ^ 31 < 2 ^ 23 := by
  rw [← BitVec.toNat_inj, toNat_exponentField]
  have : (0#8).toNat = 0 := rfl
  omega

theorem mantissaField_eq_zero (x : Single) : x.mantissaField = 0#23 ↔ x.bits.toNat % 2 ^ 23 = 0 := by
  rw [← BitVec.toNat_inj, toNat_mantissaField]
  rfl

/-! ### Unpacked numbers -/

theorem unpacked_of_ones (x : Single) (ones : x.exponentField = -1#8) :
    x.unpacked = if x.mantissaField = 0#23 then .infinity x.sign else .notANumber := by
  rw [← ofBitVec_sign]
  exact if_pos ones

theorem unpacked_of_not_ones (x : Single) (ones : x.exponentField ≠ -1#8) :
    (x.exponentField = 0#8 ∧ x.mantissaField = 0#23 ∧ x.unpacked = .zero x.sign) ∨
    ((x.exponentField ≠ 0#8 ∨ x.mantissaField ≠ 0#23) ∧
      ∃ m e pos, x.unpacked = .finite x.sign m e pos) := by
  rw [← ofBitVec_sign]
  by_cases exponent : x.exponentField = 0#8
  · by_cases mantissa : x.mantissaField = 0#23
    · exact .inl ⟨exponent, mantissa,
        (if_neg ones).trans ((if_pos exponent).trans (dif_pos mantissa))⟩
    · exact .inr ⟨.inr mantissa, _, _, _,
        (if_neg ones).trans ((if_pos exponent).trans (dif_neg mantissa))⟩
  · exact .inr ⟨.inl exponent, _, _, _, (if_neg ones).trans (if_neg exponent)⟩

/-- A number that is neither zero nor NaN unpacks to one of its own sign. -/
theorem unpacked_cases (x : Single) :
    (x.isNaN = true ∧ x.unpacked = .notANumber) ∨
    (x.isNaN = false ∧ x.isZero = true ∧ x.unpacked = .zero x.sign) ∨
    (x.isNaN = false ∧ x.isZero = false ∧
      (x.unpacked = .infinity x.sign ∨ ∃ m e pos, x.unpacked = .finite x.sign m e pos)) := by
  simp only [← Bool.not_eq_true, isNaN_iff, isZero_iff]
  by_cases ones : x.exponentField = -1#8
  · have large := (exponentField_eq_ones x).1 ones
    rw [unpacked_of_ones x ones]
    by_cases mantissa : x.mantissaField = 0#23
    · have := (mantissaField_eq_zero x).1 mantissa
      rw [if_pos mantissa]
      exact .inr (.inr ⟨by omega, by omega, .inl rfl⟩)
    · have := mt (mantissaField_eq_zero x).2 mantissa
      rw [if_neg mantissa]
      exact .inl ⟨by omega, rfl⟩
  · have small := mt (exponentField_eq_ones x).2 ones
    rcases unpacked_of_not_ones x ones with ⟨exponent, mantissa, unpacks⟩ | ⟨nonzero, unpacks⟩
    · rw [exponentField_eq_zero] at exponent
      rw [mantissaField_eq_zero] at mantissa
      exact .inr (.inl ⟨by omega, by omega, unpacks⟩)
    · rw [ne_eq, exponentField_eq_zero, ne_eq, mantissaField_eq_zero] at nonzero
      exact .inr (.inr ⟨by omega, by omega, .inr unpacks⟩)

/-- Reading the bits as a machine number loses at most the payload of a NaN. -/
theorem unpack_toFloat32 (x : Single) : x.toFloat32.toModel.unpack = x.unpacked := by
  show unpack Format.binary32 (pack Format.binary32 x.unpacked) = x.unpacked
  rw [unpacked, pack_unpack]
  split
  · rename_i notNumber
    have ⟨ones, mantissa⟩ : x.exponentField = -1#8 ∧ x.mantissaField ≠ 0#23 := by
      simpa only [isNaNBits, decide_eq_true_eq, exponentField, mantissaField] using notNumber
    rw [unpack_packedNaN]
    exact ((unpacked_of_ones x ones).trans (if_neg mantissa)).symm
  · rfl

/-! ### Comparison with zero -/

theorem unpacked_zero : (0 : Single).unpacked = .zero .positive := by
  obtain ⟨_, _⟩ | ⟨_, _, unpacks⟩ | ⟨_, _, _⟩ := unpacked_cases 0
  · contradiction
  · exact unpacks
  · contradiction

theorem le_zero_iff (x : Single) :
    x ≤ 0 ↔ x.isNaN = false ∧ (x.isZero = true ∨ x.isNegative = true) := by
  have order : x ≤ 0 ↔ x.unpacked.le (.zero .positive) = true := by
    rw [← unpacked_zero, ← unpack_toFloat32, ← unpack_toFloat32]
    exact decide_eq_true_iff
  rw [order]
  rcases unpacked_cases x with ⟨nan, unpacks⟩ | ⟨number, zero, unpacks⟩ | ⟨number, nonzero, unpacks⟩
  · simp [unpacks, nan, UnpackedFloat.le, UnpackedFloat.compare]
  · simp [unpacks, number, zero, UnpackedFloat.le, UnpackedFloat.compare]
  · rw [sign] at unpacks
    rcases unpacks with unpacks | ⟨m, e, pos, unpacks⟩ <;>
      cases negative : x.isNegative <;>
      simp [unpacks, number, nonzero, negative, UnpackedFloat.le, UnpackedFloat.compare]

theorem zero_lt_iff (x : Single) :
    0 < x ↔ x.isNaN = false ∧ x.isZero = false ∧ x.isNegative = false := by
  have order : 0 < x ↔ UnpackedFloat.lt (.zero .positive) x.unpacked = true := by
    rw [← unpacked_zero, ← unpack_toFloat32, ← unpack_toFloat32]
    exact decide_eq_true_iff
  rw [order]
  rcases unpacked_cases x with ⟨nan, unpacks⟩ | ⟨number, zero, unpacks⟩ | ⟨number, nonzero, unpacks⟩
  · simp [unpacks, nan, UnpackedFloat.lt, UnpackedFloat.compare]
  · simp [unpacks, number, zero, UnpackedFloat.lt, UnpackedFloat.compare]
  · rw [sign] at unpacks
    rcases unpacks with unpacks | ⟨m, e, pos, unpacks⟩ <;>
      cases negative : x.isNegative <;>
      simp [unpacks, number, nonzero, negative, UnpackedFloat.lt, UnpackedFloat.compare]

theorem not_le_zero {x : Single} (positive : 0 < x) : ¬ x ≤ 0 := by
  obtain ⟨-, nonzero, plus⟩ := (zero_lt_iff x).1 positive
  rw [le_zero_iff, nonzero, plus]
  simp

end EscapeTime.Single
