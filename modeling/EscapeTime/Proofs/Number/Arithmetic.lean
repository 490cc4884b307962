import EscapeTime.Proofs.Number.Rounding

/-!
# Sums and products

A float operation works on unpacked mantissas, shifts them with a round and a sticky bit and packs
the result. What comes out is the number nearest to the exact result, as `BinaryFormat.nearest`
gives it for a quotient.
-/

namespace EscapeTime

namespace Number

/-! ### Quotients of powers of two -/

theorem divRound_mul_right (a b : Nat) {k : Nat} (pos : 0 < k) :
    divRound (a * k) (b * k) = divRound a b := by
  have below : 2 * (a % b * k) < b * k ↔ 2 * (a % b) < b := by
    rw [← Nat.mul_assoc, Nat.mul_lt_mul_right pos]
  have above : b * k < 2 * (a % b * k) ↔ b < 2 * (a % b) := by
    rw [← Nat.mul_assoc, Nat.mul_lt_mul_right pos]
  simp only [divRound, Nat.mul_div_mul_right _ _ pos, Nat.mul_mod_mul_right, below, above]

/-- Only the difference of the two exponents matters. -/
theorem divRound_shift (m : Nat) {a b : Nat} {c : Int} (shift : (a : Int) - b = c) :
    divRound (m * 2 ^ a) (2 ^ b) = divRound (m * 2 ^ c.toNat) (2 ^ (-c).toNat) := by
  have top : a = c.toNat + min a b := by omega
  have bottom : b = (-c).toNat + min a b := by omega
  rw [← divRound_mul_right (m * 2 ^ c.toNat) _ (show 0 < 2 ^ min a b by positivity), Nat.mul_assoc,
    ← pow_add, ← pow_add, ← top, ← bottom]

theorem log2_mul_pow {m : Nat} (pos : 0 < m) (k : Nat) : (m * 2 ^ k).log2 = m.log2 + k := by
  rw [Nat.log2_eq_iff (by positivity)]
  constructor
  · rw [pow_add]
    exact Nat.mul_le_mul_right _ (Nat.log2_self_le (by omega))
  · rw [Nat.add_right_comm, pow_add]
    exact Nat.mul_lt_mul_of_pos_right Nat.lt_log2_self (by positivity)

/-! ### The unit of a magnitude -/

namespace Magnitude

/-- The exponent of the last bit that the format keeps of a magnitude. -/
def unit (x : Magnitude) : Int :=
  max (x.mantissa.log2 + x.exponent - 23) (-149)

/-- The magnitude in its unit, rounded to a whole number. -/
def inUnits (x : Magnitude) : Nat :=
  divRound (x.mantissa * 2 ^ (x.exponent - x.unit).toNat) (2 ^ (x.unit - x.exponent).toNat)

theorem floorLog2_ratio (x : Magnitude) (pos : 0 < x.mantissa) :
    floorLog2 x.ratio.1 x.ratio.2 = x.mantissa.log2 + x.exponent := by
  have low : 2 ^ x.mantissa.log2 ≤ x.mantissa := Nat.log2_self_le (by omega)
  unfold ratio
  by_cases whole : 0 ≤ x.exponent
  · rw [if_pos whole]
    show floorLog2 (x.mantissa * 2 ^ x.exponent.toNat) 1 = _
    rw [floorLog2_one (by positivity), log2_mul_pow pos]
    omega
  · obtain ⟨k, exponent⟩ := Int.eq_ofNat_of_zero_le (show 0 ≤ -x.exponent by omega)
    rw [if_neg whole, exponent, Int.toNat_natCast]
    show floorLog2 x.mantissa (2 ^ k) = _
    have fits : if 0 ≤ (x.mantissa.log2 : Int) - (k : Nat)
        then 2 ^ k * 2 ^ ((x.mantissa.log2 : Int) - (k : Nat)).toNat ≤ x.mantissa
        else 2 ^ k ≤ x.mantissa * 2 ^ (-((x.mantissa.log2 : Int) - (k : Nat))).toNat := by
      split
      · rw [← pow_add,
          show k + ((x.mantissa.log2 : Int) - (k : Nat)).toNat = x.mantissa.log2 by omega]
        exact low
      · calc 2 ^ k = 2 ^ x.mantissa.log2 * 2 ^ (-((x.mantissa.log2 : Int) - (k : Nat))).toNat := by
              rw [← pow_add]
              congr 1
              omega
          _ ≤ _ := Nat.mul_le_mul_right _ low
    unfold floorLog2
    rw [Nat.log2_two_pow]
    refine (if_pos fits).trans ?_
    omega

theorem nearest_ratio (x : Magnitude) (pos : 0 < x.mantissa) :
    binary32.nearest x.ratio.1 x.ratio.2 =
      min 0x7f800000 ((x.unit + 149).toNat * 2 ^ 23 + x.inUnits) := by
  have nonzero : x.ratio.1 ≠ 0 := by
    unfold ratio
    split
    · show x.mantissa * 2 ^ _ ≠ 0
      positivity
    · exact pos.ne'
  have bits : binary32.nearest x.ratio.1 x.ratio.2 = min 0x7f800000 ((x.unit + 149).toNat * 2 ^ 23 +
      if 0 ≤ x.unit then divRound x.ratio.1 (x.ratio.2 * 2 ^ x.unit.toNat)
      else divRound (x.ratio.1 * 2 ^ (-x.unit).toNat) x.ratio.2) := by
    rw [BinaryFormat.nearest, if_neg nonzero, floorLog2_ratio x pos]
    rfl
  rw [bits]
  congr 2
  have down : -(x.exponent - x.unit) = x.unit - x.exponent := by omega
  unfold inUnits ratio
  rw [← down]
  -- In each case the quotient is the mantissa times a power of two over another.
  split <;> split
  · show divRound (x.mantissa * 2 ^ _) (1 * 2 ^ _) = _
    rw [Nat.one_mul]
    exact divRound_shift _ (by omega)
  · show divRound x.mantissa (2 ^ _ * 2 ^ _) = _
    rw [← pow_add, ← divRound_shift x.mantissa (a := 0) (b := (-x.exponent).toNat + x.unit.toNat)
      (by omega), pow_zero, Nat.mul_one]
  · show divRound (x.mantissa * 2 ^ _ * 2 ^ _) 1 = _
    rw [Nat.mul_assoc, ← pow_add, ← divRound_shift x.mantissa (b := 0)
      (a := x.exponent.toNat + (-x.unit).toNat) (by omega), pow_zero]
  · exact divRound_shift x.mantissa (by omega)

theorem unit_shift {m : Nat} (pos : 0 < m) (e : Int) (k : Nat) :
    unit ⟨m * 2 ^ k, e - k⟩ = unit ⟨m, e⟩ := by
  show max (((m * 2 ^ k).log2 : Int) + (e - k) - 23) (-149) = max (m.log2 + e - 23) (-149)
  rw [log2_mul_pow pos]
  omega

theorem nearest_ratio_shift {m : Nat} (pos : 0 < m) (e : Int) (k : Nat) :
    binary32.nearest (ratio ⟨m * 2 ^ k, e - k⟩).1 (ratio ⟨m * 2 ^ k, e - k⟩).2 =
      binary32.nearest (ratio ⟨m, e⟩).1 (ratio ⟨m, e⟩).2 := by
  rw [nearest_ratio _ (Nat.mul_pos pos (by positivity)), nearest_ratio _ pos, unit_shift pos]
  congr 2
  unfold inUnits
  dsimp only
  rw [unit_shift pos, Nat.mul_assoc, ← pow_add, ← Int.neg_sub e]
  exact divRound_shift m (by omega)

theorem inUnits_bounds (x : Magnitude) (pos : 0 < x.mantissa) :
    x.inUnits ≤ 2 ^ 24 ∧ (2 ^ 23 ≤ x.inUnits ∨ x.unit = -149) := by
  have low : 2 ^ x.mantissa.log2 ≤ x.mantissa := Nat.log2_self_le (by omega)
  have high : x.mantissa < 2 ^ (x.mantissa.log2 + 1) := Nat.lt_log2_self
  have unit : x.unit = max (x.mantissa.log2 + x.exponent - 23) (-149) := rfl
  unfold inUnits
  have bounds := divRound_mem (x.mantissa * 2 ^ (x.exponent - x.unit).toNat)
    (2 ^ (x.unit - x.exponent).toNat)
  constructor
  · refine Nat.le_trans bounds.2 ?_
    rw [Nat.succ_le_iff, Nat.div_lt_iff_lt_mul (by positivity), ← pow_add]
    calc x.mantissa * 2 ^ (x.exponent - x.unit).toNat
        < 2 ^ (x.mantissa.log2 + 1) * 2 ^ (x.exponent - x.unit).toNat :=
          Nat.mul_lt_mul_of_pos_right high (by positivity)
      _ = 2 ^ (x.mantissa.log2 + 1 + (x.exponent - x.unit).toNat) := (pow_add ..).symm
      _ ≤ 2 ^ (24 + (x.unit - x.exponent).toNat) := Nat.pow_le_pow_right (by omega) (by omega)
  · by_cases least : x.unit = -149
    · exact .inr least
    refine .inl (Nat.le_trans ?_ bounds.1)
    rw [Nat.le_div_iff_mul_le (by positivity), ← pow_add]
    calc 2 ^ (23 + (x.unit - x.exponent).toNat)
        = 2 ^ (x.mantissa.log2 + (x.exponent - x.unit).toNat) := by
          congr 1
          omega
      _ = 2 ^ x.mantissa.log2 * 2 ^ (x.exponent - x.unit).toNat := pow_add ..
      _ ≤ _ := Nat.mul_le_mul_right _ low

/-- The exact product. -/
def product (x y : Magnitude) : Magnitude :=
  ⟨x.mantissa * y.mantissa, x.exponent + y.exponent⟩

/-- The product of two mantissas is as long as one of them, unless both exponents are the least. -/
theorem exponent_le_unit_product {x y : Magnitude} (xPos : 0 < x.mantissa) (yPos : 0 < y.mantissa)
    (xNormal : 2 ^ 23 ≤ x.mantissa ∨ x.exponent = -149)
    (yNormal : 2 ^ 23 ≤ y.mantissa ∨ y.exponent = -149) :
    x.exponent + y.exponent ≤ (x.product y).unit := by
  have unit : (x.product y).unit =
    max ((x.mantissa * y.mantissa).log2 + (x.exponent + y.exponent) - 23) (-149) := rfl
  by_cases least : x.exponent = -149 ∧ y.exponent = -149
  · omega
  · have long : 2 ^ 23 ≤ x.mantissa * y.mantissa := by
      by_cases xLong : 2 ^ 23 ≤ x.mantissa
      · exact Nat.le_trans xLong (Nat.le_mul_of_pos_right _ yPos)
      · exact Nat.le_trans (by omega) (Nat.le_mul_of_pos_left _ xPos)
    have bits : 23 ≤ (x.mantissa * y.mantissa).log2 :=
      (Nat.le_log2 (Nat.mul_pos xPos yPos).ne').2 long
    omega

/-- The exact sum, at the smaller exponent. -/
def sum (x y : Magnitude) : Magnitude :=
  let e := min x.exponent y.exponent
  ⟨x.mantissa * 2 ^ (x.exponent - e).toNat + y.mantissa * 2 ^ (y.exponent - e).toNat, e⟩

end Magnitude

theorem magnitude_normal (field : Nat) {m : Nat} (low : 2 ^ 23 ≤ m) (high : m < 2 ^ 24) :
    binary32.magnitude (field * 2 ^ 23 + m) = ⟨m, field - 149⟩ := by
  have exponent : (field * 2 ^ 23 + m) / 2 ^ 23 = field + 1 := by omega
  have mantissa : (field * 2 ^ 23 + m) % 2 ^ 23 + 2 ^ 23 = m := by omega
  show (if (field * 2 ^ 23 + m) / 2 ^ 23 = 0 then _ else
    (⟨(field * 2 ^ 23 + m) % 2 ^ 23 + 2 ^ 23,
      ((field * 2 ^ 23 + m) / 2 ^ 23 : Nat) - 1 - 149⟩ : Magnitude)) = _
  rw [exponent, mantissa, if_neg (Nat.succ_ne_zero field)]
  congr 1
  omega

open Float.Model Float.Model.UnpackedFloat

/-! ### Shifting with a round and a sticky bit -/

/-- The extended mantissa has the whole part of `a / b`, whether the rest is at least a half, and
whether it is anything else than nothing or a half. -/
structure Extends (em : ExtendedMantissa) (a b : Nat) : Prop where
  mantissa : em.mantissa = a / b
  roundBit : em.roundBit = true ↔ b ≤ 2 * (a % b)
  stickyBit : em.stickyBit = true ↔ 2 * (a % b) % b ≠ 0

theorem extends_exact (m : Nat) : Extends (.ofMantissaAndAccuracy m .exact) m 1 where
  mantissa := (Nat.div_one m).symm
  roundBit := by simp [ExtendedMantissa.ofMantissaAndAccuracy, Nat.mod_one]
  stickyBit := by simp [ExtendedMantissa.ofMantissaAndAccuracy, Nat.mod_one]

theorem Extends.shiftRightOne {em : ExtendedMantissa} {a b : Nat} (pos : 0 < b)
    (exact : Extends em a b) : Extends em.shiftRightOne a (b * 2) := by
  obtain ⟨mantissa, round, sticky⟩ := exact
  have rest := Nat.mod_lt a pos
  have split : a % (b * 2) = a % b + b * (a / b % 2) := Nat.mod_mul
  refine ⟨?_, ?_, ?_⟩
  · show em.mantissa / 2 = _
    rw [mantissa, Nat.div_div_eq_div_mul]
  · show (em.mantissa % 2 != 0) = true ↔ _
    rw [mantissa, split, bne_iff_ne]
    rcases Nat.mod_two_eq_zero_or_one (a / b) with even | odd
    · rw [even]
      omega
    · rw [odd]
      omega
  · show (em.roundBit || em.stickyBit) = true ↔ _
    have whole : 2 * (a % (b * 2)) % (b * 2) = 2 * (a % b) := by
      rw [split, show 2 * (a % b + b * (a / b % 2)) = 2 * (a % b) + b * 2 * (a / b % 2) by ring,
        Nat.add_mul_mod_self_left, Nat.mod_eq_of_lt (by omega)]
    rw [Bool.or_eq_true, round, sticky, whole]
    by_cases half : 2 * (a % b) < b
    · rw [Nat.mod_eq_of_lt half]
      omega
    · omega

theorem Extends.shiftRight {em : ExtendedMantissa} {a b : Nat} (pos : 0 < b)
    (exact : Extends em a b) (n : Nat) : Extends (em >>> n) a (b * 2 ^ n) := by
  show Extends (n.repeat ExtendedMantissa.shiftRightOne em) a (b * 2 ^ n)
  induction n with
  | zero =>
    rw [pow_zero, Nat.mul_one]
    exact exact
  | succ n ih =>
    rw [pow_succ, ← Nat.mul_assoc]
    exact ih.shiftRightOne (by positivity)

theorem Extends.roundedMantissa {em : ExtendedMantissa} {a b : Nat} (pos : 0 < b)
    (exact : Extends em a b) : em.roundedMantissa = divRound a b := by
  obtain ⟨mantissa, round, sticky⟩ := exact
  have rest := Nat.mod_lt a pos
  obtain ⟨m, r, s⟩ := em
  have tie : b ≤ 2 * (a % b) → 2 * (a % b) % b = 2 * (a % b) - b := fun half => by
    rw [Nat.mod_eq_sub_mod half, Nat.mod_eq_of_lt (by omega)]
  have small : 2 * (a % b) < b → 2 * (a % b) % b = 2 * (a % b) := Nat.mod_eq_of_lt
  unfold divRound
  dsimp only at mantissa round sticky ⊢
  rw [← mantissa]
  cases r <;> cases s <;>
    simp only [ExtendedMantissa.roundedMantissa, ExtendedMantissa.accuracy,
      Accuracy.roundToNearestEven, Bool.false_eq_true, false_iff, true_iff] at round sticky ⊢ <;>
    split_ifs <;> omega

/-! ### Rounding and packing -/

theorem targetExponent_eq (m : Nat) (e : Int) :
    Format.binary32.targetExponent (totalExponent m e) = Magnitude.unit ⟨m, e⟩ := by
  show max ((m.log2 : Int) + 1 + e - 24) (-149) = max (m.log2 + e - 23) (-149)
  omega

theorem shiftToTargetExponent_eq (m : Nat) (e : Int) (accuracy : Accuracy) :
    shiftToTargetExponent Format.binary32 m e accuracy =
      (ExtendedMantissa.ofMantissaAndAccuracy m accuracy >>> (Magnitude.unit ⟨m, e⟩ - e).toNat,
        e + (Magnitude.unit ⟨m, e⟩ - e).toNat) := by
  unfold shiftToTargetExponent
  rw [targetExponent_eq]
  rfl

/-- A mantissa that has bits below its unit, or none above, is rounded to zero or to a mantissa that
the format holds. -/
theorem roundWithAccuracy_cases (s : Sign) {m a b r : Nat} {e t : Int} {accuracy : Accuracy}
    (exact : Extends (.ofMantissaAndAccuracy m accuracy) a b) (pos : 0 < b)
    (unit : Magnitude.unit ⟨m, e⟩ = t) (fine : e ≤ t)
    (rounded : divRound a (b * 2 ^ (t - e).toNat) = r) (most : r ≤ 2 ^ 24)
    (least : 2 ^ 23 ≤ r ∨ t = -149) :
    (r = 0 ∧ roundWithAccuracy Format.binary32 s m e accuracy = .zero s) ∨
    ∃ m' e' pos', roundWithAccuracy Format.binary32 s m e accuracy = .finite s m' e' pos' ∧
      m' < 2 ^ 24 ∧ (2 ^ 23 ≤ m' ∨ e' = -149) ∧ -149 ≤ e' ∧
      (e' + 149).toNat * 2 ^ 23 + m' = (t + 149).toNat * 2 ^ 23 + r := by
  have low : -149 ≤ t := unit ▸ le_max_right ..
  have first : (ExtendedMantissa.ofMantissaAndAccuracy m accuracy >>>
      (t - e).toNat).roundedMantissa = r := by
    rw [(exact.shiftRight pos _).roundedMantissa (by positivity), rounded]
  unfold roundWithAccuracy
  rw [shiftToTargetExponent_eq]
  dsimp only
  rw [unit, first, show e + (t - e).toNat = t by omega, shiftToTargetExponent_eq]
  -- The mantissa is shifted once more where rounding made it a power of two too long.
  rcases Nat.lt_or_eq_of_le most with short | rfl
  · have stays : (Magnitude.unit ⟨r, t⟩ - t).toNat = 0 := by
      have length : r.log2 < 24 := by
        by_cases none : r = 0
        · simp [none]
        · exact (Nat.log2_lt none).2 short
      have unit : Magnitude.unit ⟨r, t⟩ = max ((r.log2 : Int) + t - 23) (-149) := rfl
      omega
    rw [stays]
    by_cases none : r = 0
    · exact .inl ⟨none, dif_pos none⟩
    · exact .inr ⟨r, t + (0 : Nat), Nat.pos_of_ne_zero none, dif_neg none, short, by omega,
        by omega, by omega⟩
  · have carries : (Magnitude.unit ⟨2 ^ 24, t⟩ - t).toNat = 1 := by
      have unit : Magnitude.unit ⟨2 ^ 24, t⟩ = max (((2 ^ 24).log2 : Int) + t - 23) (-149) := rfl
      rw [Nat.log2_two_pow] at unit
      omega
    rw [carries]
    exact .inr ⟨2 ^ 23, t + (1 : Nat), by decide, rfl, by decide, .inl le_rfl, by omega,
      by omega⟩

theorem toNat_packComponents (s : Sign) (exponent : BitVec 8) (mantissa : BitVec 23) :
    (packComponents Format.binary32 s exponent mantissa).toNat =
      s.toBitVec.toNat * 2 ^ 31 + exponent.toNat * 2 ^ 23 + mantissa.toNat := by
  show (s.toBitVec ++ exponent ++ mantissa).toNat = _
  rw [BitVec.toNat_append, BitVec.toNat_append, ← Nat.shiftLeft_add_eq_or_of_lt mantissa.isLt,
    ← Nat.shiftLeft_add_eq_or_of_lt exponent.isLt, Nat.shiftLeft_eq, Nat.shiftLeft_eq]
  omega

theorem toNat_pack_finite (s : Sign) {m : Nat} {e : Int} (pos : 0 < m) (short : m < 2 ^ 24)
    (normal : 2 ^ 23 ≤ m ∨ e = -149) (low : -149 ≤ e) :
    (pack Format.binary32 (.finite s m e pos)).toNat =
      s.toBitVec.toNat * 2 ^ 31 + min 0x7f800000 ((e + 149).toNat * 2 ^ 23 + m) := by
  have biased : (e + 127 + 23).toNat = (e + 149).toNat + 1 := by omega
  show BitVec.toNat (if 256 ≤ (e + 127 + 23).toNat + 1 then packedInfinity Format.binary32 s
    else if m.log2 + 1 = 24 then
      packComponents Format.binary32 s (BitVec.ofNat 8 (e + 127 + 23).toNat) (BitVec.ofNat 23 m)
    else packComponents Format.binary32 s 0#8 (BitVec.ofNat 23 m)) = _
  rw [biased]
  split_ifs with large full
  · show (packComponents Format.binary32 s (-1#8) 0#23).toNat = _
    rw [toNat_packComponents, show (-1#8).toNat = 255 from rfl, show (0#23).toNat = 0 from rfl]
    omega
  · have leading : 2 ^ 23 ≤ m := (Nat.le_log2 pos.ne').1 (by omega)
    rw [toNat_packComponents, BitVec.toNat_ofNat, BitVec.toNat_ofNat]
    omega
  · have shorter : m < 2 ^ 23 := (Nat.log2_lt pos.ne').1 (by
      have := (Nat.log2_lt pos.ne').2 short
      omega)
    rw [toNat_packComponents, BitVec.toNat_ofNat, BitVec.toNat_ofNat]
    omega

theorem toNat_pack_rounded (s : Sign) {m a b r : Nat} {e t : Int} {accuracy : Accuracy}
    (exact : Extends (.ofMantissaAndAccuracy m accuracy) a b) (pos : 0 < b)
    (unit : Magnitude.unit ⟨m, e⟩ = t) (fine : e ≤ t)
    (rounded : divRound a (b * 2 ^ (t - e).toNat) = r) (most : r ≤ 2 ^ 24)
    (least : 2 ^ 23 ≤ r ∨ t = -149) :
    (pack Format.binary32 (roundWithAccuracy Format.binary32 s m e accuracy)).toNat =
      s.toBitVec.toNat * 2 ^ 31 + min 0x7f800000 ((t + 149).toNat * 2 ^ 23 + r) := by
  obtain ⟨none, result⟩ | ⟨m', e', pos', result, short, normal, low, bits⟩ :=
    roundWithAccuracy_cases s exact pos unit fine rounded most least
  · obtain large | unit := least
    · omega
    · rw [result, none, unit]
      show (packComponents Format.binary32 s 0#8 0#23).toNat = _
      rw [toNat_packComponents, BitVec.toNat_ofNat, BitVec.toNat_ofNat]
      omega
  · rw [result, toNat_pack_finite s pos' short normal low, bits]

theorem toNat_pack_roundWithAccuracy (s : Sign) {m : Nat} {e : Int} (pos : 0 < m)
    (fine : e ≤ Magnitude.unit ⟨m, e⟩) :
    (pack Format.binary32 (roundWithAccuracy Format.binary32 s m e .exact)).toNat =
      s.toBitVec.toNat * 2 ^ 31 +
        binary32.nearest (Magnitude.ratio ⟨m, e⟩).1 (Magnitude.ratio ⟨m, e⟩).2 := by
  obtain ⟨most, least⟩ := Magnitude.inUnits_bounds ⟨m, e⟩ pos
  rw [Magnitude.nearest_ratio _ pos]
  refine toNat_pack_rounded s (extends_exact m) Nat.one_pos rfl fine ?_ most least
  unfold Magnitude.inUnits
  dsimp only
  rw [Nat.one_mul, show (e - Magnitude.unit ⟨m, e⟩).toNat = 0 by omega, pow_zero, Nat.mul_one]

theorem toNat_pack_round (s : Sign) {m : Nat} (e : Int) (pos : 0 < m) :
    (pack Format.binary32 (UnpackedFloat.round Format.binary32 s m e)).toNat =
      s.toBitVec.toNat * 2 ^ 31 +
        binary32.nearest (Magnitude.ratio ⟨m, e⟩).1 (Magnitude.ratio ⟨m, e⟩).2 := by
  unfold UnpackedFloat.round decreaseExponent
  rw [targetExponent_eq]
  dsimp only
  rw [Nat.shiftLeft_eq, ← Magnitude.nearest_ratio_shift pos e (e - Magnitude.unit ⟨m, e⟩).toNat]
  refine toNat_pack_roundWithAccuracy s (Nat.mul_pos pos (by positivity)) ?_
  rw [Magnitude.unit_shift pos]
  omega

theorem add_positive {x y : Magnitude} (xPos : 0 < x.mantissa) (yPos : 0 < y.mantissa) :
    UnpackedFloat.add Format.binary32 (.finite .positive x.mantissa x.exponent xPos)
        (.finite .positive y.mantissa y.exponent yPos) =
      UnpackedFloat.round Format.binary32 .positive (x.sum y).mantissa (x.sum y).exponent := by
  have pos : 0 < (x.sum y).mantissa := Nat.add_pos_left (Nat.mul_pos xPos (by positivity)) _
  show UnpackedFloat.normalize Format.binary32
    ((x.mantissa <<< (x.exponent - min x.exponent y.exponent).toNat : Nat) +
      (y.mantissa <<< (y.exponent - min x.exponent y.exponent).toNat : Nat))
    (x.sum y).exponent .positive = _
  rw [Nat.shiftLeft_eq, Nat.shiftLeft_eq, ← Int.natCast_add]
  show UnpackedFloat.normalize Format.binary32 ((x.sum y).mantissa : Int) _ _ = _
  unfold UnpackedFloat.normalize
  rw [show compare ((x.sum y).mantissa : Int) 0 = .gt from Int.compare_eq_gt.2 (by omega)]
  rfl

end Number

namespace Single

open Number Float.Model Float.Model.UnpackedFloat

/-! ### Operations on numbers -/

/-- A finite number other than zero. -/
structure Proper (x : Single) : Prop where
  number : x.isNaN = false
  finite : x.isInf = false
  nonzero : x.isZero = false

theorem proper_iff (x : Single) :
    x.Proper ↔ 0 < x.bits.toNat % 2 ^ 31 ∧ x.bits.toNat % 2 ^ 31 < 0x7f800000 := by
  have nan := isNaN_iff x
  have inf := isInf_iff x
  have zero := isZero_iff x
  constructor
  · rintro ⟨number, finite, nonzero⟩
    rw [number] at nan
    rw [finite] at inf
    rw [nonzero] at zero
    simp only [Bool.false_eq_true, false_iff] at nan inf zero
    omega
  · rintro ⟨positive, small⟩
    refine ⟨?_, ?_, ?_⟩
    · rw [← Bool.not_eq_true, nan]
      omega
    · rw [← Bool.not_eq_true, inf]
      omega
    · rw [← Bool.not_eq_true, zero]
      omega

/-- What the fields of a number say of its magnitude. -/
theorem magnitude_cases (x : Single) :
    (x.exponentField.toNat = 0 ∧ x.magnitude = ⟨x.mantissaField.toNat, -149⟩) ∨
    (0 < x.exponentField.toNat ∧
      x.magnitude = ⟨x.mantissaField.toNat + 2 ^ 23, x.exponentField.toNat - 150⟩) := by
  have exponent : x.bits.toNat % 2 ^ 31 / 2 ^ 23 = x.exponentField.toNat := by
    rw [toNat_exponentField]
    omega
  have mantissa : x.bits.toNat % 2 ^ 31 % 2 ^ 23 = x.mantissaField.toNat := by
    rw [toNat_mantissaField]
    omega
  have magnitude : x.magnitude = if x.exponentField.toNat = 0 then ⟨x.mantissaField.toNat, -149⟩
      else ⟨x.mantissaField.toNat + 2 ^ 23, x.exponentField.toNat - 1 - 149⟩ := by
    rw [← exponent, ← mantissa]
    rfl
  rw [magnitude]
  by_cases none : x.exponentField.toNat = 0
  · exact .inl ⟨none, if_pos none⟩
  · rw [if_neg none, Int.sub_sub]
    exact .inr ⟨by omega, rfl⟩

theorem Proper.unpacked {x : Single} (proper : x.Proper) :
    ∃ pos, x.unpacked = .finite x.sign x.magnitude.mantissa x.magnitude.exponent pos := by
  obtain ⟨positive, small⟩ := (proper_iff x).1 proper
  have ones : x.exponentField ≠ -1#8 := by
    rw [ne_eq, exponentField_eq_ones]
    omega
  rw [← ofBitVec_sign]
  obtain ⟨none, magnitude⟩ | ⟨some, magnitude⟩ := magnitude_cases x
  · have exponent : x.exponentField = 0#8 := BitVec.eq_of_toNat_eq none
    have mantissa : x.mantissaField ≠ 0#23 := by
      rw [ne_eq, mantissaField_eq_zero]
      rw [exponentField_eq_zero] at exponent
      omega
    obtain ⟨pos, unpacks⟩ : ∃ pos, x.unpacked =
        .finite (Sign.ofBitVec (@unpackSign Format.binary32 x.bits.toBitVec)) x.mantissaField.toNat
          ((x.exponentField.toNat : Int) - (127 + 23) + 1) pos :=
      ⟨_, (if_neg ones).trans ((if_pos exponent).trans (dif_neg mantissa))⟩
    rw [none] at unpacks
    rw [magnitude]
    exact ⟨pos, unpacks⟩
  · have exponent : x.exponentField ≠ 0#8 := by
      intro none
      rw [none] at some
      exact absurd some (by decide)
    obtain ⟨pos, unpacks⟩ : ∃ pos, x.unpacked =
        .finite (Sign.ofBitVec (@unpackSign Format.binary32 x.bits.toBitVec))
          (1#1 ++ x.mantissaField).toNat ((x.exponentField.toNat : Int) - (127 + 23)) pos :=
      ⟨_, (if_neg ones).trans (if_neg exponent)⟩
    have leading : (1#1 ++ x.mantissaField).toNat = x.mantissaField.toNat + 2 ^ 23 := by
      rw [BitVec.toNat_append, ← Nat.shiftLeft_add_eq_or_of_lt x.mantissaField.isLt]
      exact Nat.add_comm ..
    simp only [leading] at unpacks
    rw [magnitude]
    exact ⟨Nat.add_pos_right _ (by decide), unpacks⟩

/-- The magnitude is one that the format holds. -/
theorem Proper.magnitude_bounds {x : Single} (proper : x.Proper) :
    0 < x.magnitude.mantissa ∧ x.magnitude.mantissa < 2 ^ 24 ∧ -149 ≤ x.magnitude.exponent ∧
      (2 ^ 23 ≤ x.magnitude.mantissa ∨ x.magnitude.exponent = -149) := by
  obtain ⟨pos, -⟩ := proper.unpacked
  have short := x.mantissaField.isLt
  refine ⟨pos, ?_⟩
  obtain ⟨-, magnitude⟩ | ⟨some, magnitude⟩ := magnitude_cases x
  · rw [magnitude]
    dsimp only
    omega
  · rw [magnitude]
    dsimp only
    omega

theorem ofFloat32_pack {f : UnpackedFloat} {y : Single}
    (bits : (pack Format.binary32 f).toNat = y.bits.toNat) (number : y.isNaN = false)
    (undefined : Single) : ofFloat32 undefined ⟨Float32.Model.pack f⟩ = y := by
  have packed : pack Format.binary32 f = y.bits.toBitVec := BitVec.eq_of_toNat_eq bits
  have ordered : y.unpacked.isNaN = false := by
    obtain ⟨nan, -⟩ | ⟨-, -, unpacks⟩ | ⟨-, -, unpacks | ⟨_, _, _, unpacks⟩⟩ := unpacked_cases y
    · rw [number] at nan
      contradiction
    all_goals
      rw [unpacks]
      rfl
  unfold ofFloat32
  rw [if_neg]
  · show (⟨⟨pack Format.binary32 f⟩⟩ : Single) = y
    rw [packed]
  · show ¬ (unpack Format.binary32 (pack Format.binary32 f)).isNaN = true
    rw [packed, Bool.not_eq_true]
    exact ordered

/-- The number nearest to a magnitude with a sign. -/
def ofMagnitude (negative : Bool) (x : Magnitude) : Single :=
  ofRatio negative x.ratio.1 x.ratio.2

theorem toNat_ofMagnitude (negative : Bool) (x : Magnitude) :
    (ofMagnitude negative x).bits.toNat =
      binary32.nearest x.ratio.1 x.ratio.2 + if negative then 2 ^ 31 else 0 :=
  toNat_ofSignBits negative (by have := nearest_le x.ratio.1 x.ratio.2; omega)

theorem isNaN_ofMagnitude (negative : Bool) (x : Magnitude) :
    (ofMagnitude negative x).isNaN = false := by
  have small := nearest_le x.ratio.1 x.ratio.2
  rw [← Bool.not_eq_true, isNaN_iff, toNat_ofMagnitude]
  split <;> omega

theorem arith_eq (f : Float32 → Float32 → Float32) {x y : Single} (xs : x.Proper) (ys : y.Proper) :
    arith f x y = ofFloat32 invalid (f x.toFloat32 y.toFloat32) := by
  unfold arith
  rw [xs.number, ys.number]
  rfl

theorem mul_eq {x y : Single} (xs : x.Proper) (ys : y.Proper) :
    x * y = ofMagnitude (x.isNegative != y.isNegative) (x.magnitude.product y.magnitude) := by
  obtain ⟨xPos, -, xLow, xNormal⟩ := xs.magnitude_bounds
  obtain ⟨yPos, -, yLow, yNormal⟩ := ys.magnitude_bounds
  obtain ⟨_, xUnpacks⟩ := xs.unpacked
  obtain ⟨_, yUnpacks⟩ := ys.unpacked
  have pos : 0 < x.magnitude.mantissa * y.magnitude.mantissa := Nat.mul_pos xPos yPos
  have fine := Magnitude.exponent_le_unit_product xPos yPos xNormal yNormal
  have operation : x * y = ofFloat32 invalid ⟨Float32.Model.pack
      (UnpackedFloat.mul Format.binary32 x.toFloat32.toModel.unpack y.toFloat32.toModel.unpack)⟩ :=
    arith_eq (· * ·) xs ys
  rw [operation, unpack_toFloat32, unpack_toFloat32, xUnpacks, yUnpacks]
  refine ofFloat32_pack ?_ (isNaN_ofMagnitude ..) _
  rw [toNat_ofMagnitude]
  refine (toNat_pack_roundWithAccuracy _ pos fine).trans ?_
  rw [Nat.add_comm]
  refine congrArg _ ?_
  unfold sign
  cases x.isNegative <;> cases y.isNegative <;> rfl

theorem add_eq {x y : Single} (xs : x.Proper) (ys : y.Proper) (xPositive : x.isNegative = false)
    (yPositive : y.isNegative = false) :
    x + y = ofMagnitude false (x.magnitude.sum y.magnitude) := by
  obtain ⟨xPos, -⟩ := xs.magnitude_bounds
  obtain ⟨_, xUnpacks⟩ := xs.unpacked
  obtain ⟨_, yUnpacks⟩ := ys.unpacked
  have pos : 0 < (x.magnitude.sum y.magnitude).mantissa :=
    Nat.add_pos_left (Nat.mul_pos xPos (by positivity)) _
  have operation : x + y = ofFloat32 invalid ⟨Float32.Model.pack
      (UnpackedFloat.add Format.binary32 x.toFloat32.toModel.unpack y.toFloat32.toModel.unpack)⟩ :=
    arith_eq (· + ·) xs ys
  rw [sign, xPositive] at xUnpacks
  rw [sign, yPositive] at yUnpacks
  rw [operation, unpack_toFloat32, unpack_toFloat32, xUnpacks, yUnpacks]
  refine ofFloat32_pack ?_ (isNaN_ofMagnitude ..) _
  rw [toNat_ofMagnitude]
  refine (congrArg (fun f => (pack Format.binary32 f).toNat) (add_positive ..)).trans ?_
  exact (toNat_pack_round _ _ pos).trans (Nat.zero_add _)

/-! ### Counting -/

theorem ofInt_eq (k : Nat) : ofInt k = ofMagnitude false ⟨k, 0⟩ := by
  have positive : decide ((k : Int) < 0) = false := by simp
  show ofRatio (decide ((k : Int) < 0)) (k : Int).natAbs 1 = ofRatio false (k * 2 ^ 0) 1
  rw [positive, Int.natAbs_natCast, pow_zero, Nat.mul_one]

/-- A whole number of at most 24 bits is held exactly. -/
theorem ofInt_exact {k : Nat} (pos : 0 < k) (short : k < 2 ^ 24) :
    (ofInt k).Proper ∧ (ofInt k).isNegative = false ∧
      (ofInt k).magnitude = ⟨k * 2 ^ (23 - k.log2), k.log2 - 23⟩ := by
  have length : k.log2 < 24 := (Nat.log2_lt pos.ne').2 short
  have low : 2 ^ 23 ≤ k * 2 ^ (23 - k.log2) := by
    calc 2 ^ 23 = 2 ^ k.log2 * 2 ^ (23 - k.log2) := by rw [← pow_add]; congr 1; omega
      _ ≤ k * 2 ^ (23 - k.log2) := Nat.mul_le_mul_right _ (Nat.log2_self_le pos.ne')
  have high : k * 2 ^ (23 - k.log2) < 2 ^ 24 := by
    calc k * 2 ^ (23 - k.log2) < 2 ^ (k.log2 + 1) * 2 ^ (23 - k.log2) :=
          Nat.mul_lt_mul_of_pos_right Nat.lt_log2_self (by positivity)
      _ = 2 ^ 24 := by rw [← pow_add]; congr 1; omega
  have bits : (ofInt k).bits.toNat = (k.log2 + 126) * 2 ^ 23 + k * 2 ^ (23 - k.log2) := by
    have unit : Magnitude.unit ⟨k, 0⟩ = k.log2 - 23 := by
      show Max.max ((k.log2 : Int) + 0 - 23) (-149) = _
      omega
    have whole : Magnitude.inUnits ⟨k, 0⟩ = k * 2 ^ (23 - k.log2) := by
      unfold Magnitude.inUnits
      rw [unit]
      dsimp only
      rw [show ((k.log2 : Int) - 23 - 0).toNat = 0 by omega,
        show (0 - ((k.log2 : Int) - 23)).toNat = 23 - k.log2 by omega, pow_zero, divRound_one]
    rw [ofInt_eq, toNat_ofMagnitude, Magnitude.nearest_ratio _ pos, unit, whole]
    simp only [Bool.false_eq_true, if_false]
    omega
  refine ⟨?_, ?_, ?_⟩
  · rw [proper_iff, bits]
    omega
  · rw [← Bool.not_eq_true, isNegative_iff, bits]
    omega
  · have plain : ((k.log2 + 126) * 2 ^ 23 + k * 2 ^ (23 - k.log2)) % 2 ^ 31 =
        (k.log2 + 126) * 2 ^ 23 + k * 2 ^ (23 - k.log2) := Nat.mod_eq_of_lt (by omega)
    have exponent : ((k.log2 + 126 : Nat) : Int) - 149 = k.log2 - 23 := by omega
    rw [magnitude, bits, ← exponent]
    exact (congrArg binary32.magnitude plain).trans (magnitude_normal _ low high)

/-- Adding one to a whole number below `2 ^ 24` is exact. -/
theorem ofInt_add_one {k : Nat} (short : k < 2 ^ 24) : ofInt k + 1 = ofInt (k + 1 : Nat) := by
  rcases Nat.eq_zero_or_pos k with rfl | pos
  · decide
  obtain ⟨proper, positive, magnitude⟩ := ofInt_exact pos short
  obtain ⟨oneProper, onePositive, oneMagnitude⟩ := ofInt_exact Nat.one_pos (by decide)
  have length : k.log2 < 24 := (Nat.log2_lt pos.ne').2 short
  have sum : (ofInt k).magnitude.sum (ofInt (1 : Nat)).magnitude =
      ⟨(k + 1) * 2 ^ 23, 0 - (23 : Nat)⟩ := by
    have least : Min.min ((k.log2 : Int) - 23) (((1 : Nat).log2 : Int) - 23) = -23 := by
      rw [show (1 : Nat).log2 = 0 by decide]
      omega
    rw [magnitude, oneMagnitude, Magnitude.sum]
    dsimp only
    rw [least, show (1 : Nat).log2 = 0 by decide, Nat.mul_assoc, ← pow_add,
      show 23 - k.log2 + ((k.log2 : Int) - 23 - -23).toNat = 23 by omega, Nat.add_mul]
    rfl
  calc ofInt k + 1 = ofMagnitude false ((ofInt k).magnitude.sum (ofInt (1 : Nat)).magnitude) :=
        add_eq proper oneProper positive onePositive
    _ = ofMagnitude false ⟨k + 1, 0⟩ := by
        rw [sum, ofMagnitude, ofRatio, Magnitude.nearest_ratio_shift (Nat.succ_pos k)]
        rfl
    _ = ofInt (k + 1 : Nat) := (ofInt_eq _).symm

end Single

end EscapeTime
