import EscapeTime.Proofs.Formula.Numerals
import EscapeTime.Proofs.Number.Nearest

/-!
# Reading literals back

What `appendLiteral` adds to the bytes before it is a decimal numeral with a sign, a point and no
zero at its end: the number rounded to nine places. From `2 ^ -6` on, the number is the only one
nearest to its literal, and reading the literal gives it back.
-/

namespace EscapeTime.Shader

open Number

theorem getLast?_dropZeros (digits : List Char) : (dropZeros digits).getLast? ≠ some '0' := by
  intro zero
  have last := List.head?_dropWhile_not (· == '0') digits.reverse
  rw [dropZeros, List.getLast?_reverse] at zero
  rw [zero] at last
  exact absurd last (by decide)

theorem length_fractionDigits (n : Nat) : (fractionDigits n).length ≤ places := by
  obtain ⟨k, padded⟩ : ∃ k, fractionDigits n ++ List.replicate k '0' = _ := dropZeros_append _
  have width := congrArg List.length padded
  rw [List.length_append, length_decimalDigits] at width
  omega

/-! ### Decimal literals -/

/-- A decimal numeral with a sign and a point: at least one digit before the point, and no zero at
the end of those behind it. -/
structure DecimalLiteral where
  negative : Bool
  whole : List Char
  fraction : List Char
  nonempty : whole ≠ []
  digits : ∀ c ∈ whole ++ fraction, c.isDigit = true
  trimmed : fraction.getLast? ≠ some '0'

namespace DecimalLiteral

def text (d : DecimalLiteral) : List Char :=
  (if d.negative then ['-'] else []) ++ d.whole ++ '.' :: d.fraction

/-- The number in units of its last place, the sign left out. -/
def units (d : DecimalLiteral) : Nat :=
  Nat.ofDigitChars 10 (d.whole ++ d.fraction) 0

def magnitude (d : DecimalLiteral) : ℚ :=
  d.units / 10 ^ d.fraction.length

def value (d : DecimalLiteral) : ℚ :=
  signed d.negative d.magnitude

/-- The literal of a finite number. -/
def ofSingle (x : Single) : DecimalLiteral where
  negative := x.isNegative
  whole := wholeDigits (fixedPoint x)
  fraction := fractionDigits (fixedPoint x)
  nonempty := Nat.toDigits_ne_nil
  digits _ := isDigit_of_mem_literal
  trimmed := getLast?_dropZeros _

theorem magnitude_ofSingle (x : Single) : (ofSingle x).magnitude = fixedPoint x / 10 ^ places :=
  literal_value _

end DecimalLiteral

/-- A finite number is written as its literal, whatever stands before it. -/
theorem appendLiteral_of_finite (before : List UInt8) {x : Single} (number : x.isNaN = false)
    (finite : x.isInf = false) :
    appendLiteral '-'.toUInt8 '.'.toUInt8 before x =
      before ++ (DecimalLiteral.ofSingle x).text.map Char.toUInt8 := by
  rw [appendLiteral_literal, literal_of_finite number finite]
  rfl

/-! ### Reading -/

theorem DecimalLiteral.parse?_text (d : DecimalLiteral) :
    Numeral.parse? (String.ofList d.text) = some (.finite d.negative
      ⟨10, d.units, 0 - d.fraction.length⟩) := by
  have spelled : (String.ofList d.text).toList =
      (if d.negative then ['-'] else []) ++ (d.whole ++ '.' :: d.fraction) := by
    rw [String.toList_ofList, text, List.append_assoc]
  have chars : ∀ c ∈ d.whole ++ '.' :: d.fraction, IsNumeralChar c := by
    intro c mem
    rcases List.mem_append.1 mem with whole | mem
    · exact .inl (isDigit_iff.1 (d.digits c (List.mem_append_left _ whole)))
    rcases List.mem_cons.1 mem with point | fraction
    · exact .inr point
    · exact .inl (isDigit_iff.1 (d.digits c (List.mem_append_right _ fraction)))
  rw [parse?_signed d.negative spelled (by simp) chars, readDecimal?_one_point d.digits
    (List.append_ne_nil_of_left_ne_nil d.nonempty _)]
  rfl

theorem DecimalLiteral.readSingle_text (d : DecimalLiteral) (few : d.fraction.length ≤ 1200)
    (inside : d.magnitude < overflow) :
    readSingle (String.ofList d.text) = .ok (Single.ofSignBits d.negative
      (binary32.nearest d.units (10 ^ d.fraction.length))) := by
  have finite := mt (Scientific.nearest_eq_infinity_iff _ _).1 (not_le.2 inside)
  unfold readSingle
  rw [d.parse?_text]
  dsimp only
  rw [if_neg finite, Scientific.nearest_eq few inside]

theorem fixedPoint_isRounded (x : Single) :
    IsRounded (x.magnitude.value * 10 ^ places) (fixedPoint x : Nat) := by
  obtain ⟨pos, value⟩ := x.magnitude.ratio_eq
  have rounded := divRound_isRounded (x.magnitude.ratio.1 * Nat.pow 10 places) pos
  rw [scale_eq, Nat.cast_mul, mul_div_right_comm, ← value, Nat.cast_pow] at rounded
  exact rounded

theorem DecimalLiteral.value_ofSingle (x : Single) :
    ∃ n : ℤ, IsRounded (x.value * 10 ^ places) n ∧ (ofSingle x).value = n / 10 ^ places := by
  have rounded := fixedPoint_isRounded x
  have magnitude := magnitude_ofSingle x
  unfold Single.value value
  rw [magnitude]
  show ∃ n : ℤ, _ ∧ signed x.isNegative _ = _
  cases x.isNegative
  · exact ⟨fixedPoint x, rounded, by rw [Int.cast_natCast]; rfl⟩
  · refine ⟨-(fixedPoint x : ℤ), ?_, ?_⟩
    · rw [signed, if_pos rfl, neg_mul]
      exact rounded.neg
    · rw [signed, if_pos rfl, Int.cast_neg, Int.cast_natCast, neg_div]

theorem DecimalLiteral.readSingle_ofSingle {x : Single} (inside : (ofSingle x).magnitude < overflow)
    (nearest : binary32.nearest (ofSingle x).units (10 ^ (ofSingle x).fraction.length) =
      x.bits.toNat % 2 ^ 31) :
    readSingle (String.ofList (ofSingle x).text) = .ok x := by
  have few : (ofSingle x).fraction.length ≤ 1200 :=
    Nat.le_trans (length_fractionDigits (fixedPoint x)) (by decide)
  rw [readSingle_text _ few inside, nearest]
  exact congrArg Except.ok x.ofSignBits_self

theorem reads_back_zero {x : Single} (zero : x.isZero = true) :
    x.IsNearest (DecimalLiteral.ofSingle x).value ∧
      readSingle (String.ofList (DecimalLiteral.ofSingle x).text) = .ok x := by
  have nothing := Single.magnitude_of_isZero zero
  have none : ¬ 0 < fixedPoint x := by
    rw [fixedPoint_pos, nothing, not_lt]
    positivity
  have magnitude : (DecimalLiteral.ofSingle x).magnitude = 0 := by
    rw [DecimalLiteral.magnitude_ofSingle, Nat.eq_zero_of_not_pos none, Nat.cast_zero, zero_div]
  constructor
  · intro y _ _ other
    have value : x.value = 0 := by rw [Single.value, nothing, signed_zero]
    rw [value] at other ⊢
    rw [DecimalLiteral.value, magnitude, signed_zero, sub_self, abs_zero, zero_sub, abs_neg]
    exact abs_pos.2 other
  · have units : (DecimalLiteral.ofSingle x).units = 0 := by
      have digits := (div_eq_zero_iff.1 magnitude).resolve_right (by positivity)
      exact_mod_cast digits
    apply DecimalLiteral.readSingle_ofSingle
    · rw [magnitude]
      norm_num [overflow]
    · rw [units, (Single.isZero_iff x).1 zero]
      exact if_pos rfl

/-- The number is the only one nearest to its literal, and reading gives it back. -/
theorem reads_back {x : Single} (number : x.isNaN = false) (finite : x.isInf = false)
    (range : x.isZero = true ∨ (2 : ℚ) ^ (-6 : ℤ) ≤ |x.value|) :
    x.IsNearest (DecimalLiteral.ofSingle x).value ∧
      readSingle (String.ofList (DecimalLiteral.ofSingle x).text) = .ok x := by
  rcases range with zero | large
  · exact reads_back_zero zero
  rw [Single.value, abs_signed, abs_of_nonneg x.magnitude.value_nonneg] at large
  have around := Single.around_rounded number finite large (fixedPoint_isRounded x)
  have magnitude := DecimalLiteral.magnitude_ofSingle x
  change _ = (_ : ℚ) / 10 ^ 9 at magnitude
  rw [← magnitude] at around
  refine ⟨around.isNearest, ?_⟩
  apply DecimalLiteral.readSingle_ofSingle
  · exact around.lt_overflow number finite
  · apply Single.Around.nearest _ (by positivity) number finite
    push_cast
    exact around

/-- Behind any bytes, as in a program, a finite number is written as a decimal literal with the sign
of the number: the number rounded to nine places. Zeros and the numbers from `2 ^ -6` on are the
only ones nearest to their literals, and reading the literal gives them back. -/
theorem literal_reads_back (before : List UInt8) (x : Single) (number : x.isNaN = false)
    (finite : x.isInf = false) :
    ∃ d : DecimalLiteral,
      appendLiteral '-'.toUInt8 '.'.toUInt8 before x = before ++ d.text.map Char.toUInt8 ∧
      (floatCode x).toList = d.text ∧ d.negative = x.isNegative ∧
      (∃ n : ℤ, IsRounded (x.value * 10 ^ 9) n ∧ d.value = n / 10 ^ 9) ∧
      (x.isZero = true ∨ (2 : ℚ) ^ (-6 : ℤ) ≤ |x.value| →
        x.IsNearest d.value ∧ readSingle (String.ofList d.text) = .ok x) :=
  ⟨.ofSingle x, appendLiteral_of_finite before number finite,
    (toList_floatCode x).trans (literal_of_finite number finite), rfl,
    DecimalLiteral.value_ofSingle x, reads_back number finite⟩

theorem minusTenth_reads_back :
    let x : Single := ⟨0xbdcccccd⟩
    appendLiteral '-'.toUInt8 '.'.toUInt8 ['='.toUInt8] x =
        ['=', '-', '0', '.', '1', '0', '0', '0', '0', '0', '0', '0', '1'].map Char.toUInt8 ∧
      x.isNaN = false ∧ x.isInf = false ∧ (2 : ℚ) ^ (-6 : ℤ) ≤ |x.value| ∧
      ∃ d : DecimalLiteral,
        appendLiteral '-'.toUInt8 '.'.toUInt8 ['='.toUInt8] x =
          '='.toUInt8 :: d.text.map Char.toUInt8 ∧
        x.IsNearest d.value ∧ readSingle (String.ofList d.text) = .ok x := by
  intro x
  have number : x.isNaN = false := by decide
  have finite : x.isInf = false := by decide
  have bits : x.bits.toNat % Nat.pow 2 31 = 122 * 2 ^ 23 + 13421773 := by decide
  have magnitude : x.magnitude = ⟨13421773, (122 : Nat) - 149⟩ := by
    rw [Single.magnitude, bits]
    exact magnitude_normal 122 (by decide) (by decide)
  have large : (2 : ℚ) ^ (-6 : ℤ) ≤ |x.value| := by
    rw [Single.value, abs_signed, magnitude, Magnitude.value]
    norm_num [abs_of_pos]
  obtain ⟨d, text, -, -, -, back⟩ := literal_reads_back ['='.toUInt8] x number finite
  exact ⟨by decide, number, finite, large, d, text, back (.inr large)⟩

end EscapeTime.Shader
