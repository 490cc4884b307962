import EscapeTime.Proofs.Number.Rounding
import EscapeTime.Shader.Literal

/-!
# Float literals and their values

A text denotes a number when it consists of digits with one point among them. `floatCode` writes
such a text exactly for the finite numbers without a minus sign, and the number it denotes is the
written one rounded to nine places.
-/

namespace EscapeTime.Shader

open Number

/-- The text is a float literal for the number: digits with one point among them and at least one
digit. -/
def Denotes (text : String) (value : ℚ) : Prop :=
  ∃ whole fraction : List Char, text.toList = whole ++ '.' :: fraction ∧
    whole ++ fraction ≠ [] ∧ (∀ c ∈ whole ++ fraction, c.isDigit = true) ∧
    value = (Nat.ofDigitChars 10 (whole ++ fraction) 0 : ℚ) / 10 ^ fraction.length

/-- The text is a float literal for a positive number. -/
def IsPositiveLiteral (text : String) : Prop :=
  ∃ value, Denotes text value ∧ 0 < value

theorem Denotes.unique {text : String} {v w : ℚ} (first : Denotes text v)
    (second : Denotes text w) : v = w := by
  obtain ⟨whole, fraction, text_eq, -, digits, rfl⟩ := first
  obtain ⟨whole', fraction', text_eq', -, digits', rfl⟩ := second
  have noPoint : ∀ ds : List Char, (∀ c ∈ ds, c.isDigit = true) → '.' ∉ ds :=
    fun ds allDigits mem => absurd (allDigits _ mem) (by decide)
  -- The point is not a digit, so both decompositions split the text at the same place.
  obtain ⟨rfl, -, rfl⟩ := (List.append_cons_inj_of_notMem
    (noPoint whole fun c mem => digits c (List.mem_append_left _ mem))
    (noPoint fraction fun c mem => digits c (List.mem_append_right _ mem))).1
    (text_eq.symm.trans text_eq')
  rfl

theorem Denotes.char {text : String} {v : ℚ} (denotes : Denotes text v) {c : Char}
    (mem : c ∈ text.toList) : c = '.' ∨ c.isDigit = true := by
  obtain ⟨whole, fraction, text_eq, -, digits, -⟩ := denotes
  rw [text_eq, List.mem_append, List.mem_cons] at mem
  rcases mem with mem | rfl | mem
  · exact .inr (digits c (List.mem_append_left _ mem))
  · exact .inl rfl
  · exact .inr (digits c (List.mem_append_right _ mem))

/-! ### Digits -/

/-- The digits without the zeros at their end. -/
def dropZeros (digits : List Char) : List Char :=
  (digits.reverse.dropWhile (· == '0')).reverse

theorem dropZeros_append (digits : List Char) :
    ∃ k, dropZeros digits ++ List.replicate k '0' = digits := by
  refine ⟨(digits.reverse.takeWhile (· == '0')).length, ?_⟩
  have zeros : digits.reverse.takeWhile (· == '0') =
      List.replicate (digits.reverse.takeWhile (· == '0')).length '0' := by
    rw [List.eq_replicate_iff]
    refine ⟨rfl, fun c mem => ?_⟩
    simpa using List.mem_takeWhile_imp mem
  have whole := List.takeWhile_append_dropWhile (p := (· == '0')) (l := digits.reverse)
  rw [zeros] at whole
  have := congrArg List.reverse whole
  rwa [List.reverse_append, List.reverse_replicate, List.reverse_reverse] at this

theorem length_decimalDigits (width n : Nat) : (decimalDigits width n).length = width := by
  induction width generalizing n with
  | zero => rfl
  | succ width ih => rw [decimalDigits, List.length_append, ih, List.length_singleton]

theorem toNat_digit (n : Nat) : (Char.ofNat (48 + n % 10)).toNat = 48 + n % 10 := by
  have small : n % 10 < 10 := Nat.mod_lt n (by decide)
  interval_cases n % 10 <;> rfl

theorem isDigit_of_mem_decimalDigits {width n : Nat} {c : Char}
    (mem : c ∈ decimalDigits width n) : c.isDigit = true := by
  induction width generalizing n with
  | zero => exact absurd mem List.not_mem_nil
  | succ width ih =>
    rw [decimalDigits, List.mem_append, List.mem_singleton] at mem
    rcases mem with mem | rfl
    · exact ih mem
    · have small : n % 10 < 10 := Nat.mod_lt n (by decide)
      interval_cases n % 10 <;> rfl

theorem ofDigitChars_decimalDigits (width n init : Nat) :
    Nat.ofDigitChars 10 (decimalDigits width n) init = 10 ^ width * init + n % 10 ^ width := by
  induction width generalizing n with
  | zero => simp [decimalDigits, Nat.mod_one]
  | succ width ih =>
    rw [decimalDigits, Nat.ofDigitChars_append, ih, Nat.ofDigitChars_cons, Nat.ofDigitChars_nil,
      toNat_digit, pow_succ', Nat.mod_mul, Nat.mul_assoc, Nat.mul_add]
    have : '0'.toNat = 48 := rfl
    omega

/-! ### Bytes -/

theorem toUInt8_inj {c d : Char} (small : c.toNat < 256) (small' : d.toNat < 256) :
    c.toUInt8 = d.toUInt8 ↔ c = d := by
  have code (e : Char) (byte : e.toNat < 256) : e.toUInt8.toNat = e.toNat := Nat.mod_eq_of_lt byte
  rw [← UInt8.toNat_inj, code c small, code d small', Char.toNat_inj]

theorem toNat_of_isDigit {c : Char} (digit : c.isDigit = true) : c.toNat < 256 := by
  rw [Char.isDigit, Bool.and_eq_true, decide_eq_true_eq, decide_eq_true_eq] at digit
  have high : c.toNat ≤ 57 := digit.2
  omega

theorem not_mem_bytes {digits : List Char} (all : ∀ c ∈ digits, c.isDigit = true) {mark : Char}
    (small : mark.toNat < 256) (other : mark.isDigit = false) :
    mark.toUInt8 ∉ digits.map Char.toUInt8 := by
  intro mem
  obtain ⟨c, inside, same⟩ := List.mem_map.1 mem
  rw [toUInt8_inj (toNat_of_isDigit (all c inside)) small] at same
  rw [← same, all c inside] at other
  contradiction

theorem idxOf?_append_cons {α : Type} [BEq α] [LawfulBEq α] {before after : List α} {mark : α}
    (first : mark ∉ before) : (before ++ mark :: after).idxOf? mark = some before.length := by
  induction before with
  | nil => simp [List.idxOf?_cons]
  | cons b before ih =>
    rw [List.mem_cons, not_or] at first
    rw [List.cons_append, List.idxOf?_cons, ih first.2, if_neg (by simpa using Ne.symm first.1)]
    rfl

theorem replaceMinus_append (minus c : UInt8) (before after : List UInt8) :
    replaceMinus minus before.length (before ++ c :: after) =
      before ++ (if c = '-'.toUInt8 then minus else c) :: after := by
  have here : (before ++ c :: after)[before.length]? = some c := by
    rw [List.getElem?_append_right le_rfl, Nat.sub_self, List.getElem?_cons_zero]
  unfold replaceMinus
  by_cases sign : c = '-'.toUInt8
  · rw [if_pos (here.trans (congrArg some sign)), if_pos sign, List.set_append_right _ _ le_rfl,
      Nat.sub_self, List.set_cons_zero]
  · rw [if_neg (fun same => sign (Option.some.inj (here.symm.trans same))), if_neg sign]

theorem dropWhile_bytes {digits : List Char} (all : ∀ c ∈ digits, c.isDigit = true) :
    (digits.map Char.toUInt8).dropWhile (· == '0'.toUInt8) =
      (digits.dropWhile (· == '0')).map Char.toUInt8 := by
  induction digits with
  | nil => rfl
  | cons c digits ih =>
    obtain ⟨digit, all⟩ := List.forall_mem_cons.1 all
    have zero : (c.toUInt8 == '0'.toUInt8) = (c == '0') := by
      rw [Bool.eq_iff_iff, beq_iff_eq, beq_iff_eq, toUInt8_inj (toNat_of_isDigit digit) (by decide)]
    rw [List.map_cons, List.dropWhile_cons, List.dropWhile_cons, zero, ih all]
    split_ifs <;> rfl

theorem trimZeros_append (before : List UInt8) {digits : List Char}
    (all : ∀ c ∈ digits, c.isDigit = true) :
    trimZeros before.length (before ++ digits.map Char.toUInt8) =
      before ++ (dropZeros digits).map Char.toUInt8 := by
  have reversed : ∀ c ∈ digits.reverse, c.isDigit = true := by
    intro c mem
    exact all c (List.mem_reverse.1 mem)
  rw [trimZeros, List.take_left, List.drop_left, ← List.map_reverse, dropWhile_bytes reversed,
    ← List.map_reverse]
  rfl

/-! ### Literals -/

theorem scale_eq : Nat.pow 10 places = 10 ^ places := rfl

/-- A number is written with a digit other than zero when it is above half a unit of the last
place. -/
theorem fixedPoint_pos (x : Single) :
    0 < fixedPoint x ↔ 1 / (2 * 10 ^ places) < x.magnitude.value := by
  obtain ⟨pos, value⟩ := x.magnitude.ratio_eq
  unfold fixedPoint
  dsimp only
  rw [divRound_pos _ _ pos, value, div_lt_div_iff₀ (by positivity) (by exact_mod_cast pos),
    scale_eq, ← Nat.cast_lt (α := ℚ)]
  push_cast
  ring_nf

/-- The digits before the point. -/
def wholeDigits (n : Nat) : List Char :=
  Nat.toDigits 10 (n / 10 ^ places)

/-- The digits behind the point. -/
def fractionDigits (n : Nat) : List Char :=
  dropZeros (decimalDigits places (n % 10 ^ places))

theorem isDigit_of_mem_literal {n : Nat} {c : Char}
    (mem : c ∈ wholeDigits n ++ fractionDigits n) : c.isDigit = true := by
  obtain ⟨k, padded⟩ := dropZeros_append (decimalDigits places (n % 10 ^ places))
  rcases List.mem_append.1 mem with mem | mem
  · exact Nat.isDigit_of_mem_toDigits (by decide) (by decide) mem
  · exact isDigit_of_mem_decimalDigits (padded ▸ List.mem_append_left _ mem)

/-- With the dropped zeros restored, the digits count units of the last place. -/
theorem literal_value (n : Nat) :
    (Nat.ofDigitChars 10 (wholeDigits n ++ fractionDigits n) 0 : ℚ) /
      10 ^ (fractionDigits n).length = n / 10 ^ places := by
  obtain ⟨k, padded⟩ : ∃ k, fractionDigits n ++ List.replicate k '0' = _ := dropZeros_append _
  have units : Nat.ofDigitChars 10
      (wholeDigits n ++ fractionDigits n ++ List.replicate k '0') 0 = n := by
    rw [List.append_assoc, padded, Nat.ofDigitChars_append, wholeDigits,
      Nat.ofDigitChars_ten_toDigits, ofDigitChars_decimalDigits, Nat.mod_mod, Nat.div_add_mod]
  have width := congrArg List.length padded
  rw [List.length_append, List.length_replicate, length_decimalDigits] at width
  rw [Nat.ofDigitChars_append, Nat.ofDigitChars_replicate_zero] at units
  generalize Nat.ofDigitChars 10 (wholeDigits n ++ fractionDigits n) 0 = m at units ⊢
  rw [← width, pow_add, ← congrArg (Nat.cast : Nat → ℚ) units]
  push_cast
  field_simp

theorem fixedText_of_finite {x : Single} (number : x.isNaN = false) (finite : x.isInf = false) :
    fixedText x = (if x.isNegative then ['-'] else []) ++ wholeDigits (fixedPoint x) ++
      '.' :: decimalDigits places (fixedPoint x % 10 ^ places) := by
  rw [fixedText, if_neg (by simp [number]), if_neg (by simp [finite])]
  rfl

/-- The point is found behind the bytes before the text, and the sign and the zeros after it. -/
theorem appendLiteral_eq (minus mark : UInt8) (before : List UInt8) {x : Single} {first : UInt8}
    {rest : List UInt8} {digits : List Char}
    (text : (fixedText x).map Char.toUInt8 =
      first :: rest ++ '.'.toUInt8 :: digits.map Char.toUInt8)
    (noPoint : '.'.toUInt8 ∉ first :: rest) (all : ∀ c ∈ digits, c.isDigit = true) :
    appendLiteral minus mark before x =
      before ++ (if first = '-'.toUInt8 then minus else first) :: rest ++
        mark :: (dropZeros digits).map Char.toUInt8 := by
  have marked : (before ++ (first :: rest ++ '.'.toUInt8 :: digits.map Char.toUInt8)).set
      (before.length + (first :: rest).length) mark =
        before ++ first :: (rest ++ mark :: digits.map Char.toUInt8) := by
    rw [List.set_append_right _ _ (Nat.le_add_right ..), Nat.add_sub_cancel_left,
      List.set_append_right _ _ le_rfl, Nat.sub_self, List.set_cons_zero, List.cons_append]
  unfold appendLiteral
  dsimp only
  rw [text, List.drop_left, idxOf?_append_cons noPoint]
  dsimp only
  rw [marked, replaceMinus_append]
  generalize (if first = '-'.toUInt8 then minus else first) = sign
  have whole : before ++ sign :: (rest ++ mark :: digits.map Char.toUInt8) =
      before ++ sign :: rest ++ [mark] ++ digits.map Char.toUInt8 := by simp
  have kept : before.length + (first :: rest).length + 1 =
      (before ++ sign :: rest ++ [mark]).length := by
    simp only [List.length_append, List.length_cons, List.length_nil, Nat.add_assoc]
  rw [whole, kept, trimZeros_append _ all]
  simp

theorem appendLiteral_signed (minus mark : UInt8) (before : List UInt8) {x : Single}
    {negative : Bool} {whole fraction : List Char}
    (text : fixedText x = (if negative then ['-'] else []) ++ whole ++ '.' :: fraction)
    (nonempty : whole ≠ []) (wholeAll : ∀ c ∈ whole, c.isDigit = true)
    (fractionAll : ∀ c ∈ fraction, c.isDigit = true) :
    appendLiteral minus mark before x =
      before ++ ((if negative then [minus] else []) ++ whole.map Char.toUInt8 ++
        mark :: (dropZeros fraction).map Char.toUInt8) := by
  have noPoint := not_mem_bytes wholeAll (show '.'.toNat < 256 by decide) (by decide)
  have bytes := congrArg (List.map Char.toUInt8) text
  rw [List.map_append, List.map_append, List.map_cons] at bytes
  cases negative with
  | true =>
    have signed : '.'.toUInt8 ∉ '-'.toUInt8 :: whole.map Char.toUInt8 := by
      rw [List.mem_cons, not_or]
      exact ⟨by decide, noPoint⟩
    rw [appendLiteral_eq minus mark before bytes signed fractionAll, if_pos rfl, List.append_assoc]
    rfl
  | false =>
    obtain ⟨c, cs, rfl⟩ := List.exists_cons_of_ne_nil nonempty
    have unsigned : c.toUInt8 ≠ '-'.toUInt8 := by
      have noMinus := not_mem_bytes wholeAll (show '-'.toNat < 256 by decide) (by decide)
      exact fun same => noMinus (same ▸ List.mem_cons_self)
    rw [appendLiteral_eq minus mark before bytes noPoint fractionAll, if_neg unsigned,
      List.append_assoc]
    rfl

/-- The text that `appendLiteral` adds with the usual sign and point. Infinities and NaN have
names. -/
def literal (x : Single) : List Char :=
  if x.isNaN then ['N', 'a', 'N']
  else if x.isInf then [if x.isNegative then '-' else '+', 'I', 'n', 'f']
  else (if x.isNegative then ['-'] else []) ++ wholeDigits (fixedPoint x) ++
    '.' :: fractionDigits (fixedPoint x)

theorem literal_of_finite {x : Single} (number : x.isNaN = false) (finite : x.isInf = false) :
    literal x = (if x.isNegative then ['-'] else []) ++ wholeDigits (fixedPoint x) ++
      '.' :: fractionDigits (fixedPoint x) := by
  rw [literal, if_neg (by simp [number]), if_neg (by simp [finite])]

/-- A name has no point, and its sign is left as it is. -/
theorem appendLiteral_name (before : List UInt8) {x : Single} {first : Char} {rest : List Char}
    (text : fixedText x = first :: rest)
    (noPoint : '.'.toUInt8 ∉ (first :: rest).map Char.toUInt8) :
    appendLiteral '-'.toUInt8 '.'.toUInt8 before x =
      before ++ (first :: rest).map Char.toUInt8 := by
  unfold appendLiteral
  dsimp only
  rw [text, List.drop_left, List.idxOf?_eq_none_iff.mpr noPoint]
  dsimp only
  rw [List.map_cons, replaceMinus_append]
  split
  · rename_i sign
    rw [sign]
  · rfl

/-- Whatever stands before it, a number is written as its literal. -/
theorem appendLiteral_literal (before : List UInt8) (x : Single) :
    appendLiteral '-'.toUInt8 '.'.toUInt8 before x = before ++ (literal x).map Char.toUInt8 := by
  by_cases number : x.isNaN = true
  · rw [literal, if_pos number]
    exact appendLiteral_name before (by rw [fixedText, if_pos number]; rfl) (by decide)
  by_cases infinite : x.isInf = true
  · rw [literal, if_neg number, if_pos infinite]
    refine appendLiteral_name before (by rw [fixedText, if_neg number, if_pos infinite]; rfl) ?_
    cases x.isNegative <;> decide
  rw [Bool.not_eq_true] at number infinite
  rw [appendLiteral_signed _ _ before (fixedText_of_finite number infinite) Nat.toDigits_ne_nil
    (fun c mem => isDigit_of_mem_literal (List.mem_append_left _ mem))
    (fun c mem => isDigit_of_mem_decimalDigits mem), literal_of_finite number infinite,
    List.map_append, List.map_append, List.map_cons]
  cases x.isNegative <;> rfl

/-- The characters that names are made of, the sign and the point. -/
def literalMarks : List Char :=
  ['N', 'a', 'I', 'n', 'f', '+', '-', '.']

theorem literal_char {x : Single} {c : Char} (mem : c ∈ literal x) :
    c ∈ literalMarks ∨ c.isDigit = true := by
  have names : ∀ c ∈ ['N', 'a', 'N', 'I', 'n', 'f'], c ∈ literalMarks := by simp [literalMarks]
  unfold literal at mem
  split at mem
  · exact .inl (names c (List.mem_append_left _ mem))
  split at mem
  · rw [List.mem_cons] at mem
    rcases mem with rfl | name
    · cases x.isNegative <;> exact .inl (by decide)
    · exact .inl (names c (List.mem_append_right ['N', 'a', 'N'] name))
  rw [List.mem_append, List.mem_append, List.mem_cons] at mem
  rcases mem with (sign | whole) | rfl | fraction
  · cases negative : x.isNegative <;> simp [negative] at sign
    exact .inl (by rw [sign]; decide)
  · exact .inr (isDigit_of_mem_literal (List.mem_append_left _ whole))
  · exact .inl (by decide)
  · exact .inr (isDigit_of_mem_literal (List.mem_append_right _ fraction))

theorem ofUInt8_toUInt8 {c : Char} (small : c.toNat < 256) : Char.ofUInt8 c.toUInt8 = c := by
  have code : c.toUInt8.toNat = c.toNat := Nat.mod_eq_of_lt small
  rw [← Char.toNat_inj]
  exact code

theorem toList_floatCode (x : Single) : (floatCode x).toList = literal x := by
  have each : ∀ c ∈ literal x, (Char.ofUInt8 ∘ Char.toUInt8) c = c := by
    intro c mem
    refine ofUInt8_toUInt8 ?_
    have marks : literalMarks.all (·.toNat < 256) = true := by decide
    exact (literal_char mem).elim (fun mark => of_decide_eq_true (List.all_eq_true.mp marks c mark))
      toNat_of_isDigit
  rw [floatCode, String.toList_ofList, appendLiteral_literal, List.nil_append, List.map_map,
    List.map_congr_left each, List.map_id']

theorem denotes_floatCode (x : Single) (number : x.isNaN = false) (finite : x.isInf = false)
    (positive : x.isNegative = false) : Denotes (floatCode x) (fixedPoint x / 10 ^ places) := by
  have text := literal_of_finite number finite
  rw [positive, if_neg Bool.false_ne_true, List.nil_append] at text
  refine ⟨wholeDigits (fixedPoint x), fractionDigits (fixedPoint x), ?_, ?_, ?_, ?_⟩
  · rw [toList_floatCode, text]
  · exact List.append_ne_nil_of_left_ne_nil Nat.toDigits_ne_nil _
  · exact fun c mem => isDigit_of_mem_literal mem
  · exact (literal_value _).symm

theorem not_denotes_floatCode (x : Single)
    (other : x.isNaN = true ∨ x.isInf = true ∨ x.isNegative = true) (value : ℚ) :
    ¬ Denotes (floatCode x) value := by
  intro denotes
  have bad : ∃ c ∈ (floatCode x).toList, c ≠ '.' ∧ c.isDigit = false := by
    rw [toList_floatCode]
    unfold literal
    by_cases number : x.isNaN = true
    · rw [if_pos number]
      exact ⟨'N', by simp, by decide, by decide⟩
    · rw [if_neg number]
      by_cases infinite : x.isInf = true
      · rw [if_pos infinite]
        exact ⟨'I', by simp, by decide, by decide⟩
      · have negative := (other.resolve_left number).resolve_left infinite
        rw [if_neg infinite, if_pos negative]
        exact ⟨'-', List.mem_append_left _ (List.mem_append_left _ List.mem_cons_self),
          by decide, by decide⟩
  obtain ⟨c, mem, notPoint, notDigit⟩ := bad
  rcases denotes.char mem with point | digit
  · exact notPoint point
  · rw [notDigit] at digit
    contradiction

theorem isPositiveLiteral_floatCode (x : Single) :
    IsPositiveLiteral (floatCode x) ↔ x.isNaN = false ∧ x.isInf = false ∧ x.isNegative = false ∧
      1 / (2 * 10 ^ places) < x.magnitude.value := by
  rw [← fixedPoint_pos]
  constructor
  · rintro ⟨value, denotes, pos⟩
    have plain := mt (not_denotes_floatCode x · value) (not_not_intro denotes)
    simp only [not_or, Bool.not_eq_true] at plain
    obtain ⟨number, finite, positive⟩ := plain
    rw [denotes.unique (denotes_floatCode x number finite positive)] at pos
    refine ⟨number, finite, positive, ?_⟩
    by_contra none
    rw [Nat.eq_zero_of_not_pos none] at pos
    simp at pos
  · rintro ⟨number, finite, positive, pos⟩
    exact ⟨_, denotes_floatCode x number finite positive, by positivity⟩

theorem paren_not_mem_floatCode (x : Single) : '(' ∉ (floatCode x).toList := by
  intro mem
  rw [toList_floatCode] at mem
  exact absurd (literal_char mem) (by decide)

end EscapeTime.Shader
