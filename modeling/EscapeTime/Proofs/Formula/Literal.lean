import EscapeTime.Proofs.Formula.Typing
import Mathlib.Data.List.TakeWhile

/-!
# Literals

The code of a literal is a numeral with a point in it, and it denotes the same number as the numeral
that the literal was made from.
-/

namespace EscapeTime

open Node

namespace Number

/-- A digit or a point. -/
def IsNumeralChar (c : Char) : Prop :=
  '0' ≤ c ∧ c ≤ '9' ∨ c = '.'

theorem IsNumeralChar.range {c : Char} (isChar : IsNumeralChar c) :
    0x2e ≤ c.toNat ∧ c.toNat ≤ 0x39 := by
  rcases isChar with ⟨first, last⟩ | rfl
  · have low : 0x30 ≤ c.toNat := first
    exact ⟨by omega, last⟩
  · decide

theorem IsNumeralChar.ne {c d : Char} (isChar : IsNumeralChar c) (other : ¬IsNumeralChar d) :
    c ≠ d := by
  rintro rfl
  exact other isChar

theorem toLower_of_isNumeralChar {c : Char} (isChar : IsNumeralChar c) : c.toLower = c := by
  obtain ⟨-, high⟩ := isChar.range
  unfold Char.toLower
  split
  · rename_i upper
    have : 0x41 ≤ c.toNat := upper.1
    omega
  · rfl

/-- No word starts with a digit or a point. -/
theorem lower_ne_word {c w : Char} {cs word : List Char} (isChar : IsNumeralChar c)
    (letter : ¬IsNumeralChar w) : (c :: cs).map Char.toLower ≠ w :: word := by
  intro same
  obtain ⟨first, -⟩ := List.cons.inj same
  rw [toLower_of_isNumeralChar isChar] at first
  exact letter (first ▸ isChar)

instance (c : Char) : Decidable (IsNumeralChar c) :=
  inferInstanceAs (Decidable (_ ∨ _))

/-- A run of digits and points, perhaps after a minus sign, has no name and no base mark: it is
decimal or malformed. -/
theorem parse?_signed (negative : Bool) {s : String} {cs : List Char}
    (spelled : s.toList = (if negative then ['-'] else []) ++ cs) (nonempty : cs ≠ [])
    (all : ∀ d ∈ cs, IsNumeralChar d) :
    Numeral.parse? s = (readDecimal? cs).map (.finite negative) := by
  obtain ⟨c, cs, rfl⟩ := List.exists_cons_of_ne_nil nonempty
  have first : IsNumeralChar c := all c List.mem_cons_self
  have sign : splitSign s.toList = (negative, c :: cs) := by
    rw [spelled]
    cases negative
    · show splitSign (c :: cs) = _
      unfold splitSign
      split
      · rename_i same
        cases same
        exact absurd first (by decide)
      · rename_i same
        cases same
        exact absurd first (by decide)
      · rfl
    · rfl
  have noSeparator : (c :: cs).contains '_' = false := by
    rw [Bool.eq_false_iff, Ne, List.contains_iff_mem]
    exact fun member => absurd (all '_' member) (by decide)
  have notInf : (c :: cs).map Char.toLower ≠ "inf".toList := lower_ne_word first (by decide)
  have notInfinity : (c :: cs).map Char.toLower ≠ "infinity".toList :=
    lower_ne_word first (by decide)
  have notNan : s.toList.map Char.toLower ≠ "nan".toList := by
    rw [spelled]
    cases negative
    · exact lower_ne_word first (by decide)
    · intro same
      exact absurd (List.cons.inj same).1 (by decide)
  unfold Numeral.parse?
  simp only [sign, notInf, notInfinity, notNan, or_self, if_false, noSeparator, Bool.false_and,
    Bool.false_eq_true]
  congr 1
  split
  · rename_i mark d rest same
    have isMark : IsNumeralChar mark := all mark (by simp [same])
    rw [toLower_of_isNumeralChar isMark, if_neg]
    rintro rfl
    exact absurd isMark (by decide)
  · rfl

theorem parse?_of_isNumeral {numeral : String} (isNumeral : IsNumeral numeral) :
    Numeral.parse? numeral = (readDecimal? numeral.toList).map (.finite false) := by
  obtain ⟨⟨nonempty, -⟩, all⟩ := isNumeral
  exact parse?_signed false rfl (mt String.toList_eq_nil_iff.mp nonempty) all

theorem isDigitOf_ten {c : Char} (digit : '0' ≤ c ∧ c ≤ '9') : isDigitOf 10 c = true := by
  have low : 48 ≤ c.toNat := digit.1
  have high : c.toNat ≤ 57 := digit.2
  simp only [isDigitOf, digitValue?, toLower_of_isNumeralChar (.inl digit), low, high, and_self,
    if_true, decide_eq_true_eq]
  omega

theorem readDecimal?_point {digits : List Char} (all : ∀ c ∈ digits, '0' ≤ c ∧ c ≤ '9') :
    readDecimal? (digits ++ ['.']) = readDecimal? digits := by
  have belongs : ∀ c ∈ digits, (isDigitOf 10 c || c == '_') = true := fun c member => by
    rw [isDigitOf_ten (all c member), Bool.true_or]
  have scanned : Significand.scan 10 (digits ++ ['.']) = Significand.scan 10 digits := by
    have whole : digits.takeWhile (fun c => isDigitOf 10 c || c == '_') = digits :=
      List.takeWhile_eq_self_iff.mpr belongs
    have nothing : digits.dropWhile (fun c => isDigitOf 10 c || c == '_') = [] :=
      List.dropWhile_eq_nil_iff.mpr belongs
    have before : ['.'].takeWhile (fun c => isDigitOf 10 c || c == '_') = [] := by decide
    have point : ['.'].dropWhile (fun c => isDigitOf 10 c || c == '_') = ['.'] := by decide
    simp [Significand.scan, List.takeWhile_append_of_pos belongs,
      List.dropWhile_append_of_pos belongs, whole, nothing, before, point]
  unfold readDecimal?
  rw [scanned]

theorem isNumeral_point {numeral : String} (isNumeral : IsNumeral numeral) :
    IsNumeral (numeral ++ ".") := by
  have longer : numeral ++ "." ≠ "." := fun point => isNumeral.1.1 <| by
    rw [← String.toList_inj, String.toList_append] at point
    rw [← String.toList_inj]
    simpa using point
  refine ⟨⟨by simp, longer⟩, fun c member => ?_⟩
  rw [String.toList_append, List.mem_append] at member
  rcases member with member | member
  · exact isNumeral.2 c member
  · exact .inr (List.mem_singleton.mp member)

theorem readSingle_point {numeral : String} (isNumeral : IsNumeral numeral)
    (whole : '.' ∉ numeral.toList) : readSingle (numeral ++ ".") = readSingle numeral := by
  have digits : ∀ c ∈ numeral.toList, '0' ≤ c ∧ c ≤ '9' := fun c member =>
    (isNumeral.2 c member).resolve_right fun point => whole (point ▸ member)
  unfold readSingle
  rw [parse?_of_isNumeral (isNumeral_point isNumeral), parse?_of_isNumeral isNumeral,
    String.toList_append, show ".".toList = ['.'] from rfl, readDecimal?_point digits]

end Number

/-- The code of a literal is a numeral that denotes the value of the literal. -/
theorem Node.IsLiteral.code {v : Literal} (literal : IsLiteral v) :
    IsNumeral v.code ∧ (Literal.ofNumeral v.code).value = v.value := by
  obtain ⟨numeral, isNumeral, rfl⟩ := literal
  by_cases point : '.' ∈ numeral.toList
  · have code : (Literal.ofNumeral numeral).code = numeral := by
      simp [Literal.ofNumeral, point]
    rw [code]
    exact ⟨isNumeral, rfl⟩
  · have code : (Literal.ofNumeral numeral).code = numeral ++ "." := by
      simp [Literal.ofNumeral, point]
    rw [code]
    refine ⟨Number.isNumeral_point isNumeral, ?_⟩
    simp only [Literal.ofNumeral, Number.readSingle_point isNumeral point]

end EscapeTime
