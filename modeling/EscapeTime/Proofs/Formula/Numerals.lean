import EscapeTime.Proofs.Formula.Literal
import EscapeTime.Proofs.Formula.Origin
import EscapeTime.Proofs.Formula.Safety
import EscapeTime.Proofs.Number.Quotient
import EscapeTime.Proofs.Shader.FloatLiteral

/-!
# Numerals and what they denote

A number of a formula is a run of digits and points other than a lone point. With one point at most
it is a decimal numeral: it is written as a float literal for the same number, and its value is a
number below the bound of overflow. With more points it denotes nothing: what is written is no
literal, and the value is NaN.
-/

namespace EscapeTime

open Node Number
open Shader (Denotes)

/-- The text is a decimal numeral for the number: digits, at least one of them, and at most one
point. -/
def Decimal (text : String) (value : ℚ) : Prop :=
  Denotes text value ∨ text.toList ≠ [] ∧ (∀ c ∈ text.toList, c.isDigit = true) ∧
    value = Nat.ofDigitChars 10 text.toList 0

namespace Number

/-! ### Digits -/

theorem isDigit_iff {c : Char} : c.isDigit = true ↔ '0' ≤ c ∧ c ≤ '9' := by
  simp only [Char.isDigit, Bool.and_eq_true, decide_eq_true_eq]
  exact Iff.rfl

theorem point_not_digit {ds : List Char} (digits : ∀ c ∈ ds, c.isDigit = true) : '.' ∉ ds :=
  fun member => absurd (digits _ member) (by decide)

theorem digitValue?_digit {c : Char} (digit : c.isDigit = true) :
    digitValue? c = some (c.toNat - 48) := by
  have range := isDigit_iff.mp digit
  have low : 48 ≤ c.toNat := range.1
  have high : c.toNat ≤ 57 := range.2
  simp only [digitValue?, toLower_of_isNumeralChar (.inl range), low, high, and_self, if_true]

theorem digitsValue_eq {ds : List Char} (digits : ∀ c ∈ ds, c.isDigit = true) :
    digitsValue 10 ds = Nat.ofDigitChars 10 ds 0 := by
  have fold (init : Nat) : ds.foldl (fun n c => n * 10 + (digitValue? c).getD 0) init =
      Nat.ofDigitChars 10 ds init := by
    induction ds generalizing init with
    | nil => rfl
    | cons c ds ih =>
      obtain ⟨first, others⟩ := List.forall_mem_cons.mp digits
      rw [List.foldl_cons, ih others, Nat.ofDigitChars_cons, digitValue?_digit first,
        Nat.mul_comm init 10]
      rfl
  exact fold 0

theorem digits_belong {ds : List Char} (digits : ∀ c ∈ ds, c.isDigit = true) :
    (∀ c ∈ ds, (isDigitOf 10 c || c == '_') = true) ∧ ds.filter (· != '_') = ds := by
  constructor
  · intro c member
    rw [isDigitOf_ten (isDigit_iff.mp (digits c member)), Bool.true_or]
  · rw [List.filter_eq_self]
    intro c member
    rw [bne_iff_ne]
    rintro rfl
    exact absurd (digits _ member) (by decide)

/-! ### Reading digits and points -/

theorem scan_whole {ds : List Char} (digits : ∀ c ∈ ds, c.isDigit = true) :
    Significand.scan 10 ds = ⟨ds, 0, []⟩ := by
  obtain ⟨belong, kept⟩ := digits_belong digits
  unfold Significand.scan
  dsimp only
  rw [List.dropWhile_eq_nil_iff.mpr belong, List.takeWhile_eq_self_iff.mpr belong, kept]

theorem scan_point {whole fraction more : List Char} (left : ∀ c ∈ whole, c.isDigit = true)
    (right : ∀ c ∈ fraction, c.isDigit = true) (stop : ∀ c ∈ more.head?, c = '.') :
    Significand.scan 10 (whole ++ '.' :: (fraction ++ more)) =
      ⟨whole ++ fraction, fraction.length, more⟩ := by
  obtain ⟨belongLeft, keptLeft⟩ := digits_belong left
  obtain ⟨belongRight, keptRight⟩ := digits_belong right
  have pointStops : (isDigitOf 10 '.' || '.' == '_') = false := by decide
  obtain ⟨takenLeft, droppedLeft⟩ := takeWhile_before ('.' :: (fraction ++ more)) belongLeft (by
    rintro c ⟨⟩
    exact pointStops)
  obtain ⟨takenRight, droppedRight⟩ := takeWhile_before more belongRight (by
    intro c first
    rw [stop c first]
    exact pointStops)
  unfold Significand.scan
  dsimp only
  simp only [takenLeft, droppedLeft, takenRight, droppedRight, keptLeft, keptRight]

theorem readDecimal?_whole {ds : List Char} (digits : ∀ c ∈ ds, c.isDigit = true)
    (nonempty : ds ≠ []) : readDecimal? ds = some ⟨10, Nat.ofDigitChars 10 ds 0, 0 - (0 : Nat)⟩ := by
  unfold readDecimal?
  rw [scan_whole digits]
  dsimp only
  rw [if_neg (by simpa using nonempty), digitsValue_eq digits]

theorem readDecimal?_one_point {whole fraction : List Char}
    (digits : ∀ c ∈ whole ++ fraction, c.isDigit = true) (nonempty : whole ++ fraction ≠ []) :
    readDecimal? (whole ++ '.' :: fraction) =
      some ⟨10, Nat.ofDigitChars 10 (whole ++ fraction) 0, 0 - fraction.length⟩ := by
  have scanned : Significand.scan 10 (whole ++ '.' :: (fraction ++ [])) = _ :=
    scan_point (fun c member => digits c (List.mem_append_left fraction member))
      (fun c member => digits c (List.mem_append_right whole member)) nofun
  rw [List.append_nil] at scanned
  unfold readDecimal?
  rw [scanned]
  dsimp only
  rw [if_neg (by simpa using nonempty), digitsValue_eq digits]

theorem readDecimal?_two_points {whole fraction more : List Char}
    (left : ∀ c ∈ whole, c.isDigit = true) (right : ∀ c ∈ fraction, c.isDigit = true) :
    readDecimal? (whole ++ '.' :: (fraction ++ '.' :: more)) = none := by
  have noExponent : '.'.toLower ≠ 'e' := by decide
  unfold readDecimal?
  rw [scan_point left right (by rintro c ⟨⟩; rfl)]
  dsimp only
  split_ifs <;> rfl

end Number

/-! ### Decimal numerals -/

theorem Shader.Denotes.count_point {text : String} {v : ℚ} (denotes : Denotes text v) :
    text.toList.count '.' = 1 := by
  obtain ⟨whole, fraction, split, -, digits, -⟩ := denotes
  have left : '.' ∉ whole :=
    point_not_digit fun c member => digits c (List.mem_append_left fraction member)
  have right : '.' ∉ fraction :=
    point_not_digit fun c member => digits c (List.mem_append_right whole member)
  rw [split, List.count_append, List.count_cons_self, List.count_eq_zero.mpr left,
    List.count_eq_zero.mpr right]

theorem Decimal.count_point_le {text : String} {v : ℚ} (decimal : Decimal text v) :
    text.toList.count '.' ≤ 1 := by
  rcases decimal with denotes | ⟨-, digits, -⟩
  · exact Nat.le_of_eq denotes.count_point
  · rw [List.count_eq_zero.mpr (point_not_digit digits)]
    exact Nat.zero_le 1

theorem decimal_iff_of_point {text : String} (point : '.' ∈ text.toList) (v : ℚ) :
    Decimal text v ↔ Denotes text v := by
  refine or_iff_left ?_
  rintro ⟨-, digits, -⟩
  exact point_not_digit digits point

theorem decimal_iff_of_digits {text : String} (nonempty : text.toList ≠ [])
    (digits : ∀ c ∈ text.toList, c.isDigit = true) (v : ℚ) :
    Decimal text v ↔ v = Nat.ofDigitChars 10 text.toList 0 := by
  constructor
  · rintro (denotes | ⟨-, -, value⟩)
    · have count := denotes.count_point
      rw [List.count_eq_zero.mpr (point_not_digit digits)] at count
      cases count
    · exact value
  · intro value
    exact .inr ⟨nonempty, digits, value⟩

/-- Digits with points among them, by the number of points. -/
inductive Pointed : List Char → Prop
  | none {ds : List Char} : ds ≠ [] → (∀ c ∈ ds, c.isDigit = true) → Pointed ds
  | one {whole fraction : List Char} :
    whole ++ fraction ≠ [] → (∀ c ∈ whole ++ fraction, c.isDigit = true) →
      Pointed (whole ++ '.' :: fraction)
  | more {whole fraction rest : List Char} :
    (∀ c ∈ whole, c.isDigit = true) → (∀ c ∈ fraction, c.isDigit = true) →
      Pointed (whole ++ '.' :: (fraction ++ '.' :: rest))

theorem pointed {numeral : String} (isNumeral : IsNumeral numeral) : Pointed numeral.toList := by
  obtain ⟨⟨nonempty, notPoint⟩, chars⟩ := isNumeral
  have some : numeral.toList ≠ [] := fun nil => nonempty (String.toList_eq_nil_iff.mp nil)
  have other : numeral.toList ≠ ['.'] := fun point => notPoint (String.toList_inj.mp point)
  generalize numeral.toList = cs at chars some other
  have digits {ds : List Char} (part : ds ⊆ cs) (noPoint : '.' ∉ ds) :
      ∀ c ∈ ds, c.isDigit = true := by
    intro c member
    refine isDigit_iff.mpr ((chars c (part member)).resolve_right ?_)
    rintro rfl
    exact noPoint member
  by_cases point : '.' ∈ cs
  · obtain ⟨whole, rest, rfl, first⟩ := List.eq_append_cons_of_mem point
    by_cases second : '.' ∈ rest
    · obtain ⟨fraction, rest, rfl, noPoint⟩ := List.eq_append_cons_of_mem second
      exact .more (digits (List.subset_append_left _ _) first)
        (digits (fun c member => by simp [member]) noPoint)
    · refine .one ?_ (digits (by simp) (by simp [first, second]))
      intro nil
      obtain ⟨rfl, rfl⟩ := List.append_eq_nil_iff.mp nil
      exact other rfl
  · exact .none some (digits (List.Subset.refl cs) point)

/-- A numeral with one point at most is read as the number that it denotes. One with more points is
not read. -/
theorem decimal_cases {numeral : String} (isNumeral : IsNumeral numeral) :
    numeral.toList.count '.' ≤ 1 ∧ (∃ digits places : Nat,
        readDecimal? numeral.toList = some ⟨10, digits, 0 - places⟩ ∧
        ∀ v, Decimal numeral v ↔ v = digits / 10 ^ places) ∨
      1 < numeral.toList.count '.' ∧ readDecimal? numeral.toList = none := by
  have shape := pointed isNumeral
  generalize spelled : numeral.toList = cs at shape
  cases shape with
  | none nonempty digits =>
    refine .inl ⟨?_, _, 0, readDecimal?_whole digits nonempty, fun v => ?_⟩
    · rw [List.count_eq_zero.mpr (point_not_digit digits)]
      exact Nat.zero_le 1
    · subst spelled
      rw [decimal_iff_of_digits nonempty digits, pow_zero, div_one]
  | @one whole fraction nonempty digits =>
    have denotes : Denotes numeral _ := ⟨whole, fraction, spelled, nonempty, digits, rfl⟩
    have count := denotes.count_point
    rw [spelled] at count
    refine .inl ⟨Nat.le_of_eq count, _, _, readDecimal?_one_point digits nonempty, fun v => ?_⟩
    rw [decimal_iff_of_point (by simp [spelled])]
    exact ⟨fun other => other.unique denotes, fun value => value ▸ denotes⟩
  | more left right =>
    refine .inr ⟨?_, readDecimal?_two_points left right⟩
    simp only [List.count_append, List.count_cons_self]
    omega

theorem exists_decimal_iff {numeral : String} (isNumeral : IsNumeral numeral) :
    (∃ v, Decimal numeral v) ↔ numeral.toList.count '.' ≤ 1 := by
  constructor
  · rintro ⟨v, decimal⟩
    exact decimal.count_point_le
  · intro points
    obtain ⟨-, digits, places, -, decimal⟩ | ⟨many, -⟩ := decimal_cases isNumeral
    · exact ⟨_, (decimal _).mpr rfl⟩
    · omega

/-! ### Literals -/

theorem isNaN_ofSignBits {bits : Nat} (finite : bits < 0x7f800000) :
    (Single.ofSignBits false bits).isNaN = false := by
  rw [Bool.eq_false_iff, Ne, Single.isNaN_iff, Single.toNat_ofSignBits false (by omega)]
  simp only [Bool.false_eq_true, if_false]
  omega

/-- The value of a literal is a number where its numeral denotes one below the bound of overflow. -/
theorem value_isNaN {numeral : String} (isNumeral : IsNumeral numeral) :
    (Literal.ofNumeral numeral).value.isNaN = false ↔
      ∃ v, Decimal numeral v ∧ v < Number.overflow := by
  have nan : Single.nan.isNaN ≠ false := by decide
  unfold Literal.ofNumeral readSingle
  rw [parse?_of_isNumeral isNumeral]
  obtain ⟨-, digits, places, read, decimal⟩ | ⟨many, read⟩ := decimal_cases isNumeral
  · rw [read]
    -- A number that would be infinite is not read either.
    have bound := Scientific.nearest_eq_infinity_iff digits places
    by_cases large : Number.overflow ≤ (digits : ℚ) / 10 ^ places
    · simp only [Option.map_some, bound.mpr large, if_true]
      refine iff_of_false nan ?_
      rintro ⟨v, denoted, small⟩
      rw [(decimal v).mp denoted] at small
      exact not_lt.mpr large small
    · simp only [Option.map_some, mt bound.mp large, if_false]
      refine iff_of_true (isNaN_ofSignBits ?_) ⟨_, (decimal _).mpr rfl, not_le.mp large⟩
      exact Nat.lt_of_le_of_ne (Scientific.nearest_le _) (mt bound.mp large)
  · rw [read]
    refine iff_of_false nan ?_
    rintro ⟨v, denoted, -⟩
    exact Nat.not_lt.mpr denoted.count_point_le many

/-- The code of a literal is a float literal for the number that the numeral denotes. -/
theorem code_denotes (numeral : String) (v : ℚ) :
    Denotes (Literal.ofNumeral numeral).code v ↔ Decimal numeral v := by
  by_cases point : '.' ∈ numeral.toList
  · rw [decimal_iff_of_point point]
    simp [Literal.ofNumeral, point]
  · have code : (Literal.ofNumeral numeral).code = numeral ++ "." := by
      simp [Literal.ofNumeral, point]
    -- The point that is added is the only one, so the numeral is all that stands before it.
    have spelled : (numeral ++ ".").toList = numeral.toList ++ '.' :: [] := String.toList_append
    rw [code]
    constructor
    · rintro ⟨whole, fraction, split, some, digits, rfl⟩
      have left : '.' ∉ whole :=
        point_not_digit fun c member => digits c (List.mem_append_left fraction member)
      have right : '.' ∉ fraction :=
        point_not_digit fun c member => digits c (List.mem_append_right whole member)
      obtain ⟨rfl, -, rfl⟩ :=
        (List.append_cons_inj_of_notMem left right).mp (split.symm.trans spelled)
      rw [List.append_nil] at some digits
      exact .inr ⟨some, digits, by rw [List.append_nil, List.length_nil, pow_zero, div_one]⟩
    · rintro (denotes | ⟨some, digits, rfl⟩)
      · have count := denotes.count_point
        rw [List.count_eq_zero.mpr point] at count
        cases count
      · refine ⟨numeral.toList, [], spelled, ?_, ?_, ?_⟩
        · rwa [List.append_nil]
        · rwa [List.append_nil]
        · rw [List.append_nil, List.length_nil, pow_zero, div_one]

theorem count_point_code (numeral : String) :
    (Literal.ofNumeral numeral).code.toList.count '.' = max 1 (numeral.toList.count '.') := by
  unfold Literal.ofNumeral
  dsimp only
  split_ifs with point
  · have some : 0 < numeral.toList.count '.' := List.count_pos_iff.mpr (by simpa using point)
    omega
  · have none : numeral.toList.count '.' = 0 := List.count_eq_zero.mpr (by simpa using point)
    rw [String.toList_append, List.count_append, none]
    rfl

/-! ### Accepted formulas -/

/-- The literals that stand in the node itself. -/
def Node.literals : Node → List Literal
  | real _ v => [v]
  | imaginary _ v => [v]
  | complex _ _ re im => [re, im]
  | _ => []

/-- The numeral of a number token, or of an implied zero or one. -/
def Stands (ts : List Token) (numeral : String) : Prop :=
  numeral ∈ ["0", "1"] ∨ ∃ t ∈ ts, t.kind = .number ∧ t.text = numeral

/-- Typing keeps the literals of a tree. -/
theorem Node.MadeOf.fix_literals {ts : List Token} {n n' : Node} (made : n.MadeOf ts)
    (done : n.fix = (n', none)) :
    ∀ m ∈ n'.nodes, ∀ v ∈ m.literals, ∃ numeral, Stands ts numeral ∧ v = .ofNumeral numeral := by
  induction made generalizing n' with
  | number member kind =>
    cases done
    rintro m (_ | ⟨_, ⟨⟩⟩) v (_ | ⟨_, ⟨⟩⟩)
    exact ⟨_, .inr ⟨_, member, kind, rfl⟩, rfl⟩
  | zero | unit =>
    cases done
    rintro m (_ | ⟨_, ⟨⟩⟩) v (_ | ⟨_, ⟨⟩⟩)
    exact ⟨_, .inl (by simp), rfl⟩
  | imaginaryPart member kind =>
    cases done
    rintro m (_ | ⟨_, ⟨⟩⟩) v (_ | ⟨_, _ | ⟨_, ⟨⟩⟩⟩)
    · exact ⟨_, .inl (by simp), rfl⟩
    · exact ⟨_, .inr ⟨_, member, kind, rfl⟩, rfl⟩
  | z | raw =>
    cases done
    rintro m (_ | ⟨_, ⟨⟩⟩) v ⟨⟩
  | binary _ _ _ left right =>
    obtain ⟨l, r, fixedLeft, fixedRight, -, -, rfl⟩ := fix_binary_ok done
    intro m there v literal
    rw [nodes_binary] at there
    simp only [List.mem_cons, List.mem_append] at there
    obtain rfl | there | there := there
    · cases literal
    · exact left fixedLeft m there v literal
    · exact right fixedRight m there v literal
  | call _ _ _ ih =>
    obtain ⟨found, args', fixed, rfl⟩ := fix_call_ok done
    intro m there v literal
    rw [nodes_call] at there
    simp only [List.mem_cons, List.mem_flatMap] at there
    obtain rfl | ⟨a', argument, there⟩ := there
    · cases literal
    · obtain ⟨a, member, fixed⟩ := exists_of_mem (fixArgs_ok fixed).1 argument
      exact ih a member fixed m there v literal

theorem stands_isNumeral {formula : List Char} {ts : List Token} (lexed : tokenize formula = .ok ts)
    {numeral : String} (stands : Stands ts numeral) : IsNumeral numeral := by
  rcases stands with implied | ⟨t, member, kind, rfl⟩
  · rcases List.mem_pair.mp implied with rfl | rfl <;> decide
  · exact ((tokenize_ok lexed).sound t member).2 kind

/-- A number of an accepted formula is a decimal numeral if and only if it has one point at most.
Each literal of the tree is that of such a number or of an implied zero or one. Its code is a float
literal for the same number, with one point or with all the points of the numeral, and its value is
NaN unless the numeral denotes a number below the bound of overflow. -/
theorem accepted_numerals {source : String} {f : Formula} (accepted : Formula.parse source = .ok f) :
    ∃ tokens, tokenize source.toList = .ok tokens ∧
      (∀ t ∈ tokens, t.kind = .number →
        ((∃ x, Decimal t.text x) ↔ t.text.toList.count '.' ≤ 1)) ∧
      ∀ n ∈ f.root.nodes, ∀ v ∈ n.literals, ∃ numeral,
        Stands tokens numeral ∧ v = .ofNumeral numeral ∧
        (∀ x, Denotes v.code x ↔ Decimal numeral x) ∧
        v.code.toList.count '.' = max 1 (numeral.toList.count '.') ∧
        (v.value.isNaN = false ↔ ∃ x, Decimal numeral x ∧ x < Number.overflow) := by
  obtain ⟨tokens, tree, lexed, parsed, fixed, -⟩ := Formula.parse_ok accepted
  refine ⟨tokens, lexed, fun t member kind => ?_, fun n there v literal => ?_⟩
  · exact exists_decimal_iff (((tokenize_ok lexed).sound t member).2 kind)
  · obtain ⟨numeral, stands, rfl⟩ := (Parse.formula_made parsed).fix_literals fixed n there v literal
    exact ⟨numeral, stands, rfl, code_denotes numeral, count_point_code numeral,
      value_isNaN (stands_isNumeral lexed stands)⟩

/-- The formula `1..2-.5z`. -/
def Formula.twoPoints : Formula :=
  ⟨"1..2-.5z", .binary 4 .complex .sub (.ofReal 0 "1..2")
    (.binary 5 .complex .mul (.ofReal 5 ".5") (.z 7))⟩

/-- A point more or less decides between a number and none. -/
theorem twoPoints_numerals :
    Formula.parse "1..2-.5z" = .ok .twoPoints ∧ (∃ x, Decimal ".5" x) ∧ (¬∃ x, Decimal "1..2" x) ∧
      (Literal.ofNumeral "1..2").value.isNaN = true := by
  have lexed : tokenize "1..2-.5z".toList =
      .ok [⟨.number, 0, "1..2", false⟩, ⟨.op, 4, "-", false⟩, ⟨.number, 5, ".5", false⟩, .times 6,
        ⟨.z, 7, "", false⟩] := by
    decide +kernel
  have accepted : Formula.parse "1..2-.5z" = .ok .twoPoints := by
    rw [Formula.parse, lexed]
    rfl
  obtain ⟨tokens, lexed', numbers, literals⟩ := accepted_numerals accepted
  obtain rfl := Except.ok.inj (lexed.symm.trans lexed')
  have half := numbers ⟨.number, 5, ".5", false⟩ (by simp) rfl
  have twice := numbers ⟨.number, 0, "1..2", false⟩ (by simp) rfl
  obtain ⟨numeral, -, -, denotes, -, value⟩ := literals (.ofReal 0 "1..2")
    (by simp [Formula.twoPoints, nodes_binary, mem_nodes]) (.ofNumeral "1..2")
    (by simp [ofReal, Node.literals])
  refine ⟨accepted, half.mpr (by decide), mt twice.mp (by decide), ?_⟩
  rw [← Bool.not_eq_false, value]
  rintro ⟨x, decimal, -⟩
  exact absurd ((denotes x).mpr decimal).count_point (by decide)

/-- The formula `1..2` is accepted, and neither its number nor its code is a numeral. -/
theorem twoPoints_accepted :
    ∃ f, Formula.parse "1..2" = .ok f ∧ f.root.literals = [.ofNumeral "1..2"] ∧
      tokenize "1..2".toList = .ok [⟨.number, 0, "1..2", false⟩] ∧ (¬∃ x, Decimal "1..2" x) ∧
      (Literal.ofNumeral "1..2").code.toList.count '.' = 2 ∧
      (Literal.ofNumeral "1..2").value.isNaN = true := by
  have lexed : tokenize "1..2".toList = .ok [⟨.number, 0, "1..2", false⟩] := by
    decide +kernel
  refine ⟨⟨"1..2", .ofReal 0 "1..2"⟩, ?_, rfl, lexed, ?_, ?_, ?_⟩
  · rw [Formula.parse, lexed]
    rfl
  · rintro ⟨x, decimal⟩
    exact absurd decimal.count_point_le (by decide)
  · decide
  · decide +kernel

end EscapeTime
