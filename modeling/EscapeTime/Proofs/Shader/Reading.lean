import EscapeTime.Proofs.Formula.Lexeme
import EscapeTime.Proofs.Shader.Expression

/-!
# Texts that spell expressions

A text spells an expression if the reader takes it for that expression wherever it stands, whatever
may follow it there. Texts are put together as the language puts its expressions together, so no
part of a text is ever read in another way than alone.
-/

namespace EscapeTime.Shader

/-- The characters that may follow a chain of operands. -/
def Tier.marks : Tier → List Char
  | sum => [',', ')']
  | product => ['+', '-', ',', ')']

/-- The characters that may follow an operand. -/
def Tier.operandMarks : Tier → List Char
  | sum => ['+', '-', ',', ')']
  | product => ['*', '/', '+', '-', ',', ')']

/-- One of these characters comes next, if any does. -/
def Before (marks rest : List Char) : Prop :=
  ∀ c ∈ rest.head?, c ∈ marks

theorem before_nil (marks : List Char) : Before marks [] :=
  nofun

theorem before_cons {c : Char} {marks : List Char} (member : c ∈ marks) (rest : List Char) :
    Before marks (c :: rest) := by
  rintro _ ⟨⟩
  exact member

theorem Before.mono {marks marks' rest : List Char} (before : Before marks rest)
    (subset : marks ⊆ marks') : Before marks' rest :=
  fun c head => subset (before c head)

theorem marks_subset (tier : Tier) : tier.marks ⊆ tier.operandMarks := by
  cases tier <;> simp [Tier.marks, Tier.operandMarks]

theorem operator?_of_mark {tier : Tier} {c : Char} (member : c ∈ tier.marks) :
    tier.operator? c = none := by
  have all : tier.marks.all fun c => tier.operator? c = none := by
    cases tier <;> decide
  simpa using List.all_eq_true.mp all c member

theorem mark_of_operator? {tier : Tier} {c : Char} {op : Arithmetic}
    (operator : tier.operator? c = some op) : c ∈ tier.operandMarks := by
  unfold Tier.operator? at operator
  split at operator <;> simp_all [Tier.operandMarks]

theorem not_isWordChar_of_mark {c : Char} (member : c ∈ Tier.product.operandMarks) :
    isWordChar c = false := by
  have all : Tier.product.operandMarks.all fun c => !isWordChar c := by decide
  simpa using List.all_eq_true.mp all c member

theorem not_isNumeralChar_of_mark {c : Char} (member : c ∈ Tier.product.operandMarks) :
    isNumeralChar c = false := by
  have all : Tier.product.operandMarks.all fun c => !isNumeralChar c := by decide
  simpa using List.all_eq_true.mp all c member

/-! ### Texts -/

/-- The calls that reading an operand of the tier makes before it reads a factor. -/
def Tier.depth : Tier → Nat
  | sum => 3
  | product => 1

theorem Tier.depth_pos (tier : Tier) : 0 < tier.depth := by
  cases tier <;> decide

def IsFactor (text : List Char) (e : Expression) : Prop :=
  ∀ fuel rest, 5 * text.length ≤ fuel → Before Tier.product.operandMarks rest →
    factor fuel (text ++ rest) = some (e, rest)

def IsOperand (tier : Tier) (text : List Char) (e : Expression) : Prop :=
  ∀ fuel rest, 5 * text.length + tier.depth ≤ fuel → Before tier.operandMarks rest →
    operand fuel tier (text ++ rest) = some (e, rest)

def IsChain (tier : Tier) (text : List Char) (e : Expression) : Prop :=
  ∀ fuel rest, 5 * text.length + tier.depth + 1 ≤ fuel → Before tier.marks rest →
    chain fuel tier (text ++ rest) = some (e, rest)

def IsArguments (text : List Char) (es : List Expression) : Prop :=
  ∀ fuel rest, 5 * text.length + 5 ≤ fuel →
    arguments fuel (text ++ ')' :: rest) = some (es, rest)

theorem more_stop {fuel : Nat} {tier : Tier} {e : Expression} {rest : List Char}
    (before : Before tier.marks rest) : more (fuel + 1) tier e rest = some (e, rest) := by
  cases rest with
  | nil => rfl
  | cons c rest => rw [more, operator?_of_mark (before c rfl)]

theorem selections_stop {e : Expression} {rest : List Char}
    (before : Before Tier.product.operandMarks rest) : selections e rest = (e, rest) := by
  unfold selections
  split
  · exact absurd (before '.' rfl) (by decide)
  · exact absurd (before '.' rfl) (by decide)
  · rfl

/-! ### Chains -/

theorem IsFactor.isOperand {text : List Char} {e : Expression} (isFactor : IsFactor text e) :
    IsOperand .product text e := by
  intro fuel rest enough before
  simp only [Tier.depth] at enough
  obtain ⟨fuel, rfl⟩ := Nat.exists_eq_add_of_le' (show 1 ≤ fuel by omega)
  exact isFactor fuel rest (by omega) before

theorem IsChain.isOperand {text : List Char} {e : Expression} (isChain : IsChain .product text e) :
    IsOperand .sum text e := by
  intro fuel rest enough before
  simp only [Tier.depth] at enough
  obtain ⟨fuel, rfl⟩ := Nat.exists_eq_add_of_le' (show 1 ≤ fuel by omega)
  exact isChain fuel rest (by simp only [Tier.depth]; omega) before

theorem IsOperand.isChain {tier : Tier} {text : List Char} {e : Expression}
    (isOperand : IsOperand tier text e) : IsChain tier text e := by
  intro fuel rest enough before
  have depth := tier.depth_pos
  obtain ⟨fuel, rfl⟩ := Nat.exists_eq_add_of_le' (show 2 ≤ fuel by omega)
  rw [chain, isOperand (fuel + 1) rest (by omega) (before.mono (marks_subset tier))]
  exact more_stop before

theorem IsFactor.isChain {text : List Char} {e : Expression} (isFactor : IsFactor text e) :
    IsChain .sum text e :=
  isFactor.isOperand.isChain.isOperand.isChain

/-- Two operands with an operator of their tier between them. -/
theorem isChain_arith {tier : Tier} {c : Char} {op : Arithmetic} {left right : List Char}
    {lhs rhs : Expression} (operator : tier.operator? c = some op)
    (isLeft : IsOperand tier left lhs) (isRight : IsOperand tier right rhs) :
    IsChain tier (left ++ c :: right) (.arith op lhs rhs) := by
  intro fuel rest enough before
  simp only [List.length_append, List.length_cons] at enough
  obtain ⟨fuel, rfl⟩ := Nat.exists_eq_add_of_le' (show 3 ≤ fuel by omega)
  rw [List.append_assoc, List.cons_append, chain, isLeft (fuel + 2) _ (by omega)
    (before_cons (mark_of_operator? operator) _)]
  simp only [bind, Option.bind, more, operator]
  rw [isRight (fuel + 1) rest (by omega) (before.mono (marks_subset tier))]
  exact more_stop before

/-! ### Factors -/

/-- A name: letters, digits and underscores that do not start like a numeral. -/
def IsWord (word : List Char) : Prop :=
  word.head?.any (fun c => !isNumeralChar c) ∧ word.all isWordChar

instance (word : List Char) : Decidable (IsWord word) :=
  inferInstanceAs (Decidable (_ ∧ _))

theorem IsWord.cons {word : List Char} (isWord : IsWord word) :
    ∃ c cs, word = c :: cs ∧ c ≠ '(' ∧ isNumeralChar c = false ∧ isWordChar c := by
  obtain ⟨first, all⟩ := isWord
  cases word with
  | nil => cases first
  | cons c cs =>
    have isChar : isWordChar c := List.all_eq_true.mp all c (by simp)
    refine ⟨c, cs, rfl, ?_, by simpa using first, isChar⟩
    rintro rfl
    cases isChar

theorem isFactor_name {word : List Char} (isWord : IsWord word) :
    IsFactor word (.name (String.ofList word)) := by
  intro fuel rest enough before
  obtain ⟨taken, dropped⟩ := takeWhile_before rest (List.all_eq_true.mp isWord.2)
    fun c head => not_isWordChar_of_mark (before c head)
  obtain ⟨c, cs, rfl, notParen, notNumeral, isChar⟩ := isWord.cons
  obtain ⟨fuel, rfl⟩ := Nat.exists_eq_add_of_le' (show 1 ≤ fuel by simp at enough; omega)
  rw [List.cons_append] at taken dropped ⊢
  simp only [factor, if_neg notParen, notNumeral, Bool.false_eq_true, if_false, isChar, if_true,
    taken, dropped]
  split
  · exact absurd (before '(' rfl) (by decide)
  · rfl

theorem isFactor_literal {numeral : List Char} (nonempty : numeral ≠ [])
    (all : ∀ c ∈ numeral, isNumeralChar c) :
    IsFactor numeral (.literal (String.ofList numeral)) := by
  intro fuel rest enough before
  obtain ⟨taken, dropped⟩ := takeWhile_before rest all
    fun c head => not_isNumeralChar_of_mark (before c head)
  obtain ⟨c, cs, rfl⟩ := List.exists_cons_of_ne_nil nonempty
  obtain ⟨fuel, rfl⟩ := Nat.exists_eq_add_of_le' (show 1 ≤ fuel by simp at enough; omega)
  have isChar := all c (by simp)
  have notParen : c ≠ '(' := by
    rintro rfl
    cases isChar
  rw [List.cons_append] at taken dropped ⊢
  simp only [factor, if_neg notParen, isChar, if_true, taken, dropped]

/-- What is read in parentheses, before selections from it. -/
theorem factor_paren {text : List Char} {e : Expression} (isChain : IsChain .sum text e)
    (fuel : Nat) (enough : 5 * text.length + 4 ≤ fuel) (rest : List Char) :
    factor (fuel + 1) ('(' :: (text ++ ')' :: rest)) = some (selections e rest) := by
  have inner := isChain fuel (')' :: rest) enough (before_cons (by decide) rest)
  simp only [factor, if_true, inner, bind, Option.bind]

theorem isFactor_paren {text : List Char} {e : Expression} (isChain : IsChain .sum text e) :
    IsFactor ('(' :: (text ++ [')'])) e := by
  intro fuel rest enough before
  simp only [List.length_cons, List.length_append, List.length_nil] at enough
  obtain ⟨fuel, rfl⟩ := Nat.exists_eq_add_of_le' (show 1 ≤ fuel by omega)
  have read := factor_paren isChain fuel (by omega) rest
  rw [selections_stop before] at read
  simpa using read

def Coordinate.letter : Coordinate → Char
  | x => 'x'
  | y => 'y'

theorem isFactor_select {text : List Char} {e : Expression} (isChain : IsChain .sum text e)
    (coordinate : Coordinate) :
    IsFactor ('(' :: (text ++ [')', '.', coordinate.letter])) (.select e coordinate) := by
  intro fuel rest enough before
  simp only [List.length_cons, List.length_append, List.length_nil] at enough
  obtain ⟨fuel, rfl⟩ := Nat.exists_eq_add_of_le' (show 1 ≤ fuel by omega)
  have read := factor_paren isChain fuel (by omega) ('.' :: coordinate.letter :: rest)
  have selected :
      selections e ('.' :: coordinate.letter :: rest) = (.select e coordinate, rest) := by
    cases coordinate
    · exact selections_stop before
    · exact selections_stop before
  rw [selected] at read
  simpa using read

theorem isFactor_call {word args : List Char} {es : List Expression} (isWord : IsWord word)
    (isArguments : IsArguments args es) :
    IsFactor (word ++ '(' :: (args ++ [')'])) (.call (String.ofList word) es) := by
  intro fuel rest enough before
  obtain ⟨taken, dropped⟩ := takeWhile_before ('(' :: (args ++ ')' :: rest))
    (List.all_eq_true.mp isWord.2) (by rintro _ ⟨⟩; rfl)
  obtain ⟨c, cs, rfl, notParen, notNumeral, isChar⟩ := isWord.cons
  simp only [List.length_cons, List.length_append, List.length_nil] at enough
  obtain ⟨fuel, rfl⟩ := Nat.exists_eq_add_of_le' (show 1 ≤ fuel by omega)
  have list := isArguments fuel rest (by omega)
  simp only [List.cons_append, List.append_assoc, List.nil_append] at taken dropped ⊢
  simp only [factor, if_neg notParen, notNumeral, Bool.false_eq_true, if_false, isChar, if_true,
    taken, dropped, list, bind, Option.bind, selections_stop before]

theorem isArguments_one {text : List Char} {e : Expression} (isChain : IsChain .sum text e) :
    IsArguments text [e] := by
  intro fuel rest enough
  obtain ⟨fuel, rfl⟩ := Nat.exists_eq_add_of_le' (show 1 ≤ fuel by omega)
  have read := isChain fuel (')' :: rest) (by simp only [Tier.depth]; omega)
    (before_cons (by decide) rest)
  simp only [arguments, read, bind, Option.bind]

theorem isArguments_cons {text more : List Char} {e : Expression} {es : List Expression}
    (isChain : IsChain .sum text e) (isArguments : IsArguments more es) :
    IsArguments (text ++ ',' :: more) (e :: es) := by
  intro fuel rest enough
  simp only [List.length_append, List.length_cons] at enough
  obtain ⟨fuel, rfl⟩ := Nat.exists_eq_add_of_le' (show 1 ≤ fuel by omega)
  have read := isChain fuel (',' :: (more ++ ')' :: rest)) (by simp only [Tier.depth]; omega)
    (before_cons (by decide) _)
  have readMore := isArguments fuel rest (by omega)
  simp only [List.append_assoc, List.cons_append]
  simp only [arguments, read, readMore, bind, Option.bind]

/-- A text that spells a factor is read as that. -/
theorem IsFactor.read {text : String} {e : Expression} (isFactor : IsFactor text.toList e) :
    read text = some e := by
  have whole := isFactor.isChain (5 * text.toList.length + 5) [] (by simp only [Tier.depth]; omega)
    (before_nil _)
  rw [List.append_nil] at whole
  simp only [Shader.read, whole]

end EscapeTime.Shader
