import EscapeTime.Proofs.Formula.Literal
import EscapeTime.Proofs.Shader.Reading

/-!
# What texts denote

A text denotes a function of `z` if it spells an expression that evaluates to it. The rules put
texts together as templates do, and say what the whole denotes.
-/

namespace EscapeTime.Shader

def FactorOf (text : List Char) (v : Point → Value) : Prop :=
  ∃ e, IsFactor text e ∧ ∀ z, e.eval z = some (v z)

def ChainOf (text : List Char) (v : Point → Value) : Prop :=
  ∃ e, IsChain .sum text e ∧ ∀ z, e.eval z = some (v z)

def ArgumentsOf (text : List Char) (vs : Point → List Value) : Prop :=
  ∃ es, IsArguments text es ∧ ∀ z, Expression.evalAll z es = some (vs z)

theorem FactorOf.chain {text : List Char} {v : Point → Value} (factor : FactorOf text v) :
    ChainOf text v := by
  obtain ⟨e, isFactor, value⟩ := factor
  exact ⟨e, isFactor.isChain, value⟩

/-- The text denotes a point. -/
abbrev PointOf (text : List Char) (p : Point → Point) : Prop :=
  FactorOf text fun z => .vector (p z)

/-! ### Factors -/

theorem pointOf_z : PointOf ['z'] id := by
  refine ⟨_, isFactor_name (by decide), fun z => ?_⟩
  rw [Expression.eval, if_pos rfl]
  rfl

theorem factorOf_literal {numeral : String} (isNumeral : Node.IsNumeral numeral) :
    FactorOf numeral.toList fun _ => .scalar (Literal.ofNumeral numeral).value := by
  refine ⟨_, isFactor_literal ?_ fun c member => ?_, fun z => ?_⟩
  · simpa using isNumeral.1.1
  · rcases isNumeral.2 c member with digit | rfl
    · have isDigit : c.isDigit := by
        simp only [Char.isDigit, Bool.and_eq_true, decide_eq_true_eq]
        exact digit
      rw [isNumeralChar, isDigit, Bool.true_or]
    · rfl
  · rw [Expression.eval, String.ofList_toList]

theorem factorOf_zero : FactorOf ['0', '.'] fun _ => .scalar 0 := by
  have zero : (Literal.ofNumeral "0.").value = 0 := by decide
  rw [← zero]
  exact @factorOf_literal "0." (by decide)

theorem factorOf_two : FactorOf ['2', '.'] fun _ => .scalar 2 := by
  have two : (Literal.ofNumeral "2.").value = 2 := by decide
  rw [← two]
  exact @factorOf_literal "2." (by decide)

theorem ChainOf.paren {text : List Char} {v : Point → Value} (chain : ChainOf text v) :
    FactorOf ('(' :: (text ++ [')'])) v := by
  obtain ⟨e, isChain, value⟩ := chain
  exact ⟨e, isFactor_paren isChain, value⟩

theorem PointOf.select {text : List Char} {p : Point → Point} (point : PointOf text p)
    (coordinate : Coordinate) :
    FactorOf ('(' :: (text ++ [')', '.', coordinate.letter]))
      fun z => .scalar (coordinate.of (p z)) := by
  obtain ⟨e, isChain, value⟩ := point.chain
  refine ⟨_, isFactor_select isChain coordinate, fun z => ?_⟩
  simp only [Expression.eval, value, bind, Option.bind]

theorem ArgumentsOf.call {word : String} {args : List Char} {vs : Point → List Value}
    {v : Point → Value} (isWord : IsWord word.toList) (list : ArgumentsOf args vs)
    (result : ∀ z, callValue? word (vs z) = some (v z)) :
    FactorOf (word.toList ++ '(' :: (args ++ [')'])) v := by
  obtain ⟨es, isArguments, values⟩ := list
  refine ⟨_, isFactor_call isWord isArguments, fun z => ?_⟩
  simp only [Expression.eval, String.ofList_toList, values, bind, Option.bind, result]

/-! ### Arguments -/

theorem ChainOf.one {text : List Char} {v : Point → Value} (chain : ChainOf text v) :
    ArgumentsOf text fun z => [v z] := by
  obtain ⟨e, isChain, value⟩ := chain
  refine ⟨[e], isArguments_one isChain, fun z => ?_⟩
  simp only [Expression.evalAll, value, bind, Option.bind]

theorem ChainOf.cons {text more : List Char} {v : Point → Value} {vs : Point → List Value}
    (chain : ChainOf text v) (list : ArgumentsOf more vs) :
    ArgumentsOf (text ++ ',' :: more) fun z => v z :: vs z := by
  obtain ⟨e, isChain, value⟩ := chain
  obtain ⟨es, isArguments, values⟩ := list
  refine ⟨e :: es, isArguments_cons isChain isArguments, fun z => ?_⟩
  simp only [Expression.evalAll, value, values, bind, Option.bind]

/-! ### Operators -/

theorem FactorOf.arith {tier : Tier} {c : Char} {op : Arithmetic} {left right : List Char}
    {u v : Point → Value} (operator : tier.operator? c = some op) (lhs : FactorOf left u)
    (rhs : FactorOf right v) : ChainOf (left ++ c :: right) fun z => op.eval (u z) (v z) := by
  obtain ⟨l, isLeft, leftValue⟩ := lhs
  obtain ⟨r, isRight, rightValue⟩ := rhs
  have isChain : IsChain .sum (left ++ c :: right) (.arith op l r) := by
    cases tier with
    | sum =>
      exact isChain_arith operator isLeft.isOperand.isChain.isOperand
        isRight.isOperand.isChain.isOperand
    | product => exact (isChain_arith operator isLeft.isOperand isRight.isOperand).isOperand.isChain
  refine ⟨_, isChain, fun z => ?_⟩
  simp only [Expression.eval, leftValue, rightValue, bind, Option.bind]

/-! ### Points from scalars -/

theorem pointOf_vec2 {x y : List Char} {a b : Point → Single}
    (first : ChainOf x fun z => .scalar (a z)) (second : ChainOf y fun z => .scalar (b z)) :
    PointOf ("vec2(".toList ++ (x ++ ',' :: (y ++ [')']))) fun z => ⟨a z, b z⟩ := by
  have point : PointOf ("vec2".toList ++ '(' :: ((x ++ ',' :: y) ++ [')'])) fun z => ⟨a z, b z⟩ :=
    (first.cons second.one).call (by decide) fun _ => rfl
  rwa [List.append_assoc, List.cons_append] at point

/-- A scalar as a point of the real line. -/
theorem pointOf_real {x : List Char} {a : Point → Single}
    (scalar : ChainOf x fun z => .scalar (a z)) :
    PointOf ("vec2(".toList ++ (x ++ [',', '0', '.', ')'])) fun z => Vec2.ofReal (a z) :=
  pointOf_vec2 scalar factorOf_zero.chain

end EscapeTime.Shader
