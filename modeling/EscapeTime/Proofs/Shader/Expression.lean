import EscapeTime.Formula.Node

/-!
# Shader expressions

A reader and an evaluator for the expressions of the shading language that formulas are written in.
They know the language only, and nothing of how a formula is written in it.
-/

namespace EscapeTime.Shader

/-- A coordinate selected from a point. -/
inductive Coordinate where
  | x
  | y
  deriving DecidableEq

inductive Arithmetic where
  | add
  | sub
  | mul
  | div
  deriving DecidableEq

inductive Expression where
  | name (text : String)
  | literal (numeral : String)
  | call (function : String) (args : List Expression)
  | select (e : Expression) (coordinate : Coordinate)
  | arith (op : Arithmetic) (lhs rhs : Expression)

/-! ### Reading -/

def isWordChar (c : Char) : Bool :=
  c.isAlphanum || c == '_'

def isNumeralChar (c : Char) : Bool :=
  c.isDigit || c == '.'

/-- The two tiers of operators: sums of products, and products of factors. -/
inductive Tier where
  | sum
  | product
  deriving DecidableEq

def Tier.operator? : Tier → Char → Option Arithmetic
  | sum, '+' => some .add
  | sum, '-' => some .sub
  | product, '*' => some .mul
  | product, '/' => some .div
  | _, _ => none

/-- The selections that follow a closing parenthesis. -/
def selections (e : Expression) : List Char → Expression × List Char
  | '.' :: 'x' :: rest => selections (.select e .x) rest
  | '.' :: 'y' :: rest => selections (.select e .y) rest
  | rest => (e, rest)

mutual

/-- Operands of a tier with its operators between them. -/
def chain : (fuel : Nat) → Tier → List Char → Option (Expression × List Char)
  | 0, _, _ => none
  | fuel + 1, tier, cs => do
    let (lhs, rest) ← operand fuel tier cs
    more fuel tier lhs rest

def operand : (fuel : Nat) → Tier → List Char → Option (Expression × List Char)
  | 0, _, _ => none
  | fuel + 1, .sum, cs => chain fuel .product cs
  | fuel + 1, .product, cs => factor fuel cs

/-- The operators that follow `lhs`, each with its operand, applied from the left. -/
def more : (fuel : Nat) → Tier → (lhs : Expression) → List Char →
    Option (Expression × List Char)
  | 0, _, _, _ => none
  | _ + 1, _, lhs, [] => some (lhs, [])
  | fuel + 1, tier, lhs, c :: cs =>
    match tier.operator? c with
    | none => some (lhs, c :: cs)
    | some op => do
      let (rhs, rest) ← operand fuel tier cs
      more fuel tier (.arith op lhs rhs) rest

/-- A parenthesis, a literal, a call or a name. Words and literals are as long as they can be. -/
def factor : (fuel : Nat) → List Char → Option (Expression × List Char)
  | 0, _ => none
  | _ + 1, [] => none
  | fuel + 1, c :: cs =>
    if c = '(' then do
      let (e, rest) ← chain fuel .sum cs
      match rest with
      | ')' :: rest => some (selections e rest)
      | _ => none
    else if isNumeralChar c then
      some (.literal (String.ofList ((c :: cs).takeWhile isNumeralChar)),
        (c :: cs).dropWhile isNumeralChar)
    else if isWordChar c then
      let word := String.ofList ((c :: cs).takeWhile isWordChar)
      match (c :: cs).dropWhile isWordChar with
      | '(' :: rest => do
        let (args, rest) ← arguments fuel rest
        some (selections (.call word args) rest)
      | rest => some (.name word, rest)
    else none

/-- The arguments of a call up to its closing parenthesis. -/
def arguments : (fuel : Nat) → List Char → Option (List Expression × List Char)
  | 0, _ => none
  | fuel + 1, cs => do
    let (e, rest) ← chain fuel .sum cs
    match rest with
    | ',' :: rest => do
      let (es, rest) ← arguments fuel rest
      some (e :: es, rest)
    | ')' :: rest => some ([e], rest)
    | _ => none

end

/-- The expression that a text spells. No five calls in a row leave the text as it is. -/
def read (text : String) : Option Expression :=
  match chain (5 * text.toList.length + 5) .sum text.toList with
  | some (e, []) => some e
  | _ => none

/-! ### Values -/

inductive Value where
  | scalar (x : Single)
  | vector (p : Point)

def Coordinate.of : Coordinate → Point → Single
  | x, p => p.x
  | y, p => p.y

def Arithmetic.apply : Arithmetic → Single → Single → Single
  | add => (· + ·)
  | sub => (· - ·)
  | mul => (· * ·)
  | div => (· / ·)

/-- Arithmetic goes coordinate by coordinate, and a scalar stands for both coordinates. -/
def Arithmetic.eval (op : Arithmetic) : Value → Value → Value
  | .scalar a, .scalar b => .scalar (op.apply a b)
  | .vector a, .vector b => .vector ⟨op.apply a.x b.x, op.apply a.y b.y⟩
  | .vector a, .scalar b => .vector ⟨op.apply a.x b, op.apply a.y b⟩
  | .scalar a, .vector b => .vector ⟨op.apply a b.x, op.apply a b.y⟩

/-- The functions of one scalar, which also apply to each coordinate of a point. -/
def scalarFunction? : String → Option (Single → Single)
  | "abs" => some Single.abs
  | "sign" => some Builtin.sign
  | "floor" => some Single.floor
  | "ceil" => some Single.ceil
  | "round" => some Single.round
  | "fract" => some fun x => x - Single.floor x
  | "sqrt" => some Single.sqrt
  | "exp" => some Single.exp
  | "log" => some Single.log
  | "cos" => some Single.cos
  | "sin" => some Single.sin
  | "tan" => some Single.tan
  | "cosh" => some Single.cosh
  | "sinh" => some Single.sinh
  | "tanh" => some Single.tanh
  | "acos" => some Single.acos
  | "asin" => some Single.asin
  | "atan" => some Single.atan
  | "acosh" => some Single.acosh
  | "asinh" => some Single.asinh
  | "atanh" => some Single.atanh
  | _ => none

def scalarFunction₂? : String → Option (Single → Single → Single)
  | "mod" => some fun x y => x - y * Single.floor (x / y)
  | "pow" => some Single.pow
  | "max" => some Single.max
  | "min" => some Single.min
  | _ => none

/-- The functions of a point: a builtin one and the helpers of the shader library. -/
def pointFunction? : String → Option (Point → Point)
  | "normalize" => some Vec2.normalize
  | "cExp" => some Vec2.exp
  | "cLog" => some Vec2.log
  | "cSqrt" => some Vec2.sqrt
  | "cCos" => some Vec2.cos
  | "cSin" => some Vec2.sin
  | "cTan" => some Vec2.tan
  | "cCosh" => some Vec2.cosh
  | "cSinh" => some Vec2.sinh
  | "cTanh" => some Vec2.tanh
  | "cAcos" => some Vec2.acos
  | "cAsin" => some Vec2.asin
  | "cAtan" => some Vec2.atan
  | "cAcosh" => some Vec2.acosh
  | "cAsinh" => some Vec2.asinh
  | "cAtanh" => some Vec2.atanh
  | _ => none

def pointFunction₂? : String → Option (Point → Point → Point)
  | "cMul" => some Vec2.mul
  | "cDiv" => some Vec2.div
  | "cPow" => some Vec2.pow
  | _ => none

def callValue? (function : String) : List Value → Option Value
  | [.scalar a] => (scalarFunction? function).map fun f => .scalar (f a)
  | [.vector p] =>
    if function = "length" then some (.scalar p.length)
    else
      match pointFunction? function with
      | some f => some (.vector (f p))
      | none => (scalarFunction? function).map fun f => .vector ⟨f p.x, f p.y⟩
  | [.scalar a, .scalar b] =>
    if function = "vec2" then some (.vector ⟨a, b⟩)
    else (scalarFunction₂? function).map fun f => .scalar (f a b)
  | [.vector p, .vector q] => (pointFunction₂? function).map fun f => .vector (f p q)
  | [.scalar a, .scalar lo, .scalar hi] =>
    if function = "clamp" then some (.scalar (Single.min (Single.max a lo) hi)) else none
  | _ => none

namespace Expression

mutual

/-- The value of the expression at `z`. -/
def eval (z : Point) : Expression → Option Value
  | .name text => if text = "z" then some (.vector z) else none
  | .literal numeral => some (.scalar (Literal.ofNumeral numeral).value)
  | .call function args => do callValue? function (← evalAll z args)
  | .select e coordinate => do
    match ← eval z e with
    | .vector p => some (.scalar (coordinate.of p))
    | .scalar _ => none
  | .arith op lhs rhs => do
    let left ← eval z lhs
    let right ← eval z rhs
    some (op.eval left right)

def evalAll (z : Point) : List Expression → Option (List Value)
  | [] => some []
  | e :: es => do
    let v ← eval z e
    let vs ← evalAll z es
    some (v :: vs)

end

end Expression

end EscapeTime.Shader
