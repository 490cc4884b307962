import EscapeTime.Formula.Node

/-!
# Parsing

Precedence climbing over tokens. An operand is any number of plus signs and then an atom, or a minus
sign with all that follows it in the expression. A number takes a directly following `i` or `z` with
it before any operator.
-/

namespace EscapeTime

/-- The operator of the token, if it is one of the language. -/
def Token.operator? (t : Token) : Option Operator :=
  if t.kind = .op then Operator.ofSymbol? t.text else none

/-- How tight the token binds as an operator: not at all unless it is one. -/
def Token.precedence (t : Token) : Nat :=
  match t.operator? with
  | some op => op.precedence
  | none => 0

namespace Parse

/-- The column of the end of a formula, just after its last token. -/
def endColumn (tokens : List Token) : Int :=
  match tokens.getLast? with
  | none => 0
  | some last => Number.word (last.column + (max 1 last.text.utf8ByteSize : Nat))

def reject {α : Type} (column : Int) (cause : Cause) : Except Failure α :=
  .error (.rejected ⟨.parsing, column, cause⟩)

/-- The next token if it is of one of the kinds, and the tokens after it. -/
def expect (endCol : Int) (kinds : List TokenKind) :
    List Token → Except Failure (Token × List Token)
  | [] => reject endCol (.endOfFormula kinds)
  | t :: ts =>
    if t.kind ∈ kinds then .ok (t, ts) else reject t.column (.unexpectedToken t.kind kinds)

/-- The kinds that can start an operand. -/
def operandKinds : List TokenKind :=
  [.z, .imaginary, .op, .function, .number, .parenOpen, .rawCode]

/-- The kinds that can follow an operand. -/
def followKinds : List TokenKind :=
  [.op, .comma, .parenClose]

/-- The factor `i` or `z` that a number takes with it: the next token, or the one after an implicit
multiplication. -/
def fusedFactor : List Token → Option (Token × List Token)
  | [] => none
  | t :: ts =>
    if t.kind = .imaginary ∨ t.kind = .z then some (t, ts)
    else if t.kind = .op ∧ t.implicit then
      match ts with
      | [] => none
      | u :: us => if u.kind = .imaginary ∨ u.kind = .z then some (u, us) else none
    else none

/-- The number of the token `t` with the factor that follows it. -/
def number (t : Token) (ts : List Token) : Node × List Token :=
  match fusedFactor ts with
  | none => (.ofReal t.column t.text, ts)
  | some (factor, rest) =>
    if factor.kind = .imaginary then (.ofImaginaryPart t.column t.text, rest)
    else (.apply₂ t.column .mul (.ofReal t.column t.text) (.z factor.column), rest)

mutual

/-- An operand and the operators and operands that follow it. -/
def expression (endCol : Int) : (fuel : Nat) → List Token → Except Failure (Node × List Token)
  | 0, _ => .error (.broken .outOfFuel)
  | fuel + 1, tokens => do
    let (lhs, rest) ← operand endCol fuel tokens
    chain endCol fuel 1 lhs rest

/-- A single operand. -/
def operand (endCol : Int) : (fuel : Nat) → List Token → Except Failure (Node × List Token)
  | 0, _ => .error (.broken .outOfFuel)
  | fuel + 1, tokens => do
    let (t, rest) ← expect endCol operandKinds tokens
    match t.kind with
    | .parenOpen =>
      let (inner, rest) ← expression endCol fuel rest
      let (_, rest) ← expect endCol [.parenClose] rest
      return (inner, rest)
    | .op =>
      if t.text = "+" then operand endCol fuel rest
      -- A minus sign takes the rest of the expression: it is read as the operator after a zero.
      else if t.text = "-" then chain endCol fuel 1 (.ofReal t.column "0") tokens
      else reject t.column (.notUnary t.text)
    | .function =>
      let (_, rest) ← expect endCol [.parenOpen] rest
      match Builtin.ofName? t.text with
      | none => .error (.broken .noMeaning)
      | some fn =>
        let (args, rest) ← arguments endCol fuel fn.descriptor.arity rest
        let (_, rest) ← expect endCol [.parenClose] rest
        return (.apply t.column fn args, rest)
    | .z => return (.z t.column, rest)
    | .imaginary => return (.ofImaginary t.column "1", rest)
    | .rawCode => return (.raw t.column t.text, rest)
    | _ => return number t rest

/-- The operators that bind at least as tight as `minPrec`, with their right-hand sides, applied
from the left to `lhs`. -/
def chain (endCol : Int) : (fuel minPrec : Nat) → (lhs : Node) → List Token →
    Except Failure (Node × List Token)
  | 0, _, _, _ => .error (.broken .outOfFuel)
  | _ + 1, _, lhs, [] => .ok (lhs, [])
  | fuel + 1, minPrec, lhs, t :: ts => do
    let _ ← expect endCol followKinds (t :: ts)
    match t.operator? with
    | none => return (lhs, t :: ts)
    | some op =>
      if op.precedence < minPrec then return (lhs, t :: ts)
      else
        let (rhs, rest) ← operand endCol fuel ts
        let tighter := match rest with
          | [] => false
          | next :: _ => op.precedence < next.precedence
        let (rhs, rest) ←
          if tighter then chain endCol fuel (op.precedence + 1) rhs rest else pure (rhs, rest)
        chain endCol fuel minPrec (.apply₂ t.column op lhs rhs) rest

/-- As many expressions as `count`, with commas between them. -/
def arguments (endCol : Int) : (fuel count : Nat) → List Token →
    Except Failure (List Node × List Token)
  | 0, _, _ => .error (.broken .outOfFuel)
  | _ + 1, 0, tokens => .ok ([], tokens)
  | fuel + 1, count + 1, tokens => do
    let (arg, rest) ← expression endCol fuel tokens
    if count = 0 then return ([arg], rest)
    let (_, rest) ← expect endCol [.comma] rest
    let (args, rest) ← arguments endCol fuel count rest
    return (arg :: args, rest)

end

/-- Enough fuel for every list of tokens: no four calls in a row leave the list as it is. -/
def fuelFor (tokens : List Token) : Nat :=
  4 * tokens.length + 4

/-- The tree of a whole formula. -/
def formula (tokens : List Token) : Except Failure Node := do
  let (root, rest) ← expression (endColumn tokens) (fuelFor tokens) tokens
  match rest with
  | [] => return root
  | t :: _ => reject t.column (.trailingToken t)

end Parse

end EscapeTime
