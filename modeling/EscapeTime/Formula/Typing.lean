import EscapeTime.Formula.Node

/-!
# Typing

Types are found from the leaves up. A tree is retyped as far as typing goes: when a position that
must be real holds a complex expression, the nodes after it keep the types they had.
-/

namespace EscapeTime.Node

/-- What stops typing at a node without a type, where one is needed. -/
def untyped? (n : Node) : Option Failure :=
  if n.type = .undetermined then some (.broken (.undetermined n.column)) else none

/-- What stops typing at a node that stands for argument `i`: it may be complex only where the
argument may. -/
def refused? (d : Descriptor) (i : Nat) (cause : Cause) (n : Node) : Option Failure :=
  if n.type = .complex then
    match d.realOnly? i with
    | none => some (.broken (.noArgument i d.arity))
    | some true => some (.rejected ⟨.typing, n.column, cause⟩)
    | some false => none
  else none

/-- What stops typing at an operation whose operands are typed. -/
def operandFailure? (op : Operator) (lhs rhs : Node) : Option Failure :=
  lhs.untyped? <|> rhs.untyped? <|>
    lhs.refused? op.descriptor 0 (.complexOperand .left op) <|>
    rhs.refused? op.descriptor 1 (.complexOperand .right op)

/-- What stops typing at argument `i` of a call, when that argument is typed. -/
def argumentFailure? (fn : Builtin) (i : Nat) (arg : Node) : Option Failure :=
  arg.untyped? <|> arg.refused? fn.descriptor i (.complexArgument i fn)

mutual

/-- The tree with its types, and what stopped typing, if anything did. -/
def fix : Node → Node × Option Failure
  | .complex c t re im =>
    let found := if im.value.isZero then .real else .complex
    (.complex c (if t = .undetermined then found else t) re im, none)
  | .binary c t op lhs rhs =>
    match fix lhs with
    | (lhs, some e) => (.binary c t op lhs rhs, some e)
    | (lhs, none) =>
      match fix rhs with
      | (rhs, some e) => (.binary c t op lhs rhs, some e)
      | (rhs, none) =>
        match operandFailure? op lhs rhs with
        | some e => (.binary c t op lhs rhs, some e)
        | none =>
          let complexInput := decide (lhs.type = .complex) || decide (rhs.type = .complex)
          (.binary c (op.descriptor.output.resolve complexInput) op lhs rhs, none)
  | .call c t complexInput fn args =>
    match fixArgs fn 0 complexInput args with
    | (complexInput, args, some e) => (.call c t complexInput fn args, some e)
    | (complexInput, args, none) =>
      (.call c (fn.descriptor.output.resolve complexInput) complexInput fn args, none)
  | leaf => (leaf, none)

/-- The arguments from the one with number `index` on, with whether a complex one was met. -/
def fixArgs (fn : Builtin) : (index : Nat) → (complexInput : Bool) → List Node →
    Bool × List Node × Option Failure
  | _, complexInput, [] => (complexInput, [], none)
  | index, complexInput, arg :: args =>
    match fix arg with
    | (arg, some e) => (complexInput, arg :: args, some e)
    | (arg, none) =>
      match argumentFailure? fn index arg with
      | some e => (complexInput, arg :: args, some e)
      | none =>
        match fixArgs fn (index + 1) (complexInput || decide (arg.type = .complex)) args with
        | (complexInput, args, e) => (complexInput, arg :: args, e)

end

/-- The typed tree, or what stopped typing. -/
def typed (n : Node) : Except Failure Node :=
  match n.fix with
  | (n, none) => .ok n
  | (_, some e) => .error e

end EscapeTime.Node
