import EscapeTime.Formula.Node

/-!
# Shader code

The code of a typed tree: an expression for the next value of `z`. Every node must have its type.
-/

namespace EscapeTime

/-- The code of a form with the code of its arguments. -/
def Form.fill (form : Option Form) (args : List String) : Except Fault String :=
  match form with
  | none => .error .missingTemplate
  | some form =>
    match form.template.fill? args with
    | none => .error .tooFewArguments
    | some code => .ok code

namespace Node

mutual

/-- The shader code of the tree. -/
def code : Node → Except Fault String
  | .real _ v => .ok ("vec2(" ++ v.code ++ ",0.)")
  | .imaginary _ v => .ok ("vec2(0.," ++ v.code ++ ")")
  | .complex c t re im =>
    if t = .undetermined then .error (.undetermined c)
    else .ok ("vec2(" ++ re.code ++ "," ++ im.code ++ ")")
  | .z _ => .ok "z"
  | .raw _ text => .ok text
  | .binary c t op lhs rhs => do
    if t = .undetermined then throw (.undetermined c)
    let left ← code lhs
    let right ← code rhs
    Form.fill (op.descriptor.form (t ≠ .real)) [left, right]
  | .call c t complexInput fn args => do
    if t = .undetermined then throw (.undetermined c)
    let codes ← codeAll args
    Form.fill (fn.descriptor.form complexInput) codes

def codeAll : List Node → Except Fault (List String)
  | [] => .ok []
  | n :: ns => do
    let first ← code n
    let rest ← codeAll ns
    return first :: rest

end

end Node

end EscapeTime
