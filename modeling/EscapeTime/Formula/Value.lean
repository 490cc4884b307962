import EscapeTime.Formula.Node

/-!
# Values

The function of `z` that a typed tree denotes. It agrees with what a shader computes from the code
of the tree. Raw code has no value.
-/

namespace EscapeTime

/-- The function of a form with the functions of its arguments. -/
def Form.compose (form : Option Form) (args : List (Point → Point)) :
    Except Fault (Point → Point) :=
  match form.bind (·.meaning.compose? args) with
  | some f => .ok f
  | none => .error .noMeaning

namespace Node

mutual

/-- The function that the tree denotes. -/
def value : Node → Except Fault (Point → Point)
  | .real _ v => .ok fun _ => Vec2.ofReal v.value
  | .imaginary _ v => .ok fun _ => ⟨0, v.value⟩
  | .complex _ _ re im => .ok fun _ => ⟨re.value, im.value⟩
  | .z _ => .ok id
  | .raw _ _ => .error .rawCodeValue
  | .binary _ t op lhs rhs => do
    let left ← value lhs
    let right ← value rhs
    Form.compose (op.descriptor.form (t ≠ .real)) [left, right]
  | .call _ _ complexInput fn args => do
    let functions ← valueAll args
    Form.compose (fn.descriptor.form complexInput) functions

def valueAll : List Node → Except Fault (List (Point → Point))
  | [] => .ok []
  | n :: ns => do
    let first ← value n
    let rest ← valueAll ns
    return first :: rest

end

end Node

end EscapeTime
