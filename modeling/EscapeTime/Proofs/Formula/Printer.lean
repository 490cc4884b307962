import EscapeTime.Proofs.Formula.Literal
import EscapeTime.Proofs.Formula.Recognition
import EscapeTime.Proofs.Formula.Renaming
import EscapeTime.Proofs.Formula.Tree

/-!
# Printed trees

A tree can be printed as a formula, with every operation in parentheses. The tokens of the printed
text derive the tree.
-/

namespace EscapeTime

open Grammar

/-- A token at no column in particular. -/
def Token.mark (kind : TokenKind) (text : String) : Token :=
  ⟨kind, 0, text, false⟩

namespace Node

mutual

/-- The tree as a formula. -/
def print : Node → String
  | .real _ v => v.code
  | .imaginary _ _ => "i"
  | .complex _ _ _ im => im.code ++ "i"
  | .z _ => "z"
  | .raw _ code => "\"" ++ code ++ "\""
  | .binary _ _ op lhs rhs => "(" ++ print lhs ++ " " ++ op.symbol ++ " " ++ print rhs ++ ")"
  | .call _ _ _ fn args => fn.name ++ "(" ++ printArgs args ++ ")"

def printArgs : List Node → String
  | [] => ""
  | [n] => print n
  | n :: m :: ns => print n ++ "," ++ printArgs (m :: ns)

end

mutual

/-- The tokens of the printed tree. -/
def tokens : Node → List Token
  | .real _ v => [.mark .number v.code]
  | .imaginary _ _ => [.mark .imaginary ""]
  | .complex _ _ _ im => [.mark .number im.code, .times 0, .mark .imaginary ""]
  | .z _ => [.mark .z ""]
  | .raw _ code => [.mark .rawCode code]
  | .binary _ _ op lhs rhs =>
    .mark .parenOpen "" :: ((tokens lhs ++ .mark .op op.symbol :: tokens rhs) ++
      [.mark .parenClose ""])
  | .call _ _ _ fn args =>
    .mark .function fn.name :: .mark .parenOpen "" :: (tokensArgs args ++ [.mark .parenClose ""])

def tokensArgs : List Node → List Token
  | [] => []
  | [n] => tokens n
  | n :: m :: ns => tokens n ++ .mark .comma "" :: tokensArgs (m :: ns)

end

end Node

/-! ### Derivations -/

namespace Grammar

theorem apart_mark (ts us : List Token) (kind : TokenKind) (text : String) :
    Apart ts (.mark kind text :: us) := by
  rintro number times factor rest - same - - implicit
  cases same
  cases implicit

theorem Atom.expression {ts : List Token} {n : Node} (atom : Atom ts n) : Expression ts n := by
  have chain := Expression.chain (b := .operand n) (.atom atom) (apart_nil ts) .nil trivial
  rwa [List.append_nil] at chain

/-- Two atoms with an operator between them. -/
theorem Atom.binary {ts us : List Token} {l r : Node} (left : Atom ts l) (right : Atom us r)
    (op : Operator) :
    Expression (ts ++ .mark .op op.symbol :: us) (.apply₂ 0 op l r) := by
  have links : Links false (.mark .op op.symbol :: (us ++ [])) [⟨0, op, r⟩] :=
    .cons ⟨rfl, rfl⟩ (.atom right) (apart_nil us) .nil
  rw [List.append_nil] at links
  have tier : 1 ≤ op.tier := by cases op <;> decide
  exact .chain (b := .join 0 op (.operand l) (.operand r)) (.atom left) (apart_mark _ _ _ _) links
    ⟨tier, trivial, trivial⟩

end Grammar

namespace Node

theorem IsLiteral.ofNumeral_code {v : Literal} (literal : IsLiteral v) :
    Literal.ofNumeral v.code = v := by
  have point : '.' ∈ v.code.toList := by
    obtain ⟨numeral, -, rfl⟩ := literal
    by_cases there : '.' ∈ numeral.toList <;> simp [Literal.ofNumeral, there]
  have code : (Literal.ofNumeral v.code).code = v.code := by simp [Literal.ofNumeral, point]
  have value := literal.code.2
  calc Literal.ofNumeral v.code
      = ⟨(Literal.ofNumeral v.code).code, (Literal.ofNumeral v.code).value⟩ := rfl
    _ = v := by rw [code, value]

theorem args_ne_nil {fn : Builtin} {args : List Node} (arity : args.length = fn.descriptor.arity) :
    args ≠ [] := by
  rintro rfl
  cases fn <;> cases arity

theorem arguments_tokens {args : List Node} (nonempty : args ≠ [])
    (each : ∀ a ∈ args, Atom a.tokens (a.bare id)) :
    Arguments args.length (tokensArgs args) (args.map (bare id)) := by
  induction args with
  | nil => exact (nonempty rfl).elim
  | cons n ns ih =>
    rw [List.forall_mem_cons] at each
    cases ns with
    | nil => exact .one (each.1.expression)
    | cons m ns => exact .cons (each.1.expression) rfl (ih (List.cons_ne_nil m ns) each.2)

theorem Parsed.atom {n : Node} (parsed : n.Parsed) : Atom n.tokens (n.bare id) := by
  induction parsed with
  | @real _ v literal =>
    have number : Atom [.mark .number v.code] (.ofReal 0 v.code) := .number rfl
    rwa [ofReal, literal.ofNumeral_code] at number
  | imaginary => exact .imaginary rfl
  | @complex _ im literal =>
    have silent : Silent [.times 0] := .inr ⟨_, rfl, ⟨rfl, rfl⟩, rfl⟩
    have number : Atom (.mark .number im.code :: ([.times 0] ++ [.mark .imaginary ""]))
        (.ofImaginaryPart 0 im.code) := .numberI rfl silent rfl
    rwa [ofImaginaryPart, literal.ofNumeral_code] at number
  | z => exact .z rfl
  | raw => exact .raw rfl
  | binary _ _ left right => exact .parens rfl (left.binary right _) rfl
  | @call _ fn args arity _ each =>
    have list := arguments_tokens (args_ne_nil arity) each
    rw [arity] at list
    rw [bare, bareAll_eq_map]
    exact .call rfl rfl rfl list rfl

end Node

end EscapeTime
