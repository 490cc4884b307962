import EscapeTime.Formula.Template
import EscapeTime.Plane.Vec2

/-!
# Descriptors

What the operators and functions of the formula language have in common: which arguments they take,
what type they return, the shader code they stand for, and the function they compute.
-/

namespace EscapeTime

/-- The type of an expression. -/
inductive ValueType where
  /-- Not known yet. -/
  | undetermined
  /-- The type of raw shader code, which is never checked. -/
  | unknowable
  /-- The imaginary part is zero. -/
  | real
  /-- The imaginary part may differ from zero. -/
  | complex
  deriving DecidableEq, Repr, Inhabited

namespace ValueType

def name : ValueType → String
  | undetermined => "undetermined"
  | unknowable => "unknowable"
  | real => "real"
  | complex => "complex"

/-- The type with a number, counted from zero. -/
def ofCode? : Nat → Option ValueType
  | 0 => some undetermined
  | 1 => some unknowable
  | 2 => some real
  | 3 => some complex
  | _ => none

/-- The name of the type with a number, also where there is none. -/
def nameOfCode (code : Nat) : String :=
  match ofCode? code with
  | some t => t.name
  | none => "ValueType(?)"

end ValueType

/-- What an argument position accepts. -/
inductive Domain where
  /-- Real values only. -/
  | real
  /-- Real and complex values. -/
  | complex
  deriving DecidableEq, Repr

def Domain.letter : Domain → Char
  | .real => 'R'
  | .complex => 'C'

/-- How the type of a result follows from the types of the arguments. -/
inductive ResultRule where
  | real
  | complex
  /-- Complex if an argument is complex, else real. -/
  | same
  deriving DecidableEq, Repr

namespace ResultRule

def letter : ResultRule → Char
  | real => 'R'
  | complex => 'C'
  | same => 'S'

def ofLetter? : Char → Option ResultRule
  | 'R' => some real
  | 'C' => some complex
  | 'S' => some same
  | _ => none

/-- The type of the result, given whether an argument is complex. -/
def resolve (rule : ResultRule) (complexInput : Bool) : ValueType :=
  match rule with
  | real => .real
  | complex => .complex
  | same => if complexInput then .complex else .real

end ResultRule

/-- A function of one, two or three values. -/
inductive Meaning where
  | unary (f : Point → Point)
  | binary (f : Point → Point → Point)
  | ternary (f : Point → Point → Point → Point)

namespace Meaning

/-- The function at a list of values, if they are as many as it takes. -/
def eval? : Meaning → List Point → Option Point
  | unary f, [a] => some (f a)
  | binary f, [a, b] => some (f a b)
  | ternary f, [a, b, c] => some (f a b c)
  | _, _ => none

/-- The function of `z` that first evaluates each argument at `z`. -/
def compose? : Meaning → List (Point → Point) → Option (Point → Point)
  | unary f, [a] => some fun z => f (a z)
  | binary f, [a, b] => some fun z => f (a z) (b z)
  | ternary f, [a, b, c] => some fun z => f (a z) (b z) (c z)
  | _, _ => none

/-- A real function of the real part. -/
def ofReal (f : Single → Single) : Meaning :=
  unary fun a => Vec2.ofReal (f a.x)

/-- A real function of two real parts. -/
def ofReal₂ (f : Single → Single → Single) : Meaning :=
  binary fun a b => Vec2.ofReal (f a.x b.x)

/-- A real function of each coordinate. -/
def each (f : Single → Single) : Meaning :=
  unary fun a => ⟨f a.x, f a.y⟩

end Meaning

/-- Code and meaning of an operator or function for one kind of arguments. -/
structure Form where
  template : Template
  meaning : Meaning

/-- An operator or builtin function of the formula language. -/
structure Descriptor where
  id : String
  args : List Domain
  output : ResultRule
  /-- Used when all arguments are real. -/
  real : Form
  /-- Used otherwise. Missing where every argument must be real. -/
  complex : Option Form

namespace Descriptor

def arity (d : Descriptor) : Nat :=
  d.args.length

/-- Whether argument `i` must be real, if there is such an argument. -/
def realOnly? (d : Descriptor) (i : Nat) : Option Bool :=
  d.args[i]?.map (· == .real)

/-- The form for the given kind of arguments. -/
def form (d : Descriptor) (complexInput : Bool) : Option Form :=
  if complexInput then d.complex else some d.real

end Descriptor

end EscapeTime
