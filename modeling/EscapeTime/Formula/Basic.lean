import EscapeTime.Formula.Code
import EscapeTime.Formula.Lexeme
import EscapeTime.Formula.Parser
import EscapeTime.Formula.Typing
import EscapeTime.Formula.Value
import EscapeTime.Text.Utf8

/-!
# Formulas

A formula such as `z^2 + 0.3 - 0.5i` describes how `z` changes in each iteration of a Julia set. It
is parsed and typed once, and then written as shader code or applied to points.
-/

namespace EscapeTime

/-- A stretch of a memory: `length` places from `start` on. -/
structure Stretch where
  start : Nat
  length : Nat
  deriving DecidableEq, Repr

/-- A parsed and typed formula. -/
structure Formula where
  /-- The text as written. -/
  source : String
  root : Node

namespace Formula

/-- The formula of a text. -/
def parse (source : String) : Except Failure Formula := do
  let tokens ← (tokenize source.toList).mapError Failure.rejected
  let tree ← Parse.formula tokens
  let root ← tree.typed
  return ⟨source, root⟩

/-- The formula of a byte string. -/
def parseBytes (source : List UInt8) : Except Failure Formula :=
  parse (Text.decodeUtf8 source)

/-- The shader expression for the next value of `z`. -/
def code (f : Formula) : Except Fault String :=
  f.root.code

/-- The shader expression of a text. -/
def compile (source : String) : Except Failure String := do
  let f ← parse source
  f.code.mapError Failure.broken

/-- The shader expression of a byte string, in bytes. -/
def compileBytes (source : List UInt8) : Except Failure (List UInt8) :=
  (compile (Text.decodeUtf8 source)).map Text.encodeUtf8

/-- Whether quoted shader code stands in the formula, which then has no value here. -/
def containsRawCode (f : Formula) : Bool :=
  f.root.hasRaw

/-- Why a step of the iteration is not taken. -/
inductive StepError where
  | lengthMismatch
  | rawCode
  | broken (fault : Fault)
  deriving DecidableEq, Repr

def StepError.message : StepError → String
  | lengthMismatch => "dst and z buffer length mismatch"
  | rawCode => "formula contains raw shader code which can only be evaluated on the GPU"
  | broken fault => fault.message

/-- The memory with a result stored from `dst` on for each of the `count` points from `z` on. A
point is read when its result is stored: it may have been stored over by then. -/
def storeResults (next : Point → Point) (dst z count : Nat) (memory : Array Point) : Array Point :=
  Nat.fold count (fun i _ memory =>
    match memory[z + i]? with
    | some p => memory.setIfInBounds (dst + i) (next p)
    | none => memory) memory

/-- One iteration of the formula from each point of the stretch `z` of a memory, with the results in
the stretch `dst`. The two may be the same or overlap. -/
def step (f : Formula) (dst z : Stretch) (memory : Array Point) :
    Array Point × Option StepError :=
  if dst.length ≠ z.length then (memory, some .lengthMismatch)
  else if f.containsRawCode then (memory, some .rawCode)
  else
    match f.root.value with
    | .error fault => (memory, some (.broken fault))
    | .ok next => (storeResults next dst.start z.start z.length memory, none)

end Formula

end EscapeTime
