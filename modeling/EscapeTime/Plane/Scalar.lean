import EscapeTime.Number.Single

/-!
# Scalars

`Scalar` is the real arithmetic that complex functions are built from. It asks for operations only,
no laws: what holds of every `Scalar` does not depend on how a single operation rounds.
-/

namespace EscapeTime

/-- Arithmetic with the elementary functions of a shading language. -/
class Scalar (α : Type) extends Add α, Sub α, Mul α, Div α, Neg α where
  zero : α
  one : α
  two : α
  half : α
  exp : α → α
  log : α → α
  cos : α → α
  sin : α → α
  atan2 : α → α → α
  hypot : α → α → α

instance : Scalar Single where
  zero := 0
  one := 1
  two := 2
  half := 0.5
  exp := Single.exp
  log := Single.log
  cos := Single.cos
  sin := Single.sin
  atan2 := Single.atan2
  hypot := Single.hypot

end EscapeTime
