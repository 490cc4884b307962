import EscapeTime.Plane.Scalar

/-!
# Points of the plane

A `Vec2` is a point, and the complex number with real part `x` and imaginary part `y`. The complex
functions are written out in real arithmetic, each operation in a fixed order, so that they give the
same bits as a shader that evaluates the same expressions.
-/

namespace EscapeTime

/-- A pair of coordinates. -/
structure Vec2 (α : Type) where
  x : α
  y : α
  deriving DecidableEq, Hashable, Repr, Inhabited

namespace Vec2

variable {α : Type} [Scalar α]

/-- The real number `x`. -/
def ofReal (x : α) : Vec2 α := ⟨x, Scalar.zero⟩

def one : Vec2 α := ofReal Scalar.one

protected def add (a b : Vec2 α) : Vec2 α := ⟨a.x + b.x, a.y + b.y⟩

protected def sub (a b : Vec2 α) : Vec2 α := ⟨a.x - b.x, a.y - b.y⟩

protected def neg (a : Vec2 α) : Vec2 α := ⟨-a.x, -a.y⟩

/-- Both coordinates multiplied by `f`. -/
def scale (f : α) (a : Vec2 α) : Vec2 α := ⟨f * a.x, f * a.y⟩

/-- The product coordinate by coordinate. -/
def mulEach (a b : Vec2 α) : Vec2 α := ⟨a.x * b.x, a.y * b.y⟩

/-- The mean of two points. -/
def mean (a b : Vec2 α) : Vec2 α :=
  ⟨(a.x + b.x) / Scalar.two, (a.y + b.y) / Scalar.two⟩

/-- The complex product. -/
protected def mul (a b : Vec2 α) : Vec2 α := ⟨a.x * b.x - a.y * b.y, a.x * b.y + a.y * b.x⟩

/-- The complex quotient. -/
protected def div (a b : Vec2 α) : Vec2 α :=
  let d := b.x * b.x + b.y * b.y
  ⟨(a.x * b.x + a.y * b.y) / d, (a.y * b.x - a.x * b.y) / d⟩

/-- The distance from the origin. -/
def length (z : Vec2 α) : α := Scalar.hypot z.x z.y

/-- The point at distance one in the direction of `z`. -/
def normalize (z : Vec2 α) : Vec2 α := scale (Scalar.one / z.length) z

def exp (z : Vec2 α) : Vec2 α :=
  let r := Scalar.exp z.x
  ⟨r * Scalar.cos z.y, r * Scalar.sin z.y⟩

def log (z : Vec2 α) : Vec2 α := ⟨Scalar.log z.length, Scalar.atan2 z.y z.x⟩

def sqrt (z : Vec2 α) : Vec2 α := exp (scale Scalar.half (log z))

def pow (z e : Vec2 α) : Vec2 α := exp (Vec2.mul (log z) e)

/-- The product `i * z`. -/
def rotate (z : Vec2 α) : Vec2 α := ⟨-z.y, z.x⟩

/-- The product `-i * z`. -/
def rotateBack (z : Vec2 α) : Vec2 α := ⟨z.y, -z.x⟩

def cos (z : Vec2 α) : Vec2 α :=
  scale Scalar.half (Vec2.add (exp (rotate z)) (exp (rotateBack z)))

def sin (z : Vec2 α) : Vec2 α :=
  Vec2.div (Vec2.sub (exp (rotate z)) (exp (rotateBack z))) ⟨Scalar.zero, Scalar.two⟩

def tan (z : Vec2 α) : Vec2 α := Vec2.div (sin z) (cos z)

def cosh (z : Vec2 α) : Vec2 α := scale Scalar.half (Vec2.add (exp z) (exp (Vec2.neg z)))

def sinh (z : Vec2 α) : Vec2 α := scale Scalar.half (Vec2.sub (exp z) (exp (Vec2.neg z)))

def tanh (z : Vec2 α) : Vec2 α := Vec2.div (sinh z) (cosh z)

/-- The arc sine, `-i * log (i * z + sqrt (1 - z * z))`. -/
def asin (z : Vec2 α) : Vec2 α :=
  rotateBack (log (Vec2.sub (sqrt (Vec2.sub one (Vec2.mul z z))) (rotateBack z)))

/-- The arc cosine, `-i * log (z + i * sqrt (1 - z * z))`. -/
def acos (z : Vec2 α) : Vec2 α :=
  rotateBack (log (Vec2.add z (rotate (sqrt (Vec2.sub one (Vec2.mul z z))))))

/-- The arc tangent, `-i / 2 * log ((1 + i * z) / (1 - i * z))`. -/
def atan (z : Vec2 α) : Vec2 α :=
  let w := Vec2.div ⟨Scalar.one - z.y, z.x⟩ ⟨Scalar.one + z.y, -z.x⟩
  rotateBack (scale Scalar.half (log w))

def acosh (z : Vec2 α) : Vec2 α :=
  log (Vec2.add z (sqrt (Vec2.sub (Vec2.mul z z) one)))

def asinh (z : Vec2 α) : Vec2 α :=
  log (Vec2.add z (sqrt (Vec2.add (Vec2.mul z z) one)))

def atanh (z : Vec2 α) : Vec2 α :=
  scale Scalar.half (log (Vec2.div (Vec2.add one z) (Vec2.sub one z)))

end Vec2

/-- A point in single precision: a value of a formula. -/
abbrev Point := Vec2 Single

end EscapeTime
