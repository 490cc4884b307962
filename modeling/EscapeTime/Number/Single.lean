import EscapeTime.Number.Binary

/-!
# Single precision numbers

A `Single` is a number of the 32-bit binary format, given by its bits: two zeros, two infinities and
NaNs of either sign are told apart. Arithmetic rounds once. An operation on a NaN returns that NaN,
and one that has no value, such as `0 / 0`, returns the negative NaN `invalid`.
-/

namespace EscapeTime

open Number

structure Single where
  bits : UInt32
  deriving DecidableEq, Hashable, Repr, Inhabited

namespace Single

/-! ### Kinds of numbers -/

/-- Whether the sign bit is set, also for zeros and NaNs. -/
def isNegative (x : Single) : Bool :=
  0x80000000 ≤ x.bits

def isNaN (x : Single) : Bool :=
  0x7f800000 < x.bits &&& 0x7fffffff

def isInf (x : Single) : Bool :=
  x.bits &&& 0x7fffffff == 0x7f800000

def isZero (x : Single) : Bool :=
  x.bits &&& 0x7fffffff == 0

def infinity : Single := ⟨0x7f800000⟩

def negInfinity : Single := ⟨0xff800000⟩

/-- The NaN that a function returns outside its domain. -/
def nan : Single := ⟨0x7fc00000⟩

/-- The NaN of an arithmetic operation that has no value. -/
def invalid : Single := ⟨0xffc00000⟩

/-- The exact value of a finite number, the sign left out. -/
def magnitude (x : Single) : Magnitude :=
  binary32.magnitude (x.bits.toNat % Nat.pow 2 31)

/-! ### Numbers from exact values -/

/-- The number with the sign `negative` and the bits `bits` for the rest. -/
def ofSignBits (negative : Bool) (bits : Nat) : Single :=
  ⟨UInt32.ofNat (bits + if negative then Nat.pow 2 31 else 0)⟩

/-- The number nearest to a quotient. -/
def ofRatio (negative : Bool) (num den : Nat) : Single :=
  ofSignBits negative (binary32.nearest num den)

/-- The number nearest to an integer. -/
def ofInt (n : Int) : Single :=
  ofRatio (n < 0) n.natAbs 1

instance (n : Nat) : OfNat Single n := ⟨ofRatio false n 1⟩

instance : OfScientific Single where
  ofScientific digits negativeExponent exponent :=
    if negativeExponent then ofRatio false digits (Nat.pow 10 exponent)
    else ofRatio false (digits * Nat.pow 10 exponent) 1

/-! ### Arithmetic -/

def toFloat32 (x : Single) : Float32 :=
  Float32.ofBits x.bits

/-- The number that was computed, or `undefined` where there is none. -/
def ofFloat32 (undefined : Single) (x : Float32) : Single :=
  if x.isNaN then undefined else ⟨x.toBits⟩

/-- The NaN as an operation returns it: no longer one that signals. -/
def quiet (x : Single) : Single :=
  ⟨x.bits ||| 0x00400000⟩

/-- An operation on numbers extended to NaN operands, of which the first is the result. -/
def arith (f : Float32 → Float32 → Float32) (x y : Single) : Single :=
  if x.isNaN then x.quiet
  else if y.isNaN then y.quiet
  else ofFloat32 invalid (f x.toFloat32 y.toFloat32)

instance : Add Single := ⟨arith (· + ·)⟩

instance : Sub Single := ⟨arith (· - ·)⟩

instance : Mul Single := ⟨arith (· * ·)⟩

instance : Div Single := ⟨arith (· / ·)⟩

/-- The opposite sign, also of zeros and NaNs. -/
instance : Neg Single := ⟨fun x => ⟨x.bits ^^^ 0x80000000⟩⟩

/-- Numbers are compared by value: two zeros are equal and a NaN is never less. -/
instance : LT Single := ⟨fun x y => x.toFloat32 < y.toFloat32⟩

instance : LE Single := ⟨fun x y => x.toFloat32 ≤ y.toFloat32⟩

instance (x y : Single) : Decidable (x < y) :=
  inferInstanceAs (Decidable (x.toFloat32 < y.toFloat32))

instance (x y : Single) : Decidable (x ≤ y) :=
  inferInstanceAs (Decidable (x.toFloat32 ≤ y.toFloat32))

/-- Equality by value: two zeros are equal and a NaN equals nothing. -/
def same (x y : Single) : Bool :=
  x.toFloat32 == y.toFloat32

def sqrt (x : Single) : Single :=
  if x.isNaN then x.quiet else ofFloat32 invalid x.toFloat32.sqrt

/-! ### Signs and whole numbers -/

def abs (x : Single) : Single :=
  ⟨x.bits &&& 0x7fffffff⟩

/-- The magnitude of `x` with the sign of `y`. -/
def copySign (x y : Single) : Single :=
  if y.isNegative then -x.abs else x.abs

/-- The whole part, with the sign kept. Numbers from `2 ^ 23` on have no fraction. -/
def trunc (x : Single) : Single :=
  if x.abs < 8388608 then copySign ⟨x.abs.toFloat32.toUInt64.toFloat32.toBits⟩ x else x

/-- The greatest whole number that is not above `x`. -/
def floor (x : Single) : Single :=
  let t := trunc x
  if x < t then t - 1 else t

/-- The least whole number that is not below `x`. -/
def ceil (x : Single) : Single :=
  -floor (-x)

/-- The nearest whole number, away from zero where two are equally near. -/
def round (x : Single) : Single :=
  let t := trunc x
  if 0.5 ≤ (x - t).abs then copySign (t.abs + 1) x else t

/-- The whole number of a finite `x` with its fraction dropped. -/
def toInt (x : Single) : Int :=
  let m := x.magnitude
  let n : Nat :=
    if 0 ≤ m.exponent then m.mantissa * Nat.pow 2 m.exponent.toNat
    else m.mantissa / Nat.pow 2 (-m.exponent).toNat
  if x.isNegative then -(n : Int) else n

/-- The whole number of `x`, and zero for NaN. -/
def toNatOrZero (x : Single) : Nat :=
  if x.isNaN then 0 else x.toInt.toNat

/-- The remainder of a division toward zero, exact and with the sign of `x`. -/
def mod (x y : Single) : Single :=
  if x.isNaN || y.isNaN || x.isInf || y.isZero then nan
  else if y.isInf then x
  else
    let a := x.magnitude
    let b := y.magnitude
    let e := if a.exponent ≤ b.exponent then a.exponent else b.exponent
    let m := a.mantissa * Nat.pow 2 (a.exponent - e).toNat %
      (b.mantissa * Nat.pow 2 (b.exponent - e).toNat)
    let (num, den) := Magnitude.ratio ⟨m, e⟩
    ofRatio x.isNegative num den

/-! ### Order -/

/-- The larger number: infinity wins over everything, then NaN, and of two zeros the positive. -/
def max (x y : Single) : Single :=
  if x = infinity ∨ y = infinity then infinity
  else if x.isNaN || y.isNaN then nan
  else if x.isZero && y.isZero then if x.isNegative then y else x
  else if y < x then x
  else y

/-- The smaller number: negative infinity wins over everything, then NaN, and of two zeros the
negative. -/
def min (x y : Single) : Single :=
  if x = negInfinity ∨ y = negInfinity then negInfinity
  else if x.isNaN || y.isNaN then nan
  else if x.isZero && y.isZero then if x.isNegative then x else y
  else if x < y then x
  else y

/-- The number held between two bounds. -/
def clamp (x lo hi : Single) : Single :=
  min hi (max x lo)

/-- The number a fraction `t` of the way from `x` to `y`. -/
def mix (x y t : Single) : Single :=
  x * (1 - t) + y * t

/-! ### Elementary functions -/

/-- A function that returns a NaN argument as it is. -/
def keepNaN (f : Float32 → Float32) (x : Single) : Single :=
  if x.isNaN then x.quiet else ofFloat32 nan (f x.toFloat32)

/-- A function that returns `nan` for every NaN argument. -/
def freshNaN (f : Float32 → Float32) (x : Single) : Single :=
  ofFloat32 nan (f x.toFloat32)

/-- A function computed in double precision and rounded once. -/
def viaDouble (f : Float → Float) (x : Float32) : Float32 :=
  (f x.toFloat).toFloat32

def exp : Single → Single := keepNaN Float32.exp

def log : Single → Single := keepNaN Float32.log

def log2 : Single → Single := keepNaN (viaDouble Float.log2)

def cos : Single → Single := freshNaN Float32.cos

def sin : Single → Single := keepNaN Float32.sin

def tan : Single → Single := keepNaN Float32.tan

def cosh : Single → Single := freshNaN Float32.cosh

def sinh : Single → Single := keepNaN Float32.sinh

def tanh : Single → Single := keepNaN Float32.tanh

def acos : Single → Single := keepNaN Float32.acos

def asin : Single → Single := keepNaN Float32.asin

def atan : Single → Single := keepNaN Float32.atan

def acosh : Single → Single := freshNaN (viaDouble Float.acosh)

def asinh : Single → Single := keepNaN (viaDouble Float.asinh)

def atanh : Single → Single := freshNaN (viaDouble Float.atanh)

def atan2 (y x : Single) : Single :=
  ofFloat32 nan (Float32.atan2 y.toFloat32 x.toFloat32)

def pow (x y : Single) : Single :=
  ofFloat32 nan (Float32.pow x.toFloat32 y.toFloat32)

/-- The magnitude of a finite number in double precision, which holds it exactly. -/
def widen (x : Single) : Float :=
  let (num, den) := x.magnitude.ratio
  Float.ofBits (UInt64.ofNat (binary64.nearest num den))

/-- The number nearest to a finite one of double precision that is not negative. -/
def narrow (x : Float) : Single :=
  let (num, den) := (binary64.magnitude x.toBits.toNat).ratio
  ofRatio false num den

/-- The distance of a point from the origin, infinite if a coordinate is. -/
def hypot (x y : Single) : Single :=
  if x.isInf || y.isInf then infinity
  else if x.isNaN || y.isNaN then nan
  else
    let a := x.widen
    let b := y.widen
    narrow (a * a + b * b).sqrt

end Single

end EscapeTime
