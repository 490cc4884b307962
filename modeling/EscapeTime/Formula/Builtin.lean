import EscapeTime.Formula.Descriptor

/-!
# Builtin functions

The functions that a formula can call. Functions that only make sense on the real line have no
complex form.
-/

namespace EscapeTime

inductive Builtin where
  | abs
  | acos
  | acosh
  | asin
  | asinh
  | atan
  | atanh
  | avg
  | ceil
  | clamp
  | cos
  | cosh
  | exp
  | floor
  | fract
  | im
  | ln
  | max
  | min
  | normalize
  | re
  | round
  | sgn
  | sin
  | sinh
  | sqrt
  | tan
  | tanh
  deriving DecidableEq, Repr

namespace Builtin

/-- All functions, sorted by name. -/
def all : List Builtin :=
  [abs, acos, acosh, asin, asinh, atan, atanh, avg, ceil, clamp, cos, cosh, exp, floor, fract, im,
    ln, max, min, normalize, re, round, sgn, sin, sinh, sqrt, tan, tanh]

def name : Builtin → String
  | abs => "abs"
  | acos => "acos"
  | acosh => "acosh"
  | asin => "asin"
  | asinh => "asinh"
  | atan => "atan"
  | atanh => "atanh"
  | avg => "avg"
  | ceil => "ceil"
  | clamp => "clamp"
  | cos => "cos"
  | cosh => "cosh"
  | exp => "exp"
  | floor => "floor"
  | fract => "fract"
  | im => "im"
  | ln => "ln"
  | max => "max"
  | min => "min"
  | normalize => "normalize"
  | re => "re"
  | round => "round"
  | sgn => "sgn"
  | sin => "sin"
  | sinh => "sinh"
  | sqrt => "sqrt"
  | tan => "tan"
  | tanh => "tanh"

def ofName? (s : String) : Option Builtin :=
  all.find? (·.name == s)

/-- The sign of a number as -1, 0 or 1. NaN has the sign of its sign bit. -/
def sign (x : Single) : Single :=
  if x.isZero then 0 else Single.copySign 1 x

/-- The distance to the next whole number below. -/
def fraction (x : Single) : Single :=
  x - Single.floor x

/-- A function of real arguments only, all of them on the real line. -/
def onReals (fn : Builtin) (arity : Nat) (code : String) (meaning : Meaning) : Descriptor :=
  ⟨fn.name, List.replicate arity .real, .same, ⟨.ofPattern code, meaning⟩, none⟩

/-- A function of one argument with a real and a complex form. -/
def onComplex (fn : Builtin) (output : ResultRule) (realCode : String) (real : Meaning)
    (complexCode : String) (complex : Point → Point) : Descriptor :=
  ⟨fn.name, [.complex], output, ⟨.ofPattern realCode, real⟩,
    some ⟨.ofPattern complexCode, .unary complex⟩⟩

/-- A transcendental function, whose complex form is a helper of the shader library. -/
def transcendental (fn : Builtin) (helper : String) (real : Single → Single)
    (complex : Point → Point) : Descriptor :=
  onComplex fn .same ("vec2(" ++ fn.name ++ "((#).x),0.)") (.ofReal real) (helper ++ "(#)") complex

def descriptor (fn : Builtin) : Descriptor :=
  match fn with
  | re => onComplex fn .real "#" (.unary id) "vec2((#).x,0.)" fun z => Vec2.ofReal z.x
  | im =>
    onComplex fn .real "vec2(0.,0.)" (.unary fun _ => Vec2.ofReal 0) "vec2((#).y,0.)"
      fun z => Vec2.ofReal z.y
  | abs =>
    onComplex fn .real "vec2(abs((#).x),0.)" (.ofReal Single.abs) "vec2(length(#),0.)"
      fun z => Vec2.ofReal z.length
  | sgn => onReals fn 1 "vec2(sign((#).x),0.)" (.ofReal sign)
  | normalize =>
    onComplex fn .real "vec2(sign((#).x),0.)" (.ofReal sign) "normalize(#)" Vec2.normalize
  | ceil => onReals fn 1 "vec2(ceil((#).x),0.)" (.ofReal Single.ceil)
  | floor => onReals fn 1 "vec2(floor((#).x),0.)" (.ofReal Single.floor)
  | round => onReals fn 1 "round(#)" (.each Single.round)
  | fract => onReals fn 1 "fract(#)" (.each fraction)
  | clamp =>
    onReals fn 3 "vec2(clamp((#).x,(#).x,(#).x),0.)"
      (.ternary fun a lo hi => Vec2.ofReal (Single.min (Single.max a.x lo.x) hi.x))
  | max => onReals fn 2 "vec2(max((#).x,(#).x),0.)" (.ofReal₂ Single.max)
  | min => onReals fn 2 "vec2(min((#).x,(#).x),0.)" (.ofReal₂ Single.min)
  | avg =>
    let form : Form := ⟨.ofPattern "((#+#)/2.)", .binary Vec2.mean⟩
    ⟨fn.name, [.complex, .complex], .same, form, some form⟩
  | exp => transcendental fn "cExp" Single.exp Vec2.exp
  | ln => onComplex fn .complex "vec2(log((#).x),0.)" (.ofReal Single.log) "cLog(#)" Vec2.log
  | sqrt => onComplex fn .complex "sqrt(#)" (.each Single.sqrt) "cSqrt(#)" Vec2.sqrt
  | cos => transcendental fn "cCos" Single.cos Vec2.cos
  | sin => transcendental fn "cSin" Single.sin Vec2.sin
  | tan => transcendental fn "cTan" Single.tan Vec2.tan
  | cosh => transcendental fn "cCosh" Single.cosh Vec2.cosh
  | sinh => transcendental fn "cSinh" Single.sinh Vec2.sinh
  | tanh => transcendental fn "cTanh" Single.tanh Vec2.tanh
  | acos => transcendental fn "cAcos" Single.acos Vec2.acos
  | asin => transcendental fn "cAsin" Single.asin Vec2.asin
  | atan => transcendental fn "cAtan" Single.atan Vec2.atan
  | acosh => transcendental fn "cAcosh" Single.acosh Vec2.acosh
  | asinh => transcendental fn "cAsinh" Single.asinh Vec2.asinh
  | atanh => transcendental fn "cAtanh" Single.atanh Vec2.atanh

end Builtin

end EscapeTime
