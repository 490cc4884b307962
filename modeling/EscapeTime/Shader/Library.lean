import EscapeTime.Shader.Function

/-!
# The complex helper library

Complex arithmetic in shading language, on vectors whose `x` is the real and whose `y` is the
imaginary part. Each helper comes after those it calls.
-/

namespace EscapeTime.Shader

/-- The functions that a source text defines. -/
def functionsOf (source : String) : Except FunctionError (List Function) :=
  (splitDefinitions source).mapM Function.ofSource

/-- The source of the helpers, cut after each definition into lists of lines. -/
def libraryParts : List (List String) := [
  ["// Complex arithmetic on vec2 values where (x,y) stands for x+iy.",
   "",
   "vec2 cMul(vec2 a, vec2 b) \x7b",
   "\treturn vec2(a.x*b.x - a.y*b.y, a.x*b.y + a.y*b.x);",
   "\x7d"],
  ["",
   "vec2 cDiv(vec2 a, vec2 b) \x7b",
   "\treturn vec2(a.x*b.x + a.y*b.y, a.y*b.x - a.x*b.y) / (b.x*b.x + b.y*b.y);",
   "\x7d"],
  ["",
   "vec2 cExp(vec2 z) \x7b",
   "\tfloat r = exp(z.x);",
   "\treturn vec2(r*cos(z.y), r*sin(z.y));",
   "\x7d"],
  ["",
   "vec2 cLog(vec2 z) \x7b",
   "\treturn vec2(log(length(z)), atan(z.y, z.x));",
   "\x7d"],
  ["",
   "vec2 cSqrt(vec2 z) \x7b",
   "\treturn cExp(cLog(z)/2.);",
   "\x7d"],
  ["",
   "vec2 cPow(vec2 z, vec2 e) \x7b",
   "\treturn cExp(cMul(cLog(z), e));",
   "\x7d"],
  ["",
   "vec2 cCos(vec2 z) \x7b",
   "\treturn (cExp(vec2(-z.y, z.x)) + cExp(vec2(z.y, -z.x)))/2.;",
   "\x7d"],
  ["",
   "vec2 cSin(vec2 z) \x7b",
   "\treturn cDiv(cExp(vec2(-z.y, z.x)) - cExp(vec2(z.y, -z.x)), vec2(0., 2.));",
   "\x7d"],
  ["",
   "vec2 cTan(vec2 z) \x7b",
   "\treturn cDiv(cSin(z), cCos(z));",
   "\x7d"],
  ["",
   "vec2 cCosh(vec2 z) \x7b",
   "\treturn (cExp(z) + cExp(-z))/2.;",
   "\x7d"],
  ["",
   "vec2 cSinh(vec2 z) \x7b",
   "\treturn (cExp(z) - cExp(-z))/2.;",
   "\x7d"],
  ["",
   "vec2 cTanh(vec2 z) \x7b",
   "\treturn cDiv(cSinh(z), cCosh(z));",
   "\x7d"],
  ["",
   "// Inverse functions in logarithmic form.",
   "// https://en.wikipedia.org/wiki/Inverse_trigonometric_functions#Logarithmic_forms",
   "",
   "vec2 cAsin(vec2 z) \x7b",
   "\tvec2 w = cLog(cSqrt(vec2(1.,0.) - cMul(z,z)) - vec2(z.y, -z.x));",
   "\treturn vec2(w.y, -w.x);",
   "\x7d"],
  ["",
   "vec2 cAcos(vec2 z) \x7b",
   "\tvec2 s = cSqrt(vec2(1.,0.) - cMul(z,z));",
   "\tvec2 w = cLog(z + vec2(-s.y, s.x));",
   "\treturn vec2(w.y, -w.x);",
   "\x7d"],
  ["",
   "vec2 cAtan(vec2 z) \x7b",
   "\tvec2 w = cLog(cDiv(vec2(1.-z.y, z.x), vec2(1.+z.y, -z.x)))/2.;",
   "\treturn vec2(w.y, -w.x);",
   "\x7d"],
  ["",
   "vec2 cAcosh(vec2 z) \x7b",
   "\treturn cLog(z + cSqrt(cMul(z,z) - vec2(1.,0.)));",
   "\x7d"],
  ["",
   "vec2 cAsinh(vec2 z) \x7b",
   "\treturn cLog(z + cSqrt(cMul(z,z) + vec2(1.,0.)));",
   "\x7d"],
  ["",
   "vec2 cAtanh(vec2 z) \x7b",
   "\treturn cLog(cDiv(vec2(1.,0.) + z, vec2(1.,0.) - z))/2.;",
   "\x7d"]]

def librarySource : String :=
  String.join (libraryParts.flatten.map (· ++ "\n"))

/-- The helpers, in the order of their definitions. -/
def helperLibrary : List Function :=
  (functionsOf librarySource).toOption.getD []

theorem helperLibrary_def : helperLibrary = (functionsOf librarySource).toOption.getD [] :=
  rfl

-- Two generators with the library are compared without reading its source.
attribute [irreducible] helperLibrary

end EscapeTime.Shader
