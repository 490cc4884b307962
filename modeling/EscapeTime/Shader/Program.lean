import EscapeTime.Formula.Basic
import EscapeTime.Shader.Function
import EscapeTime.Shader.Literal
import EscapeTime.Shader.References

/-!
# Shader programs

Complete programs that iterate a formula over the plane. The progress of a point is
`log2(iters + 2) / log2(iterations + 2)`, where `iters` counts the iterations after which the
squared modulus of `z` is below the squared escape radius.
-/

namespace EscapeTime.Shader

/-- The programs that can be written. -/
inductive ProgramKind where
  | webglFragment
  | webglVertex
  | coreFragment
  | coreVertex
  | compute
  deriving DecidableEq, Repr

namespace ProgramKind

def all : List ProgramKind :=
  [webglFragment, webglVertex, coreFragment, coreVertex, compute]

def name : ProgramKind → String
  | webglFragment => "webgl-frag"
  | webglVertex => "webgl-vert"
  | coreFragment => "core-frag"
  | coreVertex => "core-vert"
  | compute => "compute"

def ofName? (s : String) : Option ProgramKind :=
  all.find? (·.name == s)

end ProgramKind

/-- Parameters of the programs and the helper functions that each of them defines. -/
structure Generator where
  iterations : Int
  radius2 : Single
  /-- The size of a compute work group. -/
  invocations : Int
  library : List Function

/-- Why a program is not written or a function not added. -/
inductive ProgramError where
  | nilFormula
  | iterations
  | radius
  | undefinedHelper (name : String)
  | notAFunction
  | duplicateFunction (name : String)
  | broken (fault : Fault)
  deriving DecidableEq, Repr

def ProgramError.message : ProgramError → String
  | nilFormula => "nil formula"
  | iterations => "iterations must be positive"
  | radius => "escape radius must be positive"
  | undefinedHelper name =>
    "formula references undefined helper " ++ name ++ ", add it with AddFunctions"
  | notAFunction => "shader object is not a function"
  | duplicateFunction name => "duplicate function " ++ Text.quote name
  | broken fault => fault.message

/-- Why a work group size is refused. -/
inductive InvocationFault where
  | unsupported
  | notPositive
  deriving DecidableEq, Repr

def InvocationFault.message : InvocationFault → String
  | unsupported => "unsupported"
  | notPositive => "zero or negative X invocation size"

namespace Generator

def defaultIterations : Int := 100

def defaultRadius2 : Single := 9

/-- A generator with usual parameters and no helpers. -/
def default : Generator :=
  ⟨defaultIterations, defaultRadius2, 32, []⟩

/-- A generator without parameters. -/
def zero : Generator :=
  ⟨0, 0, 0, []⟩

/-- The generator with helpers added, up to the first that is refused. -/
def addFunctions (p : Generator) : List Function → Generator × Option ProgramError
  | [] => (p, none)
  | f :: fs =>
    if f.source.isEmpty then (p, some .notAFunction)
    else if p.library.any (·.name == f.name) then (p, some (.duplicateFunction f.name))
    else addFunctions { p with library := p.library ++ [f] } fs

/-- The generator with another work group size. Only the first dimension can vary. -/
def setInvocations (p : Generator) (x y z : Int) : Except InvocationFault Generator :=
  if y ≠ 1 ∨ z ≠ 1 then .error .unsupported
  else if x < 1 then .error .notPositive
  else .ok { p with invocations := x }

/-! ### Parts of a program -/

/-- Lines of code, each with its end. -/
def codeLines (ls : List String) : String :=
  String.join (ls.map (· ++ "\n"))

/-- The formula to write, if the parameters allow it. -/
def check (p : Generator) : Option Formula → Except ProgramError Formula
  | none => .error .nilFormula
  | some f =>
    if p.iterations < 1 then .error .iterations
    else if p.radius2 ≤ 0 then .error .radius
    else .ok f

def hasFunction (p : Generator) (name : String) : Bool :=
  p.library.any (·.name == name)

/-- The definitions of all helpers, provided that those which `code` calls are among them. -/
def libraryCode (p : Generator) (code : String) : Except ProgramError String :=
  match (calledHelpers code).find? (!p.hasFunction ·) with
  | some name => .error (.undefinedHelper name)
  | none => .ok (String.join (p.library.map Function.text))

/-- The statements that set `z` to the point that a fragment shows. -/
def viewportCode : String :=
  codeLines ["\tvec2 z = vPosition.xy*exp(zoom) - offset;", "\tz.x *= aspectRatio;"]

/-- The loop that leaves the progress of `z` in `progress`. -/
def iterationCode (p : Generator) (code : String) : String :=
  codeLines [
    "\tfloat iters = 0.;",
    "\tfor (int i = 0; i < " ++ toString p.iterations ++ "; i++) \x7b",
    "\t\tz = " ++ code ++ ";",
    "\t\titers += float(dot(z,z) < " ++ floatCode p.radius2 ++ ");",
    "\t\x7d",
    "\tfloat progress = log2(iters + 2.)/log2(" ++
      floatCode (.ofInt (Number.word (p.iterations + 2))) ++ ");"]

def uniformLines : List String :=
  ["uniform sampler2D vSampler;", "uniform float aspectRatio;", "uniform float zoom;",
    "uniform vec2 offset;", ""]

def webglFragmentHead : String :=
  codeLines (["precision mediump float;"] ++ uniformLines ++
    ["varying vec3 vPosition;", "varying vec2 vTexcoord;", ""])

def coreFragmentHead : String :=
  codeLines (["#version 460"] ++ uniformLines ++ ["in vec2 vPosition;", "out vec4 fragColor;", ""])

def computeHead (p : Generator) : String :=
  codeLines [
    "#shader compute",
    "#version 430",
    "",
    "layout(local_size_x = " ++ toString p.invocations ++
      ", local_size_y = 1, local_size_z = 1) in;",
    "",
    "// Input: starting values of z at which to evaluate the formula.",
    "layout(std430, binding = 0) buffer PositionsBuffer \x7b",
    "\tvec2 vbo_positions[];",
    "\x7d;",
    "",
    "// Output: escape progress of each starting value.",
    "layout(std430, binding = 1) buffer ProgressBuffer \x7b",
    "\tfloat vbo_progress[];",
    "\x7d;",
    ""]

def computeStart : String :=
  codeLines [
    "void main() \x7b",
    "\tint idx = int( gl_GlobalInvocationID.x );",
    "\tif (idx >= vbo_positions.length()) \x7b",
    "\t\treturn;",
    "\t\x7d",
    "\tvec2 z = vbo_positions[idx];"]

def webglVertexCode : String :=
  codeLines [
    "attribute vec3 aPosition;",
    "attribute vec2 aTexcoord;",
    "",
    "varying vec3 vPosition;",
    "varying vec2 vTexcoord;",
    "",
    "void main() \x7b",
    "\tgl_Position = vec4(aPosition, 1.);",
    "\tvPosition = aPosition;",
    "\tvTexcoord = aTexcoord;",
    "\x7d"]

def coreVertexCode : String :=
  codeLines [
    "#version 460",
    "in vec2 aPosition;",
    "out vec2 vPosition;",
    "",
    "void main() \x7b",
    "\tgl_Position = vec4(aPosition, 0., 1.);",
    "\tvPosition = aPosition;",
    "\x7d"] ++ "\x00"

/-- A program around the helpers and the iteration of a formula. -/
def frame (p : Generator) (f : Option Formula) (head start finish : String) :
    Except ProgramError String := do
  let f ← p.check f
  let code ← f.code.mapError .broken
  let library ← p.libraryCode code
  return head ++ library ++ start ++ p.iterationCode code ++ codeLines [finish, "\x7d"]

/-! ### Programs -/

/-- The source of a program. Core programs end with a null character. -/
def write (p : Generator) (kind : ProgramKind) (f : Option Formula) :
    Except ProgramError String :=
  match kind with
  | .webglFragment =>
    p.frame f webglFragmentHead (codeLines ["void main() \x7b"] ++ viewportCode)
      "\tgl_FragColor = texture2D(vSampler, vec2(progress,0.5));"
  | .coreFragment =>
    (p.frame f coreFragmentHead (codeLines ["void main() \x7b"] ++ viewportCode)
      "\tfragColor = texture(vSampler, vec2(progress,0.5));").map (· ++ "\x00")
  | .compute => p.frame f p.computeHead computeStart "\tvbo_progress[idx] = progress;"
  | .webglVertex => .ok webglVertexCode
  | .coreVertex => .ok coreVertexCode

end Generator

/-! ### Writing out -/

/-- What takes bytes: its state after them, how many of them it took, and its error, if any. -/
abbrev Writer (σ : Type) := σ → List UInt8 → σ × Nat × Option String

/-- Why a program is not written out: there is none, or the writer fails. -/
inductive WriteError where
  | program (e : ProgramError)
  | writer (message : String)
  deriving DecidableEq, Repr

/-- The text is given to the writer in one piece. -/
def Writer.send {σ : Type} (w : Writer σ) (s : σ) (text : String) : σ × Nat × Option WriteError :=
  let (s, count, e) := w s (Text.encodeUtf8 text)
  (s, count, e.map .writer)

/-- A program is written out once it is complete. -/
def Generator.writeTo {σ : Type} (p : Generator) (w : Writer σ) (s : σ) (kind : ProgramKind)
    (f : Option Formula) : σ × Nat × Option WriteError :=
  match p.write kind f with
  | .ok text => w.send s text
  | .error e => (s, 0, some (.program e))

end EscapeTime.Shader
