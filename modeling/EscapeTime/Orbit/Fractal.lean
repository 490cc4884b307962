import EscapeTime.Formula.Basic
import EscapeTime.Orbit.Pool

/-!
# Escape progress

The orbit of a point is what iterating a formula from it gives. Its progress grows with the number
of iterations after which the orbit is still within the escape radius. A fractal finds the progress
of many points at once.
-/

namespace EscapeTime

/-- How orbits are followed. -/
structure OrbitConfig where
  /-- How often the formula is applied. -/
  iterations : Int
  /-- An iteration counts when it leaves the squared modulus below this. -/
  radius2 : Single
  deriving DecidableEq, Repr

/-- Why there is no fractal. -/
inductive ConfigError where
  | nilIteration
  | iterations
  | radius
  | nilFractal
  | cacheSize
  deriving DecidableEq, Repr

def ConfigError.message : ConfigError → String
  | nilIteration => "nil stepper"
  | iterations => "iterations must be positive"
  | radius => "escape radius must be positive and finite"
  | nilFractal => "nil fractal"
  | cacheSize => "cache size must be positive"

namespace OrbitConfig

def default : OrbitConfig :=
  ⟨100, 9⟩

def check (c : OrbitConfig) : Except ConfigError Unit :=
  if c.iterations < 1 then .error .iterations
  else if c.radius2 ≤ 0 ∨ c.radius2.isInf then .error .radius
  else .ok ()

end OrbitConfig

/-- The measures that progress is made of. -/
structure Gauge where
  /-- The squared modulus. -/
  norm2 : Point → Single
  log2 : Single → Single

namespace Gauge

/-- The measures in single precision. -/
def single : Gauge :=
  ⟨fun z => z.x * z.x + z.y * z.y, Single.log2⟩

/-- The progress of an orbit that was within the radius after `iters` of `total` iterations. -/
def progress (gauge : Gauge) (iters : Single) (total : Int) : Single :=
  gauge.log2 (iters + 2) / gauge.log2 (Single.ofInt total + 2)

/-- The counts after an iteration that ended at `z`. -/
def countWithin (gauge : Gauge) (radius2 : Single) (z : List Point) (counts : List Single) :
    List Single :=
  List.zipWith (fun v n => if gauge.norm2 v < radius2 then n + 1 else n) z counts

end Gauge

/-- Why the progress of points is not found. -/
inductive EvalError where
  | lengthMismatch
  | emptyBuffers
  | iteration (n : Nat) (cause : Formula.StepError)
  | pool (fault : PoolFault)
  | stated (message : String)
  deriving DecidableEq, Repr

def EvalError.message : EvalError → String
  | lengthMismatch => "position and progress buffer length mismatch"
  | emptyBuffers => "empty buffers"
  | iteration n cause => "iteration " ++ toString n ++ ": " ++ cause.message
  | pool fault => fault.message
  | stated message => message

/-- What an evaluation leaves: the state of the fractal, the progress buffer, the scratch buffers,
and the error that stopped it, if one did. -/
structure Evaluation (σ : Type) where
  state : σ
  progress : List Single
  scratch : ScratchSource
  error : Option EvalError

/-- A fractal with a state. It is given points, which it only reads, a buffer for their progress and
a source of scratch buffers. -/
abbrev Fractal (σ : Type) :=
  σ → (points : List Point) → (progress : List Single) → ScratchSource → Evaluation σ

/-- Why two buffers cannot be those of an evaluation. -/
def bufferError? (points : List Point) (progress : List Single) : Option EvalError :=
  if points.length ≠ progress.length then some .lengthMismatch
  else if points.isEmpty then some .emptyBuffers
  else none

/-- What one iteration leaves: the state of what iterates, the buffer of points, the scratch
buffers, and the error that stopped it, if one did. -/
structure Stepping (σ : Type) where
  state : σ
  points : List Point
  scratch : ScratchSource
  error : Option Formula.StepError

/-- One iteration of all points of a buffer, which is read and stored over. -/
abbrev Iteration (σ : Type) :=
  σ → (points : List Point) → ScratchSource → Stepping σ

/-- The iteration of a formula, which has no state and takes no scratch buffers. -/
def Formula.iteration (f : Formula) : Iteration Unit :=
  fun _ points scratch =>
    let buffer : Stretch := ⟨0, points.length⟩
    match f.step buffer buffer points.toArray with
    | (stored, error) => ⟨(), stored.toList, scratch, error⟩

/-- Where iterations have led, with the count or the progress of each point. -/
structure Orbits (σ : Type) where
  state : σ
  points : List Point
  counts : List Single
  scratch : ScratchSource
  error : Option EvalError

section Orbits

variable {σ : Type} (gauge : Gauge) (s : Iteration σ)

/-- The next `n` iterations from `z`, the first of them with number `i`. -/
def iterate (radius2 : Single) : (n i : Nat) → σ → (z : List Point) → (counts : List Single) →
    ScratchSource → Orbits σ
  | 0, _, state, z, counts, scratch => ⟨state, z, counts, scratch, none⟩
  | n + 1, i, state, z, counts, scratch =>
    match s state z scratch with
    | ⟨state, z, scratch, some cause⟩ => ⟨state, z, counts, scratch, some (.iteration i cause)⟩
    | ⟨state, z, scratch, none⟩ =>
      iterate radius2 n (i + 1) state z (gauge.countWithin radius2 z counts) scratch

/-- The progress of points, found in a buffer whose first values they become. -/
def followOrbits (c : OrbitConfig) (state : σ) (points : List Point) (scratch : ScratchSource) :
    Orbits σ :=
  let orbits :=
    iterate gauge s c.radius2 c.iterations.toNat 0 state points (points.map fun _ => 0) scratch
  match orbits.error with
  | some _ => orbits
  | none => { orbits with counts := orbits.counts.map (gauge.progress · c.iterations) }

/-- The fractal of an iteration. It takes a scratch buffer from the pool if there is one. -/
def orbitFractal (c : OrbitConfig) : Fractal σ :=
  fun state points progress scratch =>
    match bufferError? points progress with
    | some e => ⟨state, progress, scratch, some e⟩
    | none =>
      match scratch.find with
      | .error _ =>
        let orbits := followOrbits gauge s c state points scratch
        ⟨orbits.state, orbits.counts, orbits.scratch, orbits.error⟩
      | .ok pool =>
        match pool.points.acquire points.length with
        | (held, .error fault) =>
          ⟨state, progress, scratch.update { pool with points := held }, some (.pool fault)⟩
        | (held, .ok buffer) =>
          let lent := scratch.update { pool with points := held }
          let orbits := followOrbits gauge s c state points lent
          match orbits.scratch.release { buffer with contents := orbits.points } with
          | (released, none) => ⟨orbits.state, orbits.counts, released, orbits.error⟩
          | (released, some fault) => ⟨orbits.state, orbits.counts, released, some (.pool fault)⟩

/-- The fractal of an iteration, if there is one and the configuration is sound. -/
def orbitFractal? (s : Option (Iteration σ)) (c : OrbitConfig) : Except ConfigError (Fractal σ) :=
  match s with
  | none => .error .nilIteration
  | some s => do
    c.check
    return orbitFractal gauge s c

end Orbits

/-- What every request for graphics hardware ends with. -/
def noGpuMessage : String :=
  "GPU evaluation requires CGo and is not supported on TinyGo"

end EscapeTime
