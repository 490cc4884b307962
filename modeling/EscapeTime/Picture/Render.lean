import EscapeTime.Formula.Report
import EscapeTime.Number.Shortest
import EscapeTime.Orbit.Cache
import EscapeTime.Picture.Label
import EscapeTime.Picture.Renderer
import EscapeTime.Shader.Program

/-!
# Pictures of formulas

`drawFormula` draws the fractal of a formula, from the checks of the request to the label. It keeps
a log of what it does.
-/

namespace EscapeTime

/-- A request for a picture. -/
structure PictureConfig where
  width : Int
  height : Int
  zoom : Single
  offset : Point
  /-- Zero stands for the default. -/
  iterations : Int
  /-- Zero stands for the default. -/
  radius2 : Single
  /-- The viridis map if there is none. -/
  palette : Option Palette
  /-- Drawn unless it is empty. -/
  label : String
  font : Option (List UInt8)
  useGpu : Bool
  enableCaching : Bool

/-- Why there is no picture. -/
inductive PictureError where
  | nilFormula
  | dimensions
  | noGpu
  | rawCode
  | config (error : ConfigError)
  | render (error : RenderError)
  | label (error : LabelError)
  deriving DecidableEq, Repr

def PictureError.message : PictureError → String
  | nilFormula => "nil formula"
  | dimensions => "image dimensions must be positive"
  | noGpu => noGpuMessage
  | rawCode => "formulas with raw shader code require GPU rendering"
  | config error => error.message
  | render error => error.message
  | label error => "drawing label: " ++ error.message

namespace PictureConfig

/-- How orbits are followed, with defaults for what is zero. -/
def orbit (c : PictureConfig) : OrbitConfig where
  iterations := if c.iterations ≠ 0 then c.iterations else OrbitConfig.default.iterations
  radius2 := if c.radius2.isZero then OrbitConfig.default.radius2 else c.radius2

/-- The part of the plane that the picture shows. -/
def viewport (c : PictureConfig) : Viewport :=
  ⟨c.zoom, c.offset, Single.ofInt c.width / Single.ofInt c.height⟩

end PictureConfig

/-- The log line on what the cache saved. -/
def cacheLine (c : Cache) : String :=
  "caching omitted " ++ Number.singleText (percentOf c.hits.toNat c.evaluations.toNat) ++
    " percent of " ++ toString c.evaluations.toNat ++ " evaluations"

/-- The picture drawn by a fractal, with the state it ends in. -/
def drawFractal {σ : Type} (c : PictureConfig) (fractal : Fractal σ) (state : σ) :
    σ × Except PictureError Image :=
  match Renderer.new? (max 4096 c.width) (some (c.palette.getD Palette.viridis)) with
  | .error e => (state, .error (.render e))
  | .ok renderer =>
    match Image.blank? ⟨0, 0, c.width, c.height⟩ with
    | .error fault => (state, .error (.render (.memory fault)))
    | .ok img =>
      let r := renderer.render fractal state c.viewport img (.pool (some .empty))
      match r.error with
      | some e => (r.state, .error (.render e))
      | none =>
        if c.label.isEmpty then (r.state, .ok r.image)
        else (r.state, (addLabel r.image c.label c.font).mapError .label)

/-- The picture of a formula and the log. -/
def drawFormula (f : Option Formula) (c : PictureConfig) :
    List String × Except PictureError Image :=
  match f with
  | none => ([], .error .nilFormula)
  | some f =>
    if c.width ≤ 0 ∨ c.height ≤ 0 then ([], .error .dimensions)
    else if c.useGpu then (["using GPU"], .error .noGpu)
    else
      let start := ["using CPU"]
      if f.containsRawCode then (start, .error .rawCode)
      else
        match orbitFractal? .single (some f.iteration) c.orbit with
        | .error e => (start, .error (.config e))
        | .ok fractal =>
          if c.enableCaching then
            match Cache.new? (Number.word (c.width * c.height)) with
            | .error e => (start, .error (.config e))
            | .ok cache =>
              let ((cache, _), result) := drawFractal c (Cache.evaluate fractal) (cache, ())
              (start ++ [cacheLine cache], result)
          else (start, (drawFractal c fractal ()).2)

/-! ### Windows -/

/-- A request for a window. -/
structure WindowConfig where
  width : Int
  height : Int
  zoom : Single
  offset : Point

/-- The part of the plane that a new window shows. -/
def WindowConfig.viewport (c : WindowConfig) : Viewport :=
  ⟨c.zoom, c.offset, Single.ofInt c.width / Single.ofInt c.height⟩

/-- Why no window opens. -/
inductive WindowError where
  | nilFormula
  | dimensions
  | noDisplay
  deriving DecidableEq, Repr

def WindowError.message : WindowError → String
  | nilFormula => "nil formula"
  | dimensions => "window dimensions must be positive"
  | noDisplay => "require cgo for UI rendering"

/-- Why the window that shows a formula does not open. -/
def openWindow (f : Option Formula) (c : WindowConfig) : WindowError :=
  if f.isNone then .nilFormula
  else if c.width ≤ 0 ∨ c.height ≤ 0 then .dimensions
  else .noDisplay

end EscapeTime
