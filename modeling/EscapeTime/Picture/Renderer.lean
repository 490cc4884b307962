import EscapeTime.Orbit.Fractal
import EscapeTime.Picture.Palette
import EscapeTime.Picture.Viewport

/-!
# Rendering

A renderer evaluates a fractal at the centers of the pixels of an image, as many whole rows at a
time as its buffer holds, and draws the colors of their progress.
-/

namespace EscapeTime

/-- Why an image is not rendered. -/
inductive RenderError where
  | smallBuffer
  | emptyImage
  | narrowBuffer (buffer : Nat) (width : Int)
  | evaluation (error : EvalError)
  | memory (fault : MemoryFault)
  deriving DecidableEq, Repr

def RenderError.message : RenderError → String
  | smallBuffer => "too small evaluation buffer size"
  | emptyImage => "empty image"
  | narrowBuffer buffer width =>
    "require evaluation buffer (" ++ toString buffer ++
      ") to be at least of length of image rows (" ++ toString width ++ ")"
  | evaluation error => error.message
  | memory fault => fault.message

/-- A pixel that is set, and its color. -/
structure Stroke where
  x : Int
  y : Int
  color : Rgba
  deriving DecidableEq, Repr

def Image.draw (img : Image) (s : Stroke) : Image :=
  img.set s.x s.y s.color

structure Renderer where
  /-- How many points are evaluated at a time. -/
  bufferSize : Nat
  palette : Palette

namespace Renderer

/-- A renderer, with gray levels if there is no palette. -/
def new? (bufferSize : Int) (palette : Option Palette) : Except RenderError Renderer :=
  if bufferSize ≤ 64 then .error .smallBuffer
  else if Nat.pow 2 45 < bufferSize then .error (.memory .badLength)
  else .ok ⟨bufferSize.toNat, palette.getD Palette.grayscale⟩

/-- The points at the pixels of `count` rows from `start` on, of an image of the given size. -/
def rowPoints (v : Viewport) (width height start count : Nat) : List Point :=
  (List.range count).flatMap fun (j : Nat) =>
    (List.range width).map fun (i : Nat) => v.map (pixelCenter i (start + j : Nat) width height)

/-- What rendering leaves: the state of the fractal, the image as far as it was drawn, the scratch
buffers, and the error that stopped it, if one did. -/
structure Rendering (σ κ : Type) where
  state : σ
  image : κ
  scratch : ScratchSource
  error : Option RenderError

section Canvas

variable {σ κ : Type} (draw : κ → Stroke → κ)

/-- The canvas with the colors of `progress` drawn from row `start` on. -/
def paintOn (palette : Palette) (bounds : Rect) (start : Nat) (canvas : κ)
    (progress : List Single) : κ :=
  let width := bounds.width.toNat
  progress.zipIdx.foldl (fun canvas (x, k) =>
    draw canvas ⟨bounds.minX + (k % width : Nat), bounds.minY + (start + k / width : Nat),
      palette x⟩) canvas

/-- The next `batches` batches of `rows` rows from row `start` on. Rows are numbered without
wrapping around: the numbers stay below the height and another `rows`. -/
def renderFromOn (r : Renderer) (fractal : Fractal σ) (v : Viewport) (bounds : Rect) (rows : Nat) :
    (batches start : Nat) → σ → κ → ScratchSource → Rendering σ κ
  | 0, _, state, canvas, scratch => ⟨state, canvas, scratch, none⟩
  | batches + 1, start, state, canvas, scratch =>
    let width := bounds.width.toNat
    let height := bounds.height.toNat
    let points := rowPoints v width height start (min rows (height - start))
    let e := fractal state points (points.map fun _ => 0) scratch
    match e.error with
    | some error => ⟨e.state, canvas, e.scratch, some (.evaluation error)⟩
    | none =>
      renderFromOn r fractal v bounds rows batches (start + rows) e.state
        (paintOn draw r.palette bounds start canvas e.progress) e.scratch

/-- The view of a fractal on a canvas for a rectangle of pixels, drawn stroke by stroke. -/
def renderOn (r : Renderer) (fractal : Fractal σ) (state : σ) (v : Viewport) (bounds : Rect)
    (canvas : κ) (scratch : ScratchSource) : Rendering σ κ :=
  let width := bounds.width.toNat
  let height := bounds.height.toNat
  if bounds.isEmpty then ⟨state, canvas, scratch, some .emptyImage⟩
  else if r.bufferSize < width then
    ⟨state, canvas, scratch, some (.narrowBuffer r.bufferSize width)⟩
  else
    let rows := r.bufferSize / width
    renderFromOn draw r fractal v bounds rows ((height + rows - 1) / rows) 0 state canvas scratch

end Canvas

/-- The image of a fractal through a viewport. -/
def render {σ : Type} (r : Renderer) (fractal : Fractal σ) (state : σ) (v : Viewport) (img : Image)
    (scratch : ScratchSource) : Rendering σ Image :=
  r.renderOn Image.draw fractal state v img.bounds img scratch

end Renderer

end EscapeTime
