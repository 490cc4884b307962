import EscapeTime.Number.Whole

/-!
# Images

Colors have eight bits a channel, with the alpha already multiplied in. An image covers a rectangle
of pixels anywhere in the plane of whole numbers.
-/

namespace EscapeTime

structure Rgba where
  r : UInt8
  g : UInt8
  b : UInt8
  a : UInt8
  deriving DecidableEq, Repr, Inhabited

namespace Rgba

def red : Rgba := ⟨255, 0, 0, 255⟩

/-- The opaque gray of a level. -/
def gray (level : UInt8) : Rgba := ⟨level, level, level, 255⟩

end Rgba

/-- A rectangle of pixels, the maximum left out. -/
structure Rect where
  minX : Int
  minY : Int
  maxX : Int
  maxY : Int
  deriving DecidableEq, Repr

namespace Rect

/-- The rectangle between two corners, in any order. -/
def between (x₀ y₀ x₁ y₁ : Int) : Rect :=
  ⟨min x₀ x₁, min y₀ y₁, max x₀ x₁, max y₀ y₁⟩

/-- The number of columns, as a machine word. -/
def width (r : Rect) : Int := Number.word (r.maxX - r.minX)

/-- The number of rows, as a machine word. -/
def height (r : Rect) : Int := Number.word (r.maxY - r.minY)

/-- Whether the rectangle has no pixels. -/
def isEmpty (r : Rect) : Bool :=
  r.width == 0 || r.height == 0

def contains (r : Rect) (x y : Int) : Bool :=
  r.minX ≤ x && x < r.maxX && r.minY ≤ y && y < r.maxY

end Rect

/-- Memory that cannot be had. -/
inductive MemoryFault where
  | badLength
  | hugeImage
  deriving DecidableEq, Repr

def MemoryFault.message : MemoryFault → String
  | badLength => "runtime error: makeslice: len out of range"
  | hugeImage => "image: NewRGBA Rectangle has huge or negative dimensions"

structure Image where
  bounds : Rect
  /-- The pixels row by row from the top, each row from the left. -/
  pixels : Array Rgba
  deriving DecidableEq, Repr

namespace Image

/-- A transparent image, if it fits into memory at four bytes a pixel. -/
def blank? (bounds : Rect) : Except MemoryFault Image :=
  let w := bounds.width
  let h := bounds.height
  if w < 0 ∨ h < 0 ∨ Nat.pow 2 64 ≤ 4 * w ∨ Nat.pow 2 63 ≤ 4 * w * h then .error .hugeImage
  else if Nat.pow 2 48 < 4 * w * h then .error .badLength
  else .ok ⟨bounds, Array.replicate (w * h).toNat default⟩

/-- Where the pixel stands among the pixels. -/
def index (img : Image) (x y : Int) : Nat :=
  ((y - img.bounds.minY) * img.bounds.width + (x - img.bounds.minX)).toNat

/-- The color of a pixel, transparent outside the image. -/
def get (img : Image) (x y : Int) : Rgba :=
  if img.bounds.contains x y then img.pixels.getD (img.index x y) default else default

/-- The image with a pixel drawn, if it lies inside. -/
def set (img : Image) (x y : Int) (c : Rgba) : Image :=
  if img.bounds.contains x y then { img with pixels := img.pixels.setIfInBounds (img.index x y) c }
  else img

/-- The rows of the image from the top. -/
def rows (img : Image) : List (List Rgba) :=
  (List.range img.bounds.height.toNat).map fun (j : Nat) =>
    (List.range img.bounds.width.toNat).map fun (i : Nat) =>
      img.get (img.bounds.minX + i) (img.bounds.minY + j)

/-- The image with the given rows at an origin. Missing pixels are transparent. -/
def ofRows (bounds : Rect) (rows : List (List Rgba)) : Image where
  bounds := bounds
  pixels :=
    let w := bounds.width.toNat
    ((rows ++ List.replicate bounds.height.toNat []).take bounds.height.toNat).toArray.flatMap
      fun row => ((row ++ List.replicate w default).take w).toArray

end Image

end EscapeTime
