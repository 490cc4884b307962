import EscapeTime.Picture.Hsv
import EscapeTime.Picture.Image

/-!
# Palettes

A palette gives each progress a color. Progress that is not a number is red.
-/

namespace EscapeTime

/-- A color for each progress. -/
abbrev Palette := Single → Rgba

namespace Palette

/-- A channel of a color between zero and one. -/
def level (x : Single) : UInt8 :=
  UInt8.ofNat (x.clamp 0 1 * 255).toNatOrZero

/-- Gray levels, white for full progress. Infinite progress is red, too. -/
def grayscale : Palette := fun x =>
  if x.isNaN || x.isInf then .red
  else .gray (UInt8.ofNat (255 * Single.min (Single.max x 0) 1).toNatOrZero)

/-- A palette of the numbers, with red for NaN. -/
def ofNumber (f : Single → Rgba) : Palette := fun x =>
  if x.isNaN then .red else f x

/-! ### Viridis -/

/-- The coefficients of the polynomials of the three channels, from the constant on. -/
def viridisCoefficients : List (Rgb Single) := [
  ⟨0.2777273272234177, 0.005407344544966578, 0.3340998053353061⟩,
  ⟨0.1050930431085774, 1.404613529898575, 1.384590162594685⟩,
  ⟨-0.3308618287255563, 0.214847559468213, 0.09509516302823659⟩,
  ⟨-4.634230498983486, -5.799100973351585, -19.33244095627987⟩,
  ⟨6.228269936347081, 14.17993336680509, 56.69055260068105⟩,
  ⟨4.776384997670288, -13.74514537774601, -65.35303263337234⟩,
  ⟨-5.435455855934631, 4.645852612178535, 26.3124352495832⟩]

/-- The values of the polynomials at `t`, by nested multiplication. -/
def polynomial (t : Single) : List (Rgb Single) → Rgb Single
  | [] => ⟨0, 0, 0⟩
  | [c] => c
  | c :: cs =>
    let rest := polynomial t cs
    ⟨c.r + t * rest.r, c.g + t * rest.g, c.b + t * rest.b⟩

/-- The viridis color map. -/
def viridisAt (x : Single) : Rgba :=
  let c := polynomial (x.clamp 0 1) viridisCoefficients
  ⟨level c.r, level c.g, level c.b, 255⟩

def viridis : Palette :=
  ofNumber viridisAt

/-- Why there is no lookup texture of the viridis map. -/
inductive TextureFault where
  | tooNarrow
  | memory (fault : MemoryFault)
  deriving DecidableEq, Repr

def TextureFault.message : TextureFault → String
  | tooNarrow => "LUT width must be at least 2"
  | memory fault => fault.message

/-- The viridis map as a texture of one row. -/
def viridisTexture (width : Int) : Except TextureFault Image :=
  if width < 2 then .error .tooNarrow
  else
    match Image.blank? ⟨0, 0, width, 1⟩ with
    | .error fault => .error (.memory fault)
    | .ok img =>
      .ok ((List.range width.toNat).foldl
        (fun img (i : Nat) => img.set i 0 (viridisAt (Single.ofInt i / Single.ofInt (width - 1))))
        img)

/-! ### Lookup textures -/

/-- The texel of the middle row nearest to each progress. There is none in an empty texture. -/
def lookup? (texture : Image) : Option Palette :=
  if texture.bounds.isEmpty then none
  else
    let y := texture.bounds.minY + texture.bounds.height / 2
    let width := Single.ofInt texture.bounds.width
    some (ofNumber fun x =>
      texture.get (texture.bounds.minX + ((x * width).clamp 0 (width - 1)).toInt) y)

/-- The text of the error of an empty texture. -/
def emptyTextureMessage : String := "empty lookup texture"

/-! ### Gradients -/

/-- A color as numbers between zero and one. -/
def channels (c : Rgba) : Rgb Single :=
  let channel := fun n : UInt8 => Single.ofInt n.toNat / 255
  ⟨channel c.r, channel c.g, channel c.b⟩

/-- The color packed into the last 24 bits of a number, red first. -/
def pack (c : Rgb Single) : Nat :=
  ((level c.r).toNat * 256 + (level c.g).toNat) * 256 + (level c.b).toNat

/-- The colors from `c₀` at no progress to `c₁` at full progress, by way of the hues between. -/
def gradient (c₀ c₁ : Rgba) : Palette :=
  let start := (channels c₀).toHsv
  let finish := (channels c₁).toHsv
  ofNumber fun x =>
    let c := (start.interpolate Single.mix finish (x.clamp 0 1)).toRgb
    ⟨level c.r, level c.g, level c.b, 255⟩

end Palette

/-- A share in percent, cut to two places. -/
def percentOf (num den : Nat) : Single :=
  if den = 0 then 0
  else (10000 * Single.ofInt num / Single.ofInt den).trunc / 100

end EscapeTime
