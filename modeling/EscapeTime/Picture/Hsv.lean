import EscapeTime.Number.Single

/-!
# Hue, saturation and value

Conversion between red, green, blue and hue, saturation, value, all of them from zero to one, and
interpolation along the shorter way around the circle of hues. The numbers can be any `HueScalar`.
-/

namespace EscapeTime

/-- The arithmetic of color conversion. -/
class HueScalar (α : Type) extends Add α, Sub α, Mul α, Div α where
  ofRatio : (num den : Nat) → α
  lt : α → α → Bool
  le : α → α → Bool
  /-- Equality by value. -/
  same : α → α → Bool
  abs : α → α
  /-- The remainder of a division toward zero. -/
  mod : α → α → α
  max : α → α → α
  min : α → α → α

instance : HueScalar Single where
  ofRatio := Single.ofRatio false
  lt x y := x < y
  le x y := x ≤ y
  same := Single.same
  abs := Single.abs
  mod := Single.mod
  max x y := if x.isNaN || y.isNaN then Single.nan else Single.max x y
  min x y := if x.isNaN || y.isNaN then Single.nan else Single.min x y

structure Rgb (α : Type) where
  r : α
  g : α
  b : α
  deriving DecidableEq, Repr

structure Hsv (α : Type) where
  h : α
  s : α
  v : α
  deriving DecidableEq, Repr

open HueScalar

variable {α : Type} [HueScalar α]

/-- The number `n`. -/
def HueScalar.whole (n : Nat) : α := ofRatio n 1

namespace Hsv

/-- The color. Each sixth of the circle of hues has two channels at their extremes. -/
def toRgb (c : Hsv α) : Rgb α :=
  let chroma := c.s * c.v
  let x := chroma * (whole 1 - abs (mod (c.h * whole 6) (whole 2) - whole 1))
  let base := c.v - chroma
  let zero : α := whole 0
  let sixth := fun n : Nat => (ofRatio n 6 : α)
  let between := fun m n : Nat => lt (sixth m) c.h && le c.h (sixth n)
  let (r, g, b) :=
    if le zero c.h && le c.h (sixth 1) then (chroma, x, zero)
    else if between 1 2 then (x, chroma, zero)
    else if between 2 3 then (zero, chroma, x)
    else if between 3 4 then (zero, x, chroma)
    else if between 4 5 then (x, zero, chroma)
    else if between 5 6 then (chroma, zero, x)
    else (zero, zero, zero)
  ⟨r + base, g + base, b + base⟩

/-- The color a fraction `t` of the way from `c₀` to `c₁`, where `mix x y t` is the number so far on
the way from `x` to `y`. -/
def interpolate (mix : α → α → α → α) (c₀ c₁ : Hsv α) (t : α) : Hsv α :=
  let half : α := ofRatio 1 2
  let far := c₁.h - c₀.h
  let h₀ := if lt half far then c₀.h + whole 1 else c₀.h
  let h₁ := if !lt half far && lt far (whole 0 - half) then c₁.h + whole 1 else c₁.h
  let h := mix h₀ h₁ t
  ⟨if lt (whole 1) h then h - whole 1 else h, mix c₀.s c₁.s t, mix c₀.v c₁.v t⟩

end Hsv

namespace Rgb

/-- The hue, saturation and value of a color. Grays have hue zero. -/
def toHsv (c : Rgb α) : Hsv α :=
  let high := max (max c.r c.g) c.b
  let low := min (min c.r c.g) c.b
  let chroma := high - low
  let zero : α := whole 0
  let h :=
    if same chroma zero then zero
    else if same high c.r then (c.g - c.b) / (chroma * whole 6)
    else if same high c.g then ofRatio 1 3 + (c.b - c.r) / (chroma * whole 6)
    else if same high c.b then ofRatio 2 3 + (c.r - c.g) / (chroma * whole 6)
    else zero
  ⟨if lt h zero then h + whole 1 else h, if lt zero high then chroma / high else zero, high⟩

end Rgb

end EscapeTime
