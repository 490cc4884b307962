import EscapeTime.Plane.Vec2

/-!
# Viewports

A viewport maps the square from -1 to 1 to the plane, as the fragment shaders do: scaled by
`exp zoom`, moved by the offset, and then stretched horizontally.
-/

namespace EscapeTime

structure Viewport where
  /-- The natural logarithm of half the visible height. -/
  zoom : Single
  /-- Subtracted from the scaled position: the view is centered on its opposite. -/
  offset : Point
  /-- The width divided by the height. -/
  aspect : Single
  deriving DecidableEq, Repr

namespace Viewport

/-- The view of the square itself, stretched to an aspect ratio. -/
def ofAspect (aspect : Single) : Viewport :=
  ⟨0, ⟨0, 0⟩, aspect⟩

/-- The point of the plane at normalised coordinates. -/
def map (v : Viewport) (p : Point) : Point :=
  let z := Vec2.sub (Vec2.scale v.zoom.exp p) v.offset
  { z with x := z.x * v.aspect }

/-- The step of a zoom. -/
def zoomStep : Single := .ofRatio false 1 3

/-- Zooms out for a positive amount and in for a negative one, by a fixed step. -/
def scroll (v : Viewport) (amount : Single) : Viewport :=
  if 0 < amount then { v with zoom := v.zoom + zoomStep }
  else if amount < 0 then { v with zoom := v.zoom - zoomStep }
  else v

/-- Centers the view on a point of the window, whose vertical axis points down. -/
def click (v : Viewport) (m : Point) : Viewport :=
  let scale := v.zoom.exp
  { v with offset := ⟨v.offset.x - m.x * scale, v.offset.y + m.y * scale⟩ }

/-- The view without zoom and offset. -/
def reset (v : Viewport) : Viewport :=
  ofAspect v.aspect

end Viewport

/-- The normalised coordinates of the center of a pixel. -/
def pixelCenter (x y width height : Int) : Point where
  x := 2 * (Single.ofInt x + 0.5) / Single.ofInt width - 1
  y := 1 - 2 * (Single.ofInt y + 0.5) / Single.ofInt height

end EscapeTime
