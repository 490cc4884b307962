import EscapeTime.Number.Shortest

/-!
# Settings

What a picture shows and how large it is. Settings have defaults; a file and then the command line
may override some of them.
-/

namespace EscapeTime

structure Settings where
  width : Int
  height : Int
  /-- The natural logarithm of half the visible height. -/
  zoom : Single
  offsetX : Single
  offsetY : Single
  iterations : Int
  escapeRadius : Single
  /-- The path of a lookup texture, empty for the viridis map. -/
  texture : String
  /-- Whether the formula is written on the picture. -/
  label : Bool
  useGpu : Bool
  deriving DecidableEq, Repr

/-- Some of the settings. -/
structure Overrides where
  width : Option Int
  height : Option Int
  zoom : Option Single
  offsetX : Option Single
  offsetY : Option Single
  iterations : Option Int
  escapeRadius : Option Single
  texture : Option String
  label : Option Bool
  useGpu : Option Bool
  deriving DecidableEq, Repr

/-- No settings. -/
def Overrides.none : Overrides :=
  ⟨.none, .none, .none, .none, .none, .none, .none, .none, .none, .none⟩

/-- What is wrong with settings. -/
inductive SettingsProblem where
  | dimensions (width height : Int)
  | iterations (n : Int)
  | escapeRadius (r : Single)
  deriving DecidableEq, Repr

def SettingsProblem.message : SettingsProblem → String
  | dimensions width height =>
    "dimensions must be positive, got " ++ toString width ++ "x" ++ toString height
  | iterations n => "iterations must be positive, got " ++ toString n
  | escapeRadius r => "escape radius must be positive, got " ++ Number.singleText r

namespace Settings

def default : Settings where
  width := 800
  height := 600
  zoom := 0
  offsetX := 0
  offsetY := 0
  iterations := 100
  escapeRadius := 3
  texture := ""
  label := false
  useGpu := false

/-- The settings with those of `o` in place of their own. -/
def override (s : Settings) (o : Overrides) : Settings where
  width := o.width.getD s.width
  height := o.height.getD s.height
  zoom := o.zoom.getD s.zoom
  offsetX := o.offsetX.getD s.offsetX
  offsetY := o.offsetY.getD s.offsetY
  iterations := o.iterations.getD s.iterations
  escapeRadius := o.escapeRadius.getD s.escapeRadius
  texture := o.texture.getD s.texture
  label := o.label.getD s.label
  useGpu := o.useGpu.getD s.useGpu

/-- The squared escape radius. -/
def radius2 (s : Settings) : Single :=
  s.escapeRadius * s.escapeRadius

/-- All that is wrong with the settings. -/
def problems (s : Settings) : List SettingsProblem :=
  (if s.width ≤ 0 ∨ s.height ≤ 0 then [.dimensions s.width s.height] else []) ++
  (if s.iterations < 1 then [.iterations s.iterations] else []) ++
  (if s.escapeRadius ≤ 0 then [.escapeRadius s.escapeRadius] else [])

/-- What is wrong with the settings, a problem a line, unless they are sound. -/
def complaint? (s : Settings) : Option String :=
  match s.problems with
  | [] => none
  | ps => some ("\n".intercalate (ps.map SettingsProblem.message))

end Settings

end EscapeTime
