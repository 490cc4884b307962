import EscapeTime.Command.Run
import EscapeTime.Proofs.Number.Range
import EscapeTime.Proofs.Shader.Closure

/-!
# The radius that is used

Settings are checked by their escape radius, and pictures and programs by its square.
`settings_reach_orbits`: the square of a radius up to `2 ^ -75` is zero, so that no program is
written and pictures are drawn with the default radius; that of a radius from `2 ^ 64` on is
infinite, so that no picture is drawn. Between them both use what the settings say.
-/

namespace EscapeTime

/-! ### Squares -/

namespace Settings

variable {s : Settings}

theorem problems_eq_nil (sound : s.problems = []) :
    1 ≤ s.iterations ∧ ¬ s.escapeRadius ≤ 0 := by
  unfold problems at sound
  rw [List.append_eq_nil_iff, List.append_eq_nil_iff] at sound
  obtain ⟨⟨-, iterations⟩, radius⟩ := sound
  constructor
  · by_contra few
    rw [if_pos (by omega)] at iterations
    cases iterations
  · intro nonpositive
    rw [if_pos nonpositive] at radius
    cases radius

/-- What is known of the squared radius of sound settings: it is NaN with the radius, and else zero
or infinite at known bounds. -/
theorem radius2_kind (sound : s.problems = []) :
    (s.escapeRadius.isNaN = true ∧ s.radius2.isNaN = true) ∨
    (s.escapeRadius.isNaN = false ∧ s.radius2.isNaN = false ∧ s.radius2.isNegative = false ∧
      (s.radius2.isZero = true ↔ s.escapeRadius.magnitude.value ≤ 2 ^ (-75 : ℤ)) ∧
      (s.radius2.isInf = true ↔ 2 ^ (64 : ℤ) ≤ s.escapeRadius.magnitude.value)) := by
  obtain ⟨-, positive⟩ := problems_eq_nil sound
  rw [Single.le_zero_iff, not_and_or, not_or] at positive
  by_cases nan : s.escapeRadius.isNaN = true
  · refine .inl ⟨nan, ?_⟩
    have square : s.radius2 = s.escapeRadius.quiet := if_pos nan
    rw [square]
    exact Single.isNaN_quiet nan
  · rw [Bool.not_eq_true] at nan
    obtain absurdly | ⟨nonzero, plus⟩ := positive
    · exact absurd nan absurdly
    · rw [Bool.not_eq_true] at nonzero plus
      exact .inr ⟨nan, Single.mul_self_kind ((Single.zero_lt_iff _).2 ⟨nan, nonzero, plus⟩)⟩

theorem radius2_used (sound : s.problems = [])
    (used : s.escapeRadius.isNaN = true ∨
      (2 ^ (-75 : ℤ) < s.escapeRadius.magnitude.value ∧
        s.escapeRadius.magnitude.value < 2 ^ (64 : ℤ))) :
    s.radius2.isZero = false ∧ ¬ s.radius2 ≤ 0 ∧ s.radius2.isInf = false := by
  rw [Single.le_zero_iff]
  obtain ⟨-, nan⟩ | ⟨number, number2, plus, zero, inf⟩ := radius2_kind sound
  · have bits := (Single.isNaN_iff _).1 nan
    refine ⟨?_, ?_, ?_⟩
    · rw [← Bool.not_eq_true, Single.isZero_iff]
      omega
    · rw [nan]
      simp
    · rw [← Bool.not_eq_true, Single.isInf_iff]
      omega
  · obtain ⟨large, small⟩ := used.resolve_left (by rw [number]; exact Bool.false_ne_true)
    have nonzero : s.radius2.isZero = false := by
      rw [← Bool.not_eq_true, zero]
      exact not_le.2 large
    have finite : s.radius2.isInf = false := by
      rw [← Bool.not_eq_true, inf]
      exact not_le.2 small
    rw [nonzero, plus]
    simp [finite]

theorem radius2_tiny (sound : s.problems = []) (number : s.escapeRadius.isNaN = false)
    (tiny : s.escapeRadius.magnitude.value ≤ 2 ^ (-75 : ℤ)) :
    s.radius2.isZero = true ∧ s.radius2 ≤ 0 := by
  obtain ⟨nan, -⟩ | ⟨-, number2, -, zero, -⟩ := radius2_kind sound
  · rw [number] at nan
    cases nan
  · exact ⟨zero.2 tiny, (Single.le_zero_iff _).2 ⟨number2, .inl (zero.2 tiny)⟩⟩

theorem radius2_huge (sound : s.problems = []) (number : s.escapeRadius.isNaN = false)
    (huge : 2 ^ (64 : ℤ) ≤ s.escapeRadius.magnitude.value) :
    s.radius2.isZero = false ∧ ¬ s.radius2 ≤ 0 ∧ s.radius2.isInf = true := by
  obtain ⟨nan, -⟩ | ⟨-, -, plus, -, inf⟩ := radius2_kind sound
  · rw [number] at nan
    cases nan
  · have bits := (Single.isInf_iff _).1 (inf.2 huge)
    have nonzero : s.radius2.isZero = false := by
      rw [← Bool.not_eq_true, Single.isZero_iff]
      omega
    rw [Single.le_zero_iff, nonzero, plus]
    simp [inf.2 huge]

end Settings

/-! ### Checks -/

theorem OrbitConfig.check_of_pos {c : OrbitConfig} (iterations : 1 ≤ c.iterations) :
    c.check = if c.radius2 ≤ 0 ∨ c.radius2.isInf then .error .radius else .ok () := by
  unfold check
  rw [if_neg (by omega)]

section Fractals

variable {σ : Type} (gauge : Gauge) (step : Iteration σ)

theorem orbitFractal?_of_check {c : OrbitConfig} (accepted : c.check = .ok ()) :
    orbitFractal? gauge (some step) c = .ok (orbitFractal gauge step c) := by
  unfold orbitFractal?
  rw [accepted]
  rfl

theorem orbitFractal?_of_refused {c : OrbitConfig} {e : ConfigError}
    (refused : c.check = .error e) : orbitFractal? gauge (some step) c = .error e := by
  unfold orbitFractal?
  rw [refused]
  rfl

end Fractals

theorem Shader.Generator.check_refused {p : Shader.Generator} {f : Formula}
    (iterations : 0 < p.iterations) (radius : p.radius2 ≤ 0) :
    p.check (some f) = .error .radius := by
  rw [check, if_neg (by omega), if_pos radius]

theorem Command.withFunctions_placed {p : Shader.Generator} {fs : List Shader.Function}
    (placed : Shader.Placed [] fs) (empty : p.library = []) :
    withFunctions p fs = .ok { p with library := fs } := by
  have added := Shader.Generator.addFunctions_placed placed p (by rw [empty]; rfl)
  rw [withFunctions, added, empty]
  rfl

theorem Command.generator_eq (s : Settings) :
    Command.generator s = .ok { Shader.Generator.default with
      iterations := s.iterations
      radius2 := s.radius2
      library := Shader.helperLibrary } :=
  withFunctions_placed Shader.helperLibrary_placed rfl

theorem Command.orbit_pictureConfig {s : Settings} (sound : s.problems = [])
    (palette : Option Palette) :
    (Command.pictureConfig s palette).orbit =
      ⟨s.iterations, if s.radius2.isZero then OrbitConfig.default.radius2 else s.radius2⟩ := by
  obtain ⟨iterations, -⟩ := Settings.problems_eq_nil sound
  have nonzero : s.iterations ≠ 0 := by omega
  unfold PictureConfig.orbit
  exact congrArg (OrbitConfig.mk · _) (if_pos nonzero)

/-- What becomes of sound settings. The generator of programs has the iterations and the squared
radius of the settings. Where the radius is a NaN, or its square neither zero nor infinite, it
accepts every formula, and pictures are drawn by the fractal of just these iterations and this
squared radius. Where the square is zero, it accepts no formula, and pictures are drawn with the
default instead; where the square is infinite, it accepts every formula, and no picture is drawn. -/
theorem settings_reach_orbits {σ : Type} (s : Settings) (sound : s.problems = [])
    (palette : Option Palette) (f : Formula) (gauge : Gauge) (step : Iteration σ) :
    ∃ p, Command.generator s = .ok p ∧ p.iterations = s.iterations ∧ p.radius2 = s.radius2 ∧
      ((s.escapeRadius.isNaN = true ∨
          (2 ^ (-75 : ℤ) < s.escapeRadius.magnitude.value ∧
            s.escapeRadius.magnitude.value < 2 ^ (64 : ℤ))) →
        p.check (some f) = .ok f ∧
        orbitFractal? gauge (some step) (Command.pictureConfig s palette).orbit =
          .ok (orbitFractal gauge step ⟨s.iterations, s.radius2⟩)) ∧
      (s.escapeRadius.isNaN = false → s.escapeRadius.magnitude.value ≤ 2 ^ (-75 : ℤ) →
        p.check (some f) = .error .radius ∧
        orbitFractal? gauge (some step) (Command.pictureConfig s palette).orbit =
          .ok (orbitFractal gauge step ⟨s.iterations, OrbitConfig.default.radius2⟩)) ∧
      (s.escapeRadius.isNaN = false → 2 ^ (64 : ℤ) ≤ s.escapeRadius.magnitude.value →
        p.check (some f) = .ok f ∧
        orbitFractal? gauge (some step) (Command.pictureConfig s palette).orbit =
          .error .radius) := by
  obtain ⟨iterations, -⟩ := Settings.problems_eq_nil sound
  refine ⟨_, Command.generator_eq s, rfl, rfl, ?_, ?_, ?_⟩
  · intro used
    obtain ⟨nonzero, positive, finite⟩ := Settings.radius2_used sound used
    refine ⟨Shader.Generator.check_some (by show 0 < s.iterations; omega) positive, ?_⟩
    rw [Command.orbit_pictureConfig sound, nonzero]
    refine orbitFractal?_of_check gauge step ?_
    rw [OrbitConfig.check_of_pos iterations]
    simp [positive, finite]
  · intro number tiny
    obtain ⟨zero, nonpositive⟩ := Settings.radius2_tiny sound number tiny
    refine ⟨Shader.Generator.check_refused (by show 0 < s.iterations; omega) nonpositive, ?_⟩
    have sane : ¬ (OrbitConfig.default.radius2 ≤ 0 ∨ OrbitConfig.default.radius2.isInf) := by decide
    rw [Command.orbit_pictureConfig sound, zero]
    refine orbitFractal?_of_check gauge step ?_
    rw [OrbitConfig.check_of_pos iterations]
    exact if_neg sane
  · intro number huge
    obtain ⟨nonzero, positive, infinite⟩ := Settings.radius2_huge sound number huge
    refine ⟨Shader.Generator.check_some (by show 0 < s.iterations; omega) positive, ?_⟩
    rw [Command.orbit_pictureConfig sound, nonzero]
    refine orbitFractal?_of_refused gauge step ?_
    rw [OrbitConfig.check_of_pos iterations]
    simp [infinite]

/-- The formula `z`. -/
def Formula.standing : Formula :=
  ⟨"z", .z 0⟩

theorem default_settings_reach_orbits :
    Settings.default.problems = [] ∧ ∃ p, Command.generator .default = .ok p ∧ p.iterations = 100 ∧
      p.radius2 = 9 ∧
      orbitFractal? .single (some Formula.standing.iteration)
          (Command.pictureConfig .default none).orbit =
        .ok (orbitFractal .single Formula.standing.iteration ⟨100, 9⟩) := by
  have sound : Settings.default.problems = [] := by decide
  have square : Settings.default.radius2 = 9 := by decide
  have value : Settings.default.escapeRadius.magnitude.value = 3 := by
    show ((12582912 : Nat) : ℚ) * 2 ^ (-22 : ℤ) = 3
    norm_num
  obtain ⟨p, generated, iterations, radius, used, -⟩ := settings_reach_orbits .default sound none
    .standing .single Formula.standing.iteration
  rw [value] at used
  obtain ⟨-, drawn⟩ := used (.inr (by norm_num))
  rw [square] at radius drawn
  exact ⟨sound, p, generated, iterations, radius, drawn⟩

/-- A radius of `1e-23` is sound, but the picture is drawn with the default radius and no program is
written. -/
theorem tiny_radius_replaced :
    ({ Settings.default with escapeRadius := 1e-23 } : Settings).problems = [] ∧
      (Command.pictureConfig { Settings.default with escapeRadius := 1e-23 } none).orbit =
        OrbitConfig.default ∧
      ({ Settings.default with escapeRadius := 1e-23 } : Settings).radius2 ≠
        OrbitConfig.default.radius2 := by
  decide

end EscapeTime
