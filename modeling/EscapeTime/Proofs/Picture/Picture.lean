import EscapeTime.Picture.Render
import EscapeTime.Proofs.Number.Whole
import EscapeTime.Proofs.Picture.Rendering

/-!
# Pictures show orbits

`drawFormula_shows_orbits`: the picture of a formula shows at each pixel the color of the progress
of that pixel's own orbit. It is the same picture with a cache and without.
-/

namespace EscapeTime

namespace PictureConfig

/-- The colors of the picture. -/
def colors (c : PictureConfig) : Palette :=
  c.palette.getD Palette.viridis

/-- The image and the buffer of a row can be had: both have at most `2 ^ 48` bytes. -/
structure Fits (c : PictureConfig) : Prop where
  wide : 0 < c.width
  high : 0 < c.height
  pixels : 4 * c.width * c.height ≤ Nat.pow 2 48
  row : c.width ≤ Nat.pow 2 45

/-- The image shows at each pixel the color of `g` at the point of the pixel. -/
structure Shows (c : PictureConfig) (g : Point → Single) (img : Image) : Prop where
  bounds : img.bounds = ⟨0, 0, c.width, c.height⟩
  size : img.pixels.size = c.width.toNat * c.height.toNat
  pixels : ∀ k < c.width.toNat * c.height.toNat, img.pixels[k]? =
    some (c.colors (g (Renderer.pixelPoint c.viewport c.width.toNat c.height.toNat k)))

variable {c : PictureConfig} {g : Point → Single}

theorem Shows.unique {img img' : Image} (shows : c.Shows g img) (shows' : c.Shows g img') :
    img = img' := by
  have pixels : img.pixels = img'.pixels := by
    refine Array.ext (shows.size.trans shows'.size.symm) fun k inside inside' => ?_
    have isPixel : k < c.width.toNat * c.height.toNat := shows.size ▸ inside
    have same := (shows.pixels k isPixel).trans (shows'.pixels k isPixel).symm
    rwa [Array.getElem?_eq_getElem inside, Array.getElem?_eq_getElem inside',
      Option.some.injEq] at same
  cases img
  cases img'
  simp only [Image.mk.injEq]
  exact ⟨shows.bounds.trans shows'.bounds.symm, pixels⟩

theorem Fits.blank (fits : c.Fits) :
    ∃ img, Image.blank? ⟨0, 0, c.width, c.height⟩ = .ok img ∧
      img.bounds = ⟨0, 0, c.width, c.height⟩ ∧
      img.Framed c.width.toNat c.height.toNat := by
  have wide := fits.wide
  have high := fits.high
  have bytes : ((Nat.pow 2 48 : Nat) : Int) = 281474976710656 := rfl
  have halfWord : ((Nat.pow 2 63 : Nat) : Int) = 9223372036854775808 := rfl
  have wholeWord : ((Nat.pow 2 64 : Nat) : Int) = 18446744073709551616 := rfl
  have pixels := fits.pixels
  have lessWide : 4 * c.width * 1 ≤ 4 * c.width * c.height :=
    Int.mul_le_mul_of_nonneg_left (by omega) (by omega)
  have lessHigh : 1 * c.height ≤ 4 * c.width * c.height :=
    Int.mul_le_mul_of_nonneg_right (by omega) (by omega)
  have width : Number.word (c.width - 0) = c.width := by
    rw [Int.sub_zero]
    exact word_eq (by omega) (by omega)
  have height : Number.word (c.height - 0) = c.height := by
    rw [Int.sub_zero]
    exact word_eq (by omega) (by omega)
  refine ⟨⟨⟨0, 0, c.width, c.height⟩, Array.replicate (c.width * c.height).toNat default⟩,
    ?_, rfl, ?_⟩
  · simp only [Image.blank?, Rect.width, Rect.height, width, height]
    rw [if_neg (by omega), if_neg (by omega)]
  · refine ⟨?_, ?_, ?_, ?_, ?_⟩
    · show c.width = 0 + (c.width.toNat : Int)
      omega
    · show c.height = 0 + (c.height.toNat : Int)
      omega
    · show Number.word (c.width - 0) = (c.width.toNat : Int)
      omega
    · show Number.word (c.height - 0) = (c.height.toNat : Int)
      omega
    · rw [Array.size_replicate, Int.toNat_mul (by omega) (by omega)]

theorem drawFractal_shows {σ : Type} {F : Fractal σ} {ready : σ → ScratchSource → Prop} (s : σ)
    (fits : c.Fits) (unlabelled : c.label = "")
    (answers : F.Answers g ready (max 4096 c.width).toNat)
    (isReady : ready s (.pool (some .empty))) :
    ∃ s' img, drawFractal c F s = (s', .ok img) ∧ c.Shows g img := by
  have wide := fits.wide
  have high := fits.high
  have row := fits.row
  have most : ((Nat.pow 2 45 : Nat) : Int) = 35184372088832 := rfl
  have made : Renderer.new? (max 4096 c.width) (some c.colors) =
      .ok ⟨(max 4096 c.width).toNat, c.colors⟩ := by
    rw [Renderer.new?, if_neg (by omega), if_neg (by omega), Option.getD_some]
  obtain ⟨img, blank, bounds, framed⟩ := fits.blank
  obtain ⟨s', img', scratch', rendered, bounds', framed', pixels⟩ :=
    Renderer.render_answered ⟨(max 4096 c.width).toNat, c.colors⟩ answers c.viewport
      (by omega) (by omega) (by show c.width.toNat ≤ (max 4096 c.width).toNat; omega) framed isReady
  refine ⟨s', img', ?_, bounds'.trans bounds, framed'.size, pixels⟩
  have noLabel : c.label.isEmpty = true := by rw [unlabelled]; rfl
  unfold colors at made rendered
  unfold drawFractal
  simp only [made, blank, rendered, noLabel, if_true]

theorem Shows.get {img : Image} (shows : c.Shows g img) (fits : c.Fits) {x y : Int}
    (inRow : 0 ≤ x ∧ x < c.width) (inColumn : 0 ≤ y ∧ y < c.height) :
    img.get x y = c.colors (g (c.viewport.map (pixelCenter x y c.width c.height))) := by
  have width : (c.width.toNat : Int) = c.width := Int.toNat_of_nonneg (by omega)
  have height : (c.height.toNat : Int) = c.height := Int.toNat_of_nonneg (by omega)
  obtain ⟨i, rfl⟩ := Int.eq_ofNat_of_zero_le inRow.1
  obtain ⟨j, rfl⟩ := Int.eq_ofNat_of_zero_le inColumn.1
  have across : i < c.width.toNat := by omega
  have down : j < c.height.toNat := by omega
  have framed : img.Framed c.width.toNat c.height.toNat := by
    obtain ⟨blank, -, bounds, framed⟩ := fits.blank
    have same := bounds.trans shows.bounds.symm
    exact ⟨same ▸ framed.right, same ▸ framed.bottom, same ▸ framed.width, same ▸ framed.height,
      shows.size⟩
  have isPixel := Image.Framed.index_lt across down
  have pixel := framed.get across down
  rw [shows.pixels _ isPixel, shows.bounds, Option.some.injEq] at pixel
  have point : Renderer.pixelPoint c.viewport c.width.toNat c.height.toNat
      (j * c.width.toNat + i) = c.viewport.map (pixelCenter i j c.width c.height) := by
    have wide : 0 < c.width.toNat := by omega
    rw [Renderer.pixelPoint, Nat.mul_comm j, Nat.mul_add_mod, Nat.mod_eq_of_lt across,
      Nat.mul_add_div wide, Nat.div_eq_of_lt across, Nat.add_zero, width, height]
  rw [point] at pixel
  simpa using pixel

theorem Fits.cache (fits : c.Fits) :
    ∃ cache, Cache.new? (Number.word (c.width * c.height)) = .ok cache ∧ cache.Remembers g := by
  have some : 0 < c.width * c.height := Int.mul_pos fits.wide fits.high
  have bytes : ((Nat.pow 2 48 : Nat) : Int) = 281474976710656 := rfl
  have halfWord : ((Nat.pow 2 63 : Nat) : Int) = 9223372036854775808 := rfl
  have pixels := fits.pixels
  rw [Int.mul_assoc] at pixels
  have made : Cache.new? (Number.word (c.width * c.height)) =
      .ok ⟨∅, (c.width * c.height).toNat, 0, 0⟩ := by
    rw [word_eq (by omega) (by omega), Cache.new?, if_neg (by omega)]
  exact ⟨_, made, Cache.remembers_of_new? made⟩

/-- With a cache or without, the picture shows the progress of orbits. -/
theorem drawFormula_shows {f : Formula} {g : Point → Point}
    (value : f.root.value = .ok g) (plain : f.containsRawCode = false)
    (fits : c.Fits) (onCpu : c.useGpu = false) (unlabelled : c.label = "")
    (accepted : c.orbit.check = .ok ()) :
    ∃ img, (drawFormula (some f) c).2 = .ok img ∧
      c.Shows (orbitProgress .single g c.orbit) img := by
  have wide := fits.wide
  have high := fits.high
  have answers := orbitFractal_answers (Formula.iteration_pointwise plain value) .single c.orbit
    (max 4096 c.width).toNat
  have isReady : (ScratchSource.pool (some .empty)).Ready (max 4096 c.width).toNat := by
    have row := fits.row
    have most : Nat.pow 2 45 = 35184372088832 := rfl
    exact ready_empty (by show (max 4096 c.width).toNat ≤ Nat.pow 2 45; omega)
  have made : orbitFractal? .single (some f.iteration) c.orbit =
      .ok (orbitFractal .single f.iteration c.orbit) := by
    rw [orbitFractal?, accepted]
    rfl
  have positive : ¬ (c.width ≤ 0 ∨ c.height ≤ 0) := by omega
  unfold drawFormula
  simp only [if_neg positive, onCpu, plain, made, Bool.false_eq_true, if_false]
  cases c.enableCaching with
  | false =>
    obtain ⟨_, img, drawn, shows⟩ := drawFractal_shows () fits unlabelled answers isReady
    refine ⟨img, ?_, shows⟩
    simp only [drawn, Bool.false_eq_true, if_false]
  | true =>
    obtain ⟨cache, new, values⟩ := fits.cache (g := orbitProgress .single g c.orbit)
    obtain ⟨_, img, drawn, shows⟩ := drawFractal_shows (cache, ()) fits unlabelled
      (Cache.evaluate_answers answers) ⟨values, isReady⟩
    refine ⟨img, ?_, shows⟩
    simp only [new, drawn, if_true]

end PictureConfig

/-- A formula without raw code, drawn without graphics hardware and label in a size that fits, with
parameters that orbits can be followed with: both with and without a cache there is a picture, the
same one, and each of its pixels has the color of the progress that the fractal of the formula finds
for the point of that pixel alone. -/
theorem drawFormula_shows_orbits (source : String) (f : Formula)
    (parsed : Formula.parse source = .ok f) (plain : f.containsRawCode = false)
    (c : PictureConfig) (fits : c.Fits) (onCpu : c.useGpu = false) (unlabelled : c.label = "")
    (accepted : c.orbit.check = .ok ()) :
    ∃ fractal img, orbitFractal? .single (some f.iteration) c.orbit = .ok fractal ∧
      (∀ enableCaching, (drawFormula (some f) { c with enableCaching }).2 = .ok img) ∧
      img.bounds = ⟨0, 0, c.width, c.height⟩ ∧
      ∀ x y : Int, 0 ≤ x ∧ x < c.width → 0 ≤ y ∧ y < c.height →
        ∃ progress, img.get x y = c.palette.getD Palette.viridis progress ∧
          let alone :=
            fractal () [c.viewport.map (pixelCenter x y c.width c.height)] [0] .nothing
          alone.error = none ∧ alone.progress = [progress] := by
  obtain ⟨g, value⟩ := Formula.value_of_parse parsed plain
  have drawn : ∀ enableCaching, ∃ img,
      (drawFormula (some f) { c with enableCaching }).2 = .ok img ∧
        c.Shows (orbitProgress .single g c.orbit) img := by
    intro enableCaching
    obtain ⟨img, done, shows⟩ := PictureConfig.drawFormula_shows value plain
      (c := { c with enableCaching }) ⟨fits.wide, fits.high, fits.pixels, fits.row⟩ onCpu
      unlabelled accepted
    exact ⟨img, done, shows.bounds, shows.size, shows.pixels⟩
  obtain ⟨img, -, shows⟩ := drawn false
  refine ⟨orbitFractal .single f.iteration c.orbit, img, ?_, ?_, shows.bounds, ?_⟩
  · rw [orbitFractal?, accepted]
    rfl
  · intro enableCaching
    obtain ⟨img', done, shows'⟩ := drawn enableCaching
    rw [done, shows.unique shows']
  · intro x y inRow inColumn
    have pointwise := Formula.iteration_pointwise plain value
    obtain ⟨_, _, alone, -⟩ := orbitFractal_answers pointwise .single c.orbit 1 () .nothing
      [c.viewport.map (pixelCenter x y c.width c.height)] [0] (ready_nothing 1) rfl (Nat.le_refl 1)
    refine ⟨_, shows.get fits inRow inColumn, ?_⟩
    rw [alone]
    exact ⟨rfl, rfl⟩

/-- The formula `z^2`. -/
def Formula.square : Formula :=
  ⟨"z^2", .binary 1 .complex .pow (.z 0) (.ofReal 2 "2")⟩

theorem Formula.parse_square : Formula.parse "z^2" = .ok square := by
  have lexed : tokenize "z^2".toList =
      .ok [⟨.z, 0, "", false⟩, ⟨.op, 1, "^", false⟩, ⟨.number, 2, "2", false⟩] := by
    decide +kernel
  rw [Formula.parse, lexed]
  rfl

/-- Six pixels of the plane around the origin, with the usual parameters. -/
def PictureConfig.sixPixels : PictureConfig where
  width := 3
  height := 2
  zoom := 0
  offset := ⟨0, 0⟩
  iterations := 0
  radius2 := 0
  palette := some Palette.grayscale
  label := ""
  font := none
  useGpu := false
  enableCaching := true

open PictureConfig in
theorem sixPixels_show_orbits :
    Formula.parse "z^2" = .ok .square ∧ Formula.square.containsRawCode = false ∧
      sixPixels.Fits ∧ sixPixels.useGpu = false ∧ sixPixels.label = "" ∧
      sixPixels.orbit.check = .ok () ∧
    ∃ fractal img,
      orbitFractal? .single (some Formula.square.iteration) sixPixels.orbit = .ok fractal ∧
      (∀ enableCaching,
        (drawFormula (some .square) { sixPixels with enableCaching }).2 = .ok img) ∧
      img.bounds = ⟨0, 0, 3, 2⟩ ∧
      ∀ x y : Int, 0 ≤ x ∧ x < 3 → 0 ≤ y ∧ y < 2 →
        ∃ progress, img.get x y = Palette.grayscale progress ∧
          let alone := fractal () [sixPixels.viewport.map (pixelCenter x y 3 2)] [0] .nothing
          alone.error = none ∧ alone.progress = [progress] := by
  have fits : sixPixels.Fits := ⟨by decide, by decide, by decide, by decide⟩
  have accepted : sixPixels.orbit.check = .ok () := by decide +kernel
  exact ⟨Formula.parse_square, rfl, fits, rfl, rfl, accepted,
    drawFormula_shows_orbits "z^2" .square Formula.parse_square rfl sixPixels fits rfl rfl accepted⟩

/-- The same plane, one pixel wide and too high for its pixels to be had. -/
def PictureConfig.tooHigh : PictureConfig :=
  { sixPixels with width := 1, height := 140737488355328 }

open PictureConfig in
/-- That four bytes a pixel are a machine word is not enough for a picture. -/
theorem no_picture_tooHigh :
    Formula.parse "z^2" = .ok .square ∧ Formula.square.containsRawCode = false ∧
      0 < tooHigh.width ∧ 0 < tooHigh.height ∧
      4 * tooHigh.width * tooHigh.height < Nat.pow 2 63 ∧
      tooHigh.useGpu = false ∧ tooHigh.label = "" ∧ tooHigh.orbit.check = .ok () ∧
      (drawFormula (some .square) tooHigh).2 = .error (.render (.memory .badLength)) := by
  have accepted : tooHigh.orbit.check = .ok () := by decide +kernel
  refine ⟨Formula.parse_square, rfl, by decide, by decide, by decide, rfl, rfl, accepted, ?_⟩
  rfl

end EscapeTime
