import EscapeTime.Picture.Renderer
import EscapeTime.Proofs.Number.Whole
import EscapeTime.Proofs.Orbit.Pointwise

/-!
# Rendering in batches

The renderer sets the pixels of an image one after the other, batch after batch of rows from one
buffer. Whatever the size of the buffer, it goes through the pixels row by row and sets each of them
once, to the color of its own point. If the fractal fails, the pixels of the batches before are set
and no others.
-/

namespace EscapeTime

/-! ### Pixels -/

/-- The image is `w` wide and `h` high, has all its pixels, and its sides are machine words. -/
structure Image.Framed (img : Image) (w h : Nat) : Prop where
  right : img.bounds.maxX = img.bounds.minX + w
  bottom : img.bounds.maxY = img.bounds.minY + h
  width : img.bounds.width = w
  height : img.bounds.height = h
  size : img.pixels.size = w * h

namespace Image.Framed

variable {img : Image} {w h : Nat}

theorem index_lt {i j : Nat} (inRow : i < w) (inColumn : j < h) : j * w + i < w * h := by
  have : (j + 1) * w ≤ h * w := Nat.mul_le_mul_right w inColumn
  rw [Nat.mul_comm w h]
  rw [Nat.succ_mul] at this
  omega

theorem contains (framed : img.Framed w h) {i j : Nat} (inRow : i < w) (inColumn : j < h) :
    img.bounds.contains (img.bounds.minX + i) (img.bounds.minY + j) = true := by
  have right := framed.right
  have bottom := framed.bottom
  simp only [Rect.contains, Bool.and_eq_true, decide_eq_true_eq]
  omega

theorem index (framed : img.Framed w h) (i j : Nat) :
    img.index (img.bounds.minX + i) (img.bounds.minY + j) = j * w + i := by
  have across : img.bounds.minX + (i : Int) - img.bounds.minX = i := by omega
  have down : img.bounds.minY + (j : Int) - img.bounds.minY = j := by omega
  rw [Image.index, framed.width, across, down]
  omega

theorem get (framed : img.Framed w h) {i j : Nat} (inRow : i < w) (inColumn : j < h) :
    some (img.get (img.bounds.minX + i) (img.bounds.minY + j)) = img.pixels[j * w + i]? := by
  have inside := framed.size.symm ▸ index_lt inRow inColumn
  rw [Image.get, framed.contains inRow inColumn, if_pos rfl, framed.index,
    Array.getElem?_eq_getElem inside, Array.getD_eq_getD_getElem?, Array.getElem?_eq_getElem inside]
  rfl

theorem set (framed : img.Framed w h) {i j : Nat} (inRow : i < w) (inColumn : j < h) (c : Rgba) :
    img.set (img.bounds.minX + i) (img.bounds.minY + j) c =
      { img with pixels := img.pixels.setIfInBounds (j * w + i) c } := by
  rw [Image.set, framed.contains inRow inColumn, if_pos rfl, framed.index]

theorem setIfInBounds (framed : img.Framed w h) (k : Nat) (c : Rgba) :
    Framed { img with pixels := img.pixels.setIfInBounds k c } w h :=
  { framed with size := (Array.size_setIfInBounds ..).trans framed.size }

end Image.Framed

def Stroke.position (s : Stroke) : Int × Int :=
  (s.x, s.y)

/-- Where the fractal answers for `most` points at most, it answers each of them by `g`. -/
def Fractal.AnswersBy {σ : Type} (F : Fractal σ) (g : Point → Single) (most : Nat) : Prop :=
  ∀ s points progress scratch, bufferError? points progress = none → points.length ≤ most →
    (F s points progress scratch).error = none →
    (F s points progress scratch).progress = points.map g

namespace Renderer

variable {σ : Type}

/-! ### Batches -/

/-- The points of rows in the order of their pixels. -/
theorem rowPoints_eq {w h : Nat} (v : Viewport) (wide : 0 < w) (start count : Nat) :
    rowPoints v w h start count = (List.range (count * w)).map fun k =>
      v.map (pixelCenter (k % w : Nat) (start + k / w : Nat) w h) := by
  induction count with
  | zero => rw [Nat.zero_mul]; rfl
  | succ count ih =>
    have row : ∀ i ∈ List.range w, v.map (pixelCenter i (start + count : Nat) w h) =
        v.map (pixelCenter ((count * w + i) % w : Nat) (start + (count * w + i) / w : Nat) w h) := by
      intro i member
      have small := List.mem_range.mp member
      rw [Nat.mul_comm count w, Nat.mul_add_mod, Nat.mod_eq_of_lt small, Nat.mul_add_div wide,
        Nat.div_eq_of_lt small, Nat.add_zero]
    unfold rowPoints at ih ⊢
    rw [List.range_succ, List.flatMap_append, ih, Nat.succ_mul, List.range_add, List.map_append,
      List.map_map, List.flatMap_singleton, List.map_congr_left row]
    rfl

/-- The point that pixel number `k` shows, counted from the top left. -/
def pixelPoint (v : Viewport) (w h k : Nat) : Point :=
  v.map (pixelCenter (k % w : Nat) (k / w : Nat) w h)

section Batches

variable (r : Renderer) (F : Fractal σ) (v : Viewport) (w h : Nat)

/-- How many rows are evaluated at a time. -/
def rowsAtOnce : Nat :=
  r.bufferSize / w

def batchCount : Nat :=
  (h + r.rowsAtOnce w - 1) / r.rowsAtOnce w

/-- The points of batch `i`. -/
def batch (i : Nat) : List Point :=
  rowPoints v w h (i * r.rowsAtOnce w) (min (r.rowsAtOnce w) (h - i * r.rowsAtOnce w))

def evaluate (i : Nat) (p : σ × ScratchSource) : Evaluation σ :=
  F p.1 (r.batch v w h i) ((r.batch v w h i).map fun _ => 0) p.2

/-- The fractal and the scratch buffers before batch `i`. -/
def before (p : σ × ScratchSource) : Nat → σ × ScratchSource
  | 0 => p
  | i + 1 =>
    let e := r.evaluate F v w h i (before p i)
    (e.state, e.scratch)

/-- The evaluation of batch `i`, after those before it. -/
def evaluation (p : σ × ScratchSource) (i : Nat) : Evaluation σ :=
  r.evaluate F v w h i (r.before F v w h p i)

/-- Batch `i` is evaluated without an error, and `g` answers each of its points. -/
def Answered (g : Point → Single) (p : σ × ScratchSource) (i : Nat) : Prop :=
  (r.evaluation F v w h p i).error = none ∧
    (r.evaluation F v w h p i).progress = (r.batch v w h i).map g

/-- What is drawn at pixel number `k`, counted from the top left. -/
def stroke (g : Point → Single) (bounds : Rect) (k : Nat) : Stroke :=
  ⟨bounds.minX + (k % w : Nat), bounds.minY + (k / w : Nat), r.palette (g (pixelPoint v w h k))⟩

end Batches

section Rows

variable {κ : Type} (draw : κ → Stroke → κ) {r : Renderer} {F : Fractal σ} {g : Point → Single}
  {v : Viewport} {w h : Nat} {bounds : Rect}

theorem zipIdx_map_range {α : Type} (f : Nat → α) (n : Nat) :
    ((List.range n).map f).zipIdx = (List.range n).map fun k => (f k, k) := by
  rw [List.zipIdx_eq_zip_range', List.length_map, List.length_range, ← List.range_eq_range']
  conv_lhs => rw [← List.map_id (List.range n)]
  rw [List.map_id, ← List.zip_map']
  simp

/-- The answers for some rows are drawn as the strokes of their pixels. -/
theorem paintOn_answers (wide : 0 < w) (across : bounds.width.toNat = w) (start count : Nat)
    (canvas : κ) :
    paintOn draw r.palette bounds start canvas ((rowPoints v w h start count).map g) =
      ((List.range (count * w)).map fun k => r.stroke v w h g bounds (start * w + k)).foldl draw
        canvas := by
  have pixel (k : Nat) : r.stroke v w h g bounds (start * w + k) =
      ⟨bounds.minX + (k % w : Nat), bounds.minY + (start + k / w : Nat),
        r.palette (g (v.map (pixelCenter (k % w : Nat) (start + k / w : Nat) w h)))⟩ := by
    rw [stroke, pixelPoint, Nat.mul_comm start w, Nat.mul_add_mod, Nat.mul_add_div wide]
  unfold paintOn
  dsimp only
  rw [rowPoints_eq v wide, List.map_map, zipIdx_map_range, List.foldl_map, List.foldl_map, across]
  simp only [pixel]
  rfl

theorem length_batch (wide : 0 < w) (i : Nat) :
    (r.batch v w h i).length = min (r.rowsAtOnce w) (h - i * r.rowsAtOnce w) * w := by
  rw [batch, rowPoints_eq v wide, List.length_map, List.length_range]

theorem length_batch_le (wide : 0 < w) (i : Nat) : (r.batch v w h i).length ≤ r.bufferSize := by
  rw [length_batch wide]
  exact (Nat.mul_le_mul_right w (Nat.min_le_left _ _)).trans (Nat.div_mul_le_self _ _)

theorem rowsAtOnce_pos (wide : 0 < w) (narrow : w ≤ r.bufferSize) : 0 < r.rowsAtOnce w :=
  Nat.div_pos narrow wide

/-- The batches before the last one end inside the image, and all of them together reach its end. -/
theorem batchCount_spec (positive : 0 < r.rowsAtOnce w) :
    h ≤ r.batchCount w h * r.rowsAtOnce w ∧ ∀ i < r.batchCount w h, i * r.rowsAtOnce w < h := by
  have division := Nat.div_add_mod (h + r.rowsAtOnce w - 1) (r.rowsAtOnce w)
  have remainder := Nat.mod_lt (h + r.rowsAtOnce w - 1) positive
  rw [Nat.mul_comm] at division
  change r.batchCount w h * r.rowsAtOnce w + _ = _ at division
  refine ⟨by omega, fun i early => ?_⟩
  have next : (i + 1) * r.rowsAtOnce w ≤ r.batchCount w h * r.rowsAtOnce w :=
    Nat.mul_le_mul_right _ early
  rw [Nat.succ_mul] at next
  omega

/-- The number of a row that a batch starts at, or of the one behind the last batch, is a machine
word where the height leaves room for another batch. -/
theorem rowNumber_word (positive : 0 < r.rowsAtOnce w) (room : h + r.bufferSize / w ≤ Nat.pow 2 63)
    {i : Nat} (early : i ≤ r.batchCount w h) :
    Number.word (i * r.rowsAtOnce w : Nat) = (i * r.rowsAtOnce w : Nat) := by
  refine word_eq (Int.natCast_nonneg _) (Int.ofNat_lt.mpr (Nat.lt_of_lt_of_le ?_ room))
  cases i with
  | zero =>
    rw [Nat.zero_mul]
    exact Nat.lt_of_lt_of_le positive (Nat.le_add_left _ h)
  | succ i =>
    rw [Nat.succ_mul]
    exact Nat.add_lt_add_right ((batchCount_spec positive).2 i early) _

theorem batch_buffers (wide : 0 < w) (positive : 0 < r.rowsAtOnce w) {i : Nat}
    (inside : i * r.rowsAtOnce w < h) :
    bufferError? (r.batch v w h i) ((r.batch v w h i).map fun _ => 0) = none := by
  refine bufferError?_eq_none.mpr ⟨(List.length_map _).symm, List.ne_nil_of_length_pos ?_⟩
  rw [length_batch wide]
  exact Nat.mul_pos (by omega) wide

/-- One batch: its points are evaluated, and their answers are drawn. -/
theorem renderFromOn_batch (wide : 0 < w) (across : bounds.width.toNat = w)
    (down : bounds.height.toNat = h) {i : Nat} {p : σ × ScratchSource}
    (answered : r.Answered F v w h g p i) (more : Nat) (canvas : κ) :
    renderFromOn draw r F v bounds (r.rowsAtOnce w) (more + 1) (i * r.rowsAtOnce w)
        (r.before F v w h p i).1 canvas (r.before F v w h p i).2 =
      renderFromOn draw r F v bounds (r.rowsAtOnce w) more ((i + 1) * r.rowsAtOnce w)
        (r.before F v w h p (i + 1)).1
        (((List.range (min (r.rowsAtOnce w) (h - i * r.rowsAtOnce w) * w)).map fun k =>
          r.stroke v w h g bounds (i * r.rowsAtOnce w * w + k)).foldl draw canvas)
        (r.before F v w h p (i + 1)).2 := by
  have evaluated : F (r.before F v w h p i).1 (r.batch v w h i)
      ((r.batch v w h i).map fun _ => 0) (r.before F v w h p i).2 = r.evaluation F v w h p i :=
    rfl
  obtain ⟨done, progress⟩ := answered
  rw [renderFromOn, across, down, ← paintOn_answers draw wide across, Nat.succ_mul]
  unfold batch at evaluated progress
  simp only [evaluated, done, progress]
  rfl

/-- After the first batches, the strokes of their pixels are drawn. -/
theorem renderFromOn_after (wide : 0 < w) (across : bounds.width.toNat = w)
    (down : bounds.height.toNat = h) {p : σ × ScratchSource} {m : Nat}
    (inside : ∀ i < m, i * r.rowsAtOnce w < h) (answered : ∀ i < m, r.Answered F v w h g p i)
    (more : Nat) (canvas : κ) :
    renderFromOn draw r F v bounds (r.rowsAtOnce w) (m + more) 0 p.1 canvas p.2 =
      renderFromOn draw r F v bounds (r.rowsAtOnce w) more (m * r.rowsAtOnce w)
        (r.before F v w h p m).1
        (((List.range (min (m * r.rowsAtOnce w) h * w)).map (r.stroke v w h g bounds)).foldl draw
          canvas)
        (r.before F v w h p m).2 := by
  induction m generalizing more with
  | zero =>
    rw [Nat.zero_mul, Nat.zero_min, Nat.zero_mul, Nat.zero_add]
    rfl
  | succ m ih =>
    have here := inside m (Nat.lt_succ_self m)
    have earlier := ih (fun i early => inside i (Nat.lt_succ_of_lt early))
      (fun i early => answered i (Nat.lt_succ_of_lt early)) (more + 1)
    rw [Nat.add_assoc, Nat.add_comm 1 more, earlier,
      renderFromOn_batch draw wide across down (answered m (Nat.lt_succ_self m))]
    -- The last batch may be cut short by the end of the image.
    have whole : min ((m + 1) * r.rowsAtOnce w) h * w = m * r.rowsAtOnce w * w +
        min (r.rowsAtOnce w) (h - m * r.rowsAtOnce w) * w := by
      rw [← Nat.add_mul, Nat.succ_mul]
      congr 1
      omega
    rw [whole, Nat.min_eq_left here.le, List.range_add, List.map_append, List.foldl_append,
      List.map_map]
    rfl

theorem renderOn_eq (wide : 0 < w) (high : 0 < h) (narrow : w ≤ r.bufferSize)
    (across : bounds.width.toNat = w) (down : bounds.height.toNat = h) (p : σ × ScratchSource)
    (canvas : κ) :
    r.renderOn draw F p.1 v bounds canvas p.2 =
      renderFromOn draw r F v bounds (r.rowsAtOnce w) (r.batchCount w h) 0 p.1 canvas p.2 := by
  have full : ¬bounds.isEmpty = true := by
    rw [Rect.isEmpty, Bool.or_eq_true, beq_iff_eq, beq_iff_eq]
    omega
  unfold renderOn
  rw [if_neg full, across, down, if_neg (Nat.not_lt.mpr narrow)]
  rfl

/-- Without an error all pixels are drawn, row by row. -/
theorem renderOn_done (wide : 0 < w) (high : 0 < h) (narrow : w ≤ r.bufferSize)
    (across : bounds.width.toNat = w) (down : bounds.height.toNat = h) {p : σ × ScratchSource}
    (answered : ∀ i < r.batchCount w h, r.Answered F v w h g p i) (canvas : κ) :
    r.renderOn draw F p.1 v bounds canvas p.2 =
      ⟨(r.before F v w h p (r.batchCount w h)).1,
        ((List.range (h * w)).map (r.stroke v w h g bounds)).foldl draw canvas,
        (r.before F v w h p (r.batchCount w h)).2, none⟩ := by
  obtain ⟨reach, inside⟩ := batchCount_spec (rowsAtOnce_pos wide narrow)
  have after := renderFromOn_after draw wide across down inside answered 0 canvas
  rw [Nat.add_zero, Nat.min_eq_right reach] at after
  rw [renderOn_eq draw wide high narrow across down, after]
  rfl

/-- An error of batch `k` stops the rendering when the rows before it are drawn. -/
theorem renderOn_failed (wide : 0 < w) (high : 0 < h) (narrow : w ≤ r.bufferSize)
    (across : bounds.width.toNat = w) (down : bounds.height.toNat = h) {p : σ × ScratchSource}
    {k : Nat} (early : k < r.batchCount w h) (answered : ∀ i < k, r.Answered F v w h g p i)
    {e : EvalError} (failed : (r.evaluation F v w h p k).error = some e) (canvas : κ) :
    r.renderOn draw F p.1 v bounds canvas p.2 =
      ⟨(r.evaluation F v w h p k).state,
        ((List.range (k * r.rowsAtOnce w * w)).map (r.stroke v w h g bounds)).foldl draw canvas,
        (r.evaluation F v w h p k).scratch, some (.evaluation e)⟩ := by
  obtain ⟨-, inside⟩ := batchCount_spec (rowsAtOnce_pos wide narrow)
  obtain ⟨more, count⟩ : ∃ more, r.batchCount w h = k + (more + 1) :=
    ⟨r.batchCount w h - k - 1, by omega⟩
  have after := renderFromOn_after draw wide across down
    (fun i before => inside i (before.trans early)) answered (more + 1) canvas
  rw [Nat.min_eq_left (inside k early).le] at after
  rw [renderOn_eq draw wide high narrow across down, count, after, renderFromOn, across, down]
  have evaluated : F (r.before F v w h p k).1 (r.batch v w h k)
      ((r.batch v w h k).map fun _ => 0) (r.before F v w h p k).2 = r.evaluation F v w h p k :=
    rfl
  unfold batch at evaluated
  simp only [evaluated, failed]

end Rows

/-! ### Pixels after strokes -/

section Image

variable {r : Renderer} {F : Fractal σ} {g : Point → Single} {v : Viewport} {w h : Nat}
  {img : Image}

theorem toNat_bounds (framed : img.Framed w h) :
    img.bounds.width.toNat = w ∧ img.bounds.height.toNat = h := by
  rw [framed.width, framed.height]
  exact ⟨rfl, rfl⟩

/-- The strokes of the first pixels change these pixels and no others. -/
theorem foldl_draw (framed : img.Framed w h) (wide : 0 < w) {n : Nat} (fits : n ≤ h * w) :
    ∃ img', ((List.range n).map (r.stroke v w h g img.bounds)).foldl Image.draw img = img' ∧
      img'.bounds = img.bounds ∧ img'.Framed w h ∧
      ∀ k, img'.pixels[k]? =
        if k < n then some (r.palette (g (pixelPoint v w h k))) else img.pixels[k]? := by
  induction n with
  | zero => exact ⟨img, rfl, rfl, framed, fun k => by simp⟩
  | succ n ih =>
    obtain ⟨before, drawn, bounds, framed', pixels⟩ := ih (by omega)
    have inRow : n % w < w := Nat.mod_lt n wide
    have inColumn : n / w < h := (Nat.div_lt_iff_lt_mul wide).mpr (by omega)
    have position : n / w * w + n % w = n := Nat.div_add_mod' n w
    have next : before.draw (r.stroke v w h g img.bounds n) =
        { before with
          pixels := before.pixels.setIfInBounds n (r.palette (g (pixelPoint v w h n))) } := by
      rw [Image.draw, stroke, ← bounds]
      dsimp only
      rw [framed'.set inRow inColumn, position]
    have inside : n < before.pixels.size := by
      rw [framed'.size, Nat.mul_comm]
      omega
    refine ⟨before.draw (r.stroke v w h g img.bounds n), ?_, ?_⟩
    · rw [List.range_succ, List.map_append, List.foldl_append, drawn]
      rfl
    rw [next]
    refine ⟨bounds, framed'.setIfInBounds n _, fun k => ?_⟩
    rw [Array.getElem?_setIfInBounds]
    by_cases here : n = k
    · subst here
      rw [if_pos rfl, if_pos inside, if_pos (Nat.lt_succ_self n)]
    · rw [if_neg here, pixels k]
      by_cases earlier : k < n
      · rw [if_pos earlier, if_pos (by omega)]
      · rw [if_neg earlier, if_neg (by omega)]

/-- A fractal that answers can be called for batch after batch. -/
theorem evaluation_answers {ready : σ → ScratchSource → Prop}
    (answers : F.Answers g ready r.bufferSize) (wide : 0 < w) (positive : 0 < r.rowsAtOnce w)
    {p : σ × ScratchSource} (isReady : ready p.1 p.2) {i : Nat}
    (inside : ∀ j ≤ i, j * r.rowsAtOnce w < h) :
    ∃ s' scratch', r.evaluation F v w h p i = ⟨s', (r.batch v w h i).map g, scratch', none⟩ ∧
      ready s' scratch' := by
  have here := inside i (Nat.le_refl i)
  induction i with
  | zero =>
    exact answers _ _ _ _ isReady (batch_buffers wide positive here) (length_batch_le wide 0)
  | succ i ih =>
    have early : ∀ j ≤ i, j * r.rowsAtOnce w < h := fun j le => inside j (Nat.le_succ_of_le le)
    obtain ⟨s', scratch', evaluated, isReady'⟩ := ih early (early i (Nat.le_refl i))
    have ready' : ready (r.before F v w h p (i + 1)).1 (r.before F v w h p (i + 1)).2 := by
      show ready (r.evaluation F v w h p i).state (r.evaluation F v w h p i).scratch
      rw [evaluated]
      exact isReady'
    exact answers _ _ _ _ ready' (batch_buffers wide positive here) (length_batch_le wide (i + 1))

theorem render_answered (r : Renderer) {F : Fractal σ} {g : Point → Single}
    {ready : σ → ScratchSource → Prop} (answers : F.Answers g ready r.bufferSize) (v : Viewport)
    (wide : 0 < w) (high : 0 < h) (narrow : w ≤ r.bufferSize) {s : σ} {img : Image}
    {scratch : ScratchSource} (framed : img.Framed w h) (isReady : ready s scratch) :
    ∃ s' img' scratch', r.render F s v img scratch = ⟨s', img', scratch', none⟩ ∧
      img'.bounds = img.bounds ∧ img'.Framed w h ∧
      ∀ k < w * h, img'.pixels[k]? = some (r.palette (g (pixelPoint v w h k))) := by
  obtain ⟨across, down⟩ := toNat_bounds framed
  have positive := rowsAtOnce_pos wide narrow
  obtain ⟨-, inside⟩ := batchCount_spec (h := h) positive
  have answered : ∀ i < r.batchCount w h, r.Answered F v w h g (s, scratch) i := by
    intro i early
    obtain ⟨s', scratch', evaluated, -⟩ := evaluation_answers (v := v) answers wide positive
      (p := (s, scratch)) isReady fun j before => inside j (before.trans_lt early)
    rw [Answered, evaluated]
    exact ⟨rfl, rfl⟩
  obtain ⟨img', drawn, bounds, framed', pixels⟩ :=
    foldl_draw (r := r) (g := g) (v := v) framed wide (Nat.le_refl (h * w))
  have rendered := renderOn_done Image.draw wide high narrow across down answered img
  rw [drawn] at rendered
  refine ⟨_, img', _, rendered, bounds, framed', ?_⟩
  intro k isPixel
  rw [pixels k, if_pos (by rwa [Nat.mul_comm])]

end Image

/-! ### What is drawn -/

/-- The strokes of a rendering, in their order. -/
def strokes (r : Renderer) (F : Fractal σ) (s : σ) (v : Viewport) (bounds : Rect)
    (scratch : ScratchSource) : List Stroke :=
  (r.renderOn (fun drawn stroke => drawn ++ [stroke]) F s v bounds [] scratch).image

/-- Rendering an image `w` wide and `h` high ends with `error` when `count` rows are drawn: each of
their pixels is set once, to the color of `g` at its own point, and no other pixel is set. -/
structure Draws (r : Renderer) (F : Fractal σ) (s : σ) (v : Viewport) (img : Image)
    (scratch : ScratchSource) (g : Point → Single) (w h count : Nat)
    (error : Option RenderError) : Prop where
  error : (r.render F s v img scratch).error = error
  bounds : (r.render F s v img scratch).image.bounds = img.bounds
  image : (r.render F s v img scratch).image =
    (r.strokes F s v img.bounds scratch).foldl Image.draw img
  once : ((r.strokes F s v img.bounds scratch).map Stroke.position).Nodup
  exactly : ∀ stroke, stroke ∈ r.strokes F s v img.bounds scratch ↔
    ∃ x < w, ∃ y < count, stroke = ⟨img.bounds.minX + x, img.bounds.minY + y,
      r.palette (g (v.map (pixelCenter x y w h)))⟩
  shown : ∀ x < w, ∀ y < h,
    (r.render F s v img scratch).image.get (img.bounds.minX + x) (img.bounds.minY + y) =
      if y < count then r.palette (g (v.map (pixelCenter x y w h)))
      else img.get (img.bounds.minX + x) (img.bounds.minY + y)

section Drawn

variable {r : Renderer} {F : Fractal σ} {g : Point → Single} {v : Viewport} {w h : Nat}

theorem stroke_pixel (bounds : Rect) {x : Nat} (inRow : x < w) (y : Nat) :
    r.stroke v w h g bounds (y * w + x) = ⟨bounds.minX + x, bounds.minY + y,
      r.palette (g (v.map (pixelCenter x y w h)))⟩ := by
  have wide := Nat.zero_lt_of_lt inRow
  rw [stroke, pixelPoint, Nat.mul_comm y w, Nat.mul_add_mod, Nat.mod_eq_of_lt inRow,
    Nat.mul_add_div wide, Nat.div_eq_of_lt inRow, Nat.add_zero]

theorem index_lt_iff {x y count : Nat} (inRow : x < w) : y * w + x < count * w ↔ y < count := by
  constructor
  · intro before
    exact Nat.lt_of_mul_lt_mul_right (Nat.lt_of_le_of_lt (Nat.le_add_right _ x) before)
  · intro before
    have := Image.Framed.index_lt inRow before
    rwa [Nat.mul_comm w] at this

theorem stroke_position_inj {bounds : Rect} {i j : Nat}
    (same : (r.stroke v w h g bounds i).position = (r.stroke v w h g bounds j).position) :
    i = j := by
  obtain ⟨across, down⟩ := Prod.mk.inj same
  simp only [stroke] at across down
  rw [← Nat.div_add_mod' i w, ← Nat.div_add_mod' j w]
  have column : i % w = j % w := by omega
  have row : i / w = j / w := by omega
  rw [column, row]

/-- A rendering that draws the strokes of the first `count` rows on any canvas. -/
theorem draws_rows {s : σ} {img : Image} {scratch : ScratchSource} (framed : img.Framed w h)
    (wide : 0 < w) {count : Nat} (fits : count ≤ h) {error : Option RenderError}
    (rendered : ∀ {κ : Type} (draw : κ → Stroke → κ) (canvas : κ), ∃ s' scratch',
      r.renderOn draw F s v img.bounds canvas scratch =
        ⟨s', ((List.range (count * w)).map (r.stroke v w h g img.bounds)).foldl draw canvas,
          scratch', error⟩) :
    r.Draws F s v img scratch g w h count error := by
  -- The image and the list of strokes are two canvases of one rendering.
  obtain ⟨s', scratch', onImage⟩ := rendered Image.draw img
  obtain ⟨s₁, scratch₁, listed⟩ := rendered (fun drawn stroke => drawn ++ [stroke]) []
  have strokes_eq : r.strokes F s v img.bounds scratch =
      (List.range (count * w)).map (r.stroke v w h g img.bounds) := by
    rw [strokes, listed]
    dsimp only
    rw [List.foldl_append_eq_append, List.nil_append, ← List.flatMap_def, List.flatMap_singleton']
  have asImage : r.render F s v img scratch = _ := onImage
  obtain ⟨img', drawn, bounds, framed', pixels⟩ :=
    foldl_draw (r := r) (g := g) (v := v) framed wide (Nat.mul_le_mul_right w fits)
  rw [drawn] at asImage
  constructor
  case error => rw [asImage]
  case bounds => rw [asImage]; exact bounds
  case image => rw [asImage, strokes_eq, drawn]
  case once =>
    rw [strokes_eq, List.map_map]
    exact List.nodup_range.map_on fun i _ j _ same => stroke_position_inj same
  case exactly =>
    intro stroke
    rw [strokes_eq, List.mem_map]
    constructor
    · rintro ⟨k, member, rfl⟩
      have inRow := Nat.mod_lt k wide
      have inRows : k / w < count := Nat.div_lt_of_lt_mul <| by
        rw [Nat.mul_comm]
        exact List.mem_range.mp member
      exact ⟨k % w, inRow, k / w, inRows, rfl⟩
    · rintro ⟨x, inRow, y, inRows, rfl⟩
      exact ⟨y * w + x, List.mem_range.mpr ((index_lt_iff inRow).mpr inRows),
        stroke_pixel img.bounds inRow y⟩
  case shown =>
    intro x inRow y inColumn
    apply Option.some.inj
    have here := framed'.get inRow inColumn
    rw [bounds] at here
    rw [asImage]
    refine here.trans ?_
    rw [pixels]
    by_cases inRows : y < count
    · have color := congrArg Stroke.color (stroke_pixel (r := r) (g := g) (v := v) (h := h)
        img.bounds inRow y)
      rw [if_pos ((index_lt_iff inRow).mpr inRows), if_pos inRows]
      exact congrArg some color
    · rw [if_neg (mt (index_lt_iff inRow).mp inRows), if_neg inRows]
      exact (framed.get inRow inColumn).symm

theorem answered_of_answersBy (answers : F.AnswersBy g r.bufferSize) (wide : 0 < w)
    (positive : 0 < r.rowsAtOnce w) {p : σ × ScratchSource} {i : Nat}
    (inside : i * r.rowsAtOnce w < h) (done : (r.evaluation F v w h p i).error = none) :
    r.Answered F v w h g p i :=
  ⟨done, answers _ _ _ _ (batch_buffers wide positive inside) (length_batch_le wide i) done⟩

/-- The points of a batch, in the order of the pixels of its rows. -/
theorem batch_getElem? {i x y : Nat} (inRow : x < w)
    (inRows : y < min (r.rowsAtOnce w) (h - i * r.rowsAtOnce w)) :
    (r.batch v w h i)[y * w + x]? =
      some (v.map (pixelCenter x (i * r.rowsAtOnce w + y : Nat) w h)) := by
  have wide := Nat.zero_lt_of_lt inRow
  rw [batch, rowPoints_eq v wide, List.getElem?_map,
    List.getElem?_range ((index_lt_iff inRow).mpr inRows), Option.map_some, Nat.mul_comm y w,
    Nat.mul_add_mod, Nat.mod_eq_of_lt inRow, Nat.mul_add_div wide, Nat.div_eq_of_lt inRow,
    Nat.add_zero]

/-- Rendering does not depend on its batches, of `bufferSize / w` rows each. A batch fits the buffer
and has the points of its own rows. If no batch fails, all rows are drawn. If batch `k` is the first
that fails, rendering ends with its error, and the rows of the batches before it are drawn. Rows can
be counted in machine words if the height is not within a batch of their end. -/
theorem rendering_by_batches (r : Renderer) (answers : F.AnswersBy g r.bufferSize) {img : Image}
    (framed : img.Framed w h) (wide : 0 < w) (high : 0 < h) (narrow : w ≤ r.bufferSize) (s : σ)
    (v : Viewport) (scratch : ScratchSource) :
    (∀ i < r.batchCount w h, (r.batch v w h i).length ≤ r.bufferSize ∧
      ∀ x < w, ∀ y < min (r.rowsAtOnce w) (h - i * r.rowsAtOnce w),
        (r.batch v w h i)[y * w + x]? =
          some (v.map (pixelCenter x (i * r.rowsAtOnce w + y : Nat) w h))) ∧
    ((∀ i < r.batchCount w h, (r.evaluation F v w h (s, scratch) i).error = none) →
      r.Draws F s v img scratch g w h h none) ∧
    (∀ k < r.batchCount w h, ∀ e,
      (∀ i < k, (r.evaluation F v w h (s, scratch) i).error = none) →
      (r.evaluation F v w h (s, scratch) k).error = some e →
      k * (r.bufferSize / w) < h ∧
        r.Draws F s v img scratch g w h (k * (r.bufferSize / w)) (some (.evaluation e))) ∧
    (h + r.bufferSize / w ≤ Nat.pow 2 63 → ∀ i ≤ r.batchCount w h,
      Number.word (i * r.rowsAtOnce w : Nat) = (i * r.rowsAtOnce w : Nat)) := by
  obtain ⟨across, down⟩ := toNat_bounds framed
  have positive := rowsAtOnce_pos wide narrow
  obtain ⟨-, inside⟩ := batchCount_spec (h := h) positive
  refine ⟨fun i _ => ⟨length_batch_le wide i, fun x inRow y inRows =>
    batch_getElem? inRow inRows⟩, fun done => ?_, fun k early e done failed => ?_, ?_⟩
  · have answered : ∀ i < r.batchCount w h, r.Answered F v w h g (s, scratch) i :=
      fun i last => answered_of_answersBy answers wide positive (inside i last) (done i last)
    exact draws_rows framed wide (Nat.le_refl h) fun draw canvas =>
      ⟨_, _, renderOn_done draw wide high narrow across down answered canvas⟩
  · have answered : ∀ i < k, r.Answered F v w h g (s, scratch) i := fun i before =>
      answered_of_answersBy answers wide positive (inside i (before.trans early)) (done i before)
    exact ⟨inside k early, draws_rows framed wide (inside k early).le fun draw canvas =>
      ⟨_, _, renderOn_failed draw wide high narrow across down early answered failed canvas⟩⟩
  · exact fun room i early => rowNumber_word positive room early

end Drawn

/-- A fractal of the horizontal positions, which counts its calls and refuses them after `most`. -/
def tiring (most : Nat) : Fractal Nat := fun calls points _ scratch =>
  if calls < most then ⟨calls + 1, points.map (·.x), scratch, none⟩
  else ⟨calls, [], scratch, some (.stated "tired")⟩

theorem tiring_answers (most length : Nat) : (tiring most).AnswersBy (·.x) length := by
  intro calls points progress scratch _ _ done
  unfold tiring at done ⊢
  split at done
  · rename_i early
    rw [if_pos early]
  · cases done

/-- An image of five rows, which does not start at the origin. -/
def fiveRows : Image :=
  ⟨⟨-5, 7, 55, 12⟩, Array.replicate 300 default⟩

/-- Two rows fit the buffer: five rows take three batches, and without the last one four rows are
drawn. -/
theorem tiring_draws_rows :
    (∀ most, (tiring most).AnswersBy (·.x) 130) ∧ fiveRows.Framed 60 5 ∧
      Draws ⟨130, .grayscale⟩ (tiring 3) 0 ⟨0, ⟨0, 0⟩, 1⟩ fiveRows .nothing (·.x) 60 5 5 none ∧
      Draws ⟨130, .grayscale⟩ (tiring 2) 0 ⟨0, ⟨0, 0⟩, 1⟩ fiveRows .nothing (·.x) 60 5 4
        (some (.evaluation (.stated "tired"))) := by
  have framed : fiveRows.Framed 60 5 := ⟨rfl, rfl, rfl, rfl, Array.size_replicate⟩
  have drawn (most : Nat) := rendering_by_batches ⟨130, .grayscale⟩ (tiring_answers most 130) framed
    (by decide) (by decide) (by decide) 0 ⟨0, ⟨0, 0⟩, 1⟩ .nothing
  refine ⟨fun most => tiring_answers most 130, framed, (drawn 3).2.1 ?_,
    ((drawn 2).2.2.1 2 (by decide) _ ?_ rfl).2⟩
  · intro i early
    match i, early with
    | 0, _ => rfl
    | 1, _ => rfl
    | 2, _ => rfl
  · intro i early
    match i, early with
    | 0, _ => rfl
    | 1, _ => rfl

end Renderer

end EscapeTime
