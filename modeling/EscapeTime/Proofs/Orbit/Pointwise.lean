import EscapeTime.Proofs.Formula.Safety
import EscapeTime.Proofs.Orbit.Cache
import EscapeTime.Proofs.Orbit.Pool
import Mathlib.Logic.Function.Iterate

/-!
# Points are answered one by one

A fractal that follows orbits gives each point of a batch the progress of its own orbit, whatever
the batch, and leaves the scratch pool as free as it found it. A cache in front of it answers alike.
-/

namespace EscapeTime

/-! ### Orbits -/

/-- How often the next `n` points of the orbit of `z` lie within the radius, added to `count`. -/
def orbitCount (gauge : Gauge) (g : Point → Point) (radius2 : Single) :
    (n : Nat) → Point → Single → Single
  | 0, _, count => count
  | n + 1, z, count =>
    orbitCount gauge g radius2 n (g z) (if gauge.norm2 (g z) < radius2 then count + 1 else count)

/-- The progress of the orbit of `p` under `g`. -/
def orbitProgress (gauge : Gauge) (g : Point → Point) (c : OrbitConfig) (p : Point) : Single :=
  gauge.progress (orbitCount gauge g c.radius2 c.iterations.toNat p 0) c.iterations

/-- The iteration acts on each point by `g`, whatever its state, and takes no scratch buffers. -/
def Iteration.Pointwise {σ : Type} (s : Iteration σ) (g : Point → Point) : Prop :=
  ∀ state z scratch, ∃ state', s state z scratch = ⟨state', z.map g, scratch, none⟩

section Orbits

variable {gauge : Gauge} {g : Point → Point}

theorem zipWith_orbitCount_zero (radius2 : Single) {z : List Point} {counts : List Single}
    (same : z.length = counts.length) :
    List.zipWith (orbitCount gauge g radius2 0) z counts = counts := by
  induction z generalizing counts with
  | nil => exact (List.length_eq_zero_iff.mp same.symm).symm
  | cons p z ih =>
    cases counts with
    | nil => cases same
    | cons count counts => exact congrArg (List.cons count) (ih (Nat.succ.inj same))

theorem zipWith_orbitCount_succ (radius2 : Single) (n : Nat) (z : List Point)
    (counts : List Single) :
    List.zipWith (orbitCount gauge g radius2 (n + 1)) z counts =
      List.zipWith (orbitCount gauge g radius2 n) (z.map g)
        (gauge.countWithin radius2 (z.map g) counts) := by
  induction z generalizing counts with
  | nil => rfl
  | cons p z ih =>
    cases counts with
    | nil => rfl
    | cons count counts => exact congrArg (List.cons _) (ih counts)

variable {σ : Type} {s : Iteration σ}

variable (gauge) in
theorem iterate_pointwise (pointwise : s.Pointwise g) (radius2 : Single) (n i : Nat) (state : σ)
    {z : List Point} {counts : List Single} (same : z.length = counts.length)
    (scratch : ScratchSource) :
    ∃ state', iterate gauge s radius2 n i state z counts scratch =
      ⟨state', z.map g^[n], List.zipWith (orbitCount gauge g radius2 n) z counts, scratch,
        none⟩ := by
  induction n generalizing i state z counts with
  | zero =>
    refine ⟨state, ?_⟩
    rw [iterate, zipWith_orbitCount_zero radius2 same, Function.iterate_zero, List.map_id]
  | succ n ih =>
    have length : (z.map g).length = (gauge.countWithin radius2 (z.map g) counts).length := by
      simp [Gauge.countWithin, same]
    obtain ⟨next, stepped⟩ := pointwise state z scratch
    obtain ⟨last, followed⟩ := ih (i + 1) next length
    refine ⟨last, ?_⟩
    rw [iterate, stepped]
    dsimp only
    rw [followed, zipWith_orbitCount_succ, List.map_map, Function.iterate_succ]

variable (gauge) in
theorem followOrbits_pointwise (pointwise : s.Pointwise g) (c : OrbitConfig) (state : σ)
    (points : List Point) (scratch : ScratchSource) :
    ∃ state', followOrbits gauge s c state points scratch =
      ⟨state', points.map g^[c.iterations.toNat], points.map (orbitProgress gauge g c), scratch,
        none⟩ := by
  have counts : List.zipWith (orbitCount gauge g c.radius2 c.iterations.toNat) points
      (points.map fun _ => 0) =
      points.map fun p => orbitCount gauge g c.radius2 c.iterations.toNat p 0 := by
    rw [List.zipWith_map_right, List.zipWith_self]
  have same : points.length = (points.map fun _ => (0 : Single)).length := (List.length_map _).symm
  obtain ⟨state', followed⟩ :=
    iterate_pointwise gauge pointwise c.radius2 c.iterations.toNat 0 state same scratch
  refine ⟨state', ?_⟩
  rw [followOrbits, followed, counts]
  simp only [List.map_map]
  rfl

end Orbits

/-! ### Answers -/

/-- The scratch buffers of the source, if it has any, are all free, and there can be one of `most`
points. -/
def ScratchSource.Ready (most : Nat) (scratch : ScratchSource) : Prop :=
  ∀ pool, scratch.find = .ok pool →
    ∃ w : Lending Point, w.Sound ∧ w.held = [] ∧ w.pool = pool.points ∧ most ≤ w.pool.limit

/-- Called on one point or more, but at most `most`, the fractal stores `g p` for each point `p`,
and it can be called again. -/
def Fractal.Answers {σ : Type} (F : Fractal σ) (g : Point → Single)
    (ready : σ → ScratchSource → Prop) (most : Nat) : Prop :=
  ∀ s scratch points progress, ready s scratch → bufferError? points progress = none →
    points.length ≤ most → ∃ s' scratch',
      F s points progress scratch = ⟨s', points.map g, scratch', none⟩ ∧ ready s' scratch'

theorem bufferError?_eq_none {points : List Point} {progress : List Single} :
    bufferError? points progress = none ↔ points.length = progress.length ∧ points ≠ [] := by
  unfold bufferError?
  split
  · rename_i differ
    exact ⟨fun failed => absurd failed (Option.some_ne_none _), fun same => absurd same.1 differ⟩
  · rename_i same
    split
    · rename_i empty
      exact ⟨fun failed => absurd failed (Option.some_ne_none _),
        fun some => absurd (List.isEmpty_iff.mp empty) some.2⟩
    · rename_i some
      exact ⟨fun _ => ⟨not_not.mp same, fun empty => some (List.isEmpty_iff.mpr empty)⟩,
        fun _ => rfl⟩

theorem ScratchSource.find_update {scratch : ScratchSource} {pool : ScratchPool}
    (found : scratch.find = .ok pool) (pool' : ScratchPool) :
    (scratch.update pool').find = .ok pool' := by
  unfold find at found
  split at found
  · rfl
  · rfl
  all_goals cases found

theorem ScratchSource.update_update (scratch : ScratchSource) (pool pool' : ScratchPool) :
    (scratch.update pool).update pool' = scratch.update pool' := by
  obtain _ | (_ | _) | (_ | _) | _ := scratch <;> rfl

theorem ScratchSource.release_update {scratch : ScratchSource} {pool : ScratchPool}
    (found : scratch.find = .ok pool) {b : Buffer Point} {lent points : BufferPool Point}
    {fault : Option PoolFault} (released : lent.release b = (points, fault)) :
    (scratch.update { pool with points := lent }).release b =
      (scratch.update { pool with points }, fault) := by
  unfold release
  rw [find_update found]
  dsimp only
  rw [released, update_update]

theorem orbitFractal_answers {σ : Type} {s : Iteration σ} {g : Point → Point}
    (pointwise : s.Pointwise g) (gauge : Gauge) (c : OrbitConfig) (most : Nat) :
    (orbitFractal gauge s c).Answers (orbitProgress gauge g c)
      (fun _ scratch => scratch.Ready most) most := by
  intro state scratch points progress ready buffers few
  unfold orbitFractal
  simp only [buffers]
  cases found : scratch.find with
  | error e =>
    obtain ⟨state', orbits⟩ := followOrbits_pointwise gauge pointwise c state points scratch
    refine ⟨state', scratch, ?_, ready⟩
    simp only [orbits]
  | ok pool =>
    obtain ⟨w, sound, nothing, same, large⟩ := ready pool found
    have some : 0 < points.length := List.length_pos_iff.mpr (bufferError?_eq_none.mp buffers).2
    obtain ⟨held, b, acquired, givenBack⟩ := sound.borrow nothing some (few.trans large)
    obtain ⟨w', released, sound', nothing', limit⟩ :=
      givenBack (points.map g^[c.iterations.toNat]) (List.length_map _)
    rw [same] at acquired
    obtain ⟨state', orbits⟩ := followOrbits_pointwise gauge pointwise c state points
      (scratch.update { pool with points := held })
    refine ⟨state', scratch.update { pool with points := w'.pool }, ?_, ?_⟩
    · simp only [acquired, orbits, ScratchSource.release_update found released]
    · intro pool' found'
      rw [ScratchSource.find_update found] at found'
      cases found'
      exact ⟨w', sound', nothing', rfl, limit ▸ large⟩

theorem Cache.evaluate_answers {σ : Type} {inner : Fractal σ} {g : Point → Single}
    {ready : σ → ScratchSource → Prop} {most : Nat} (answers : inner.Answers g ready most) :
    (evaluate inner).Answers g
      (fun s scratch => s.1.Remembers g ∧ ready s.2 scratch) most := by
  rintro ⟨cache, s⟩ scratch points progress ⟨values, isReady⟩ buffers few
  have filled : fillGaps (cache.look points) ((cache.misses points).map g) = points.map g :=
    fillGaps_look values points
  obtain ⟨e, failed, -⟩ | ⟨-, hits, result⟩ | ⟨e, -, some, failed, -⟩ | ⟨-, some, -, result⟩ :=
    evaluate_cases inner cache s points progress scratch
  · rw [buffers] at failed
    cases failed
  · rw [hits, List.map_nil] at filled
    rw [filled] at result
    exact ⟨_, _, result, values, isReady⟩
  all_goals
    have fewer : (cache.misses points).length ≤ most :=
      (List.length_filter_le _ points).trans few
    obtain ⟨s', scratch', called, isReady'⟩ := answers s scratch (cache.misses points)
      ((cache.misses points).map fun _ => 0) isReady
      (bufferError?_eq_none.mpr ⟨(List.length_map _).symm, some⟩) fewer
  · rw [missedCall, called] at failed
    cases failed
  · rw [missedCall, called, filled] at result
    exact ⟨_, _, result, values.remember _, isReady'⟩

theorem ready_empty {most : Nat} (few : most ≤ ScratchPool.empty.points.limit) :
    (ScratchSource.pool (some ScratchPool.empty)).Ready most := by
  intro pool found
  cases found
  exact ⟨.start ScratchPool.empty.points, Lending.sound_start _, rfl, rfl, few⟩

theorem ready_nothing (most : Nat) : ScratchSource.nothing.Ready most := by
  intro pool found
  cases found

/-! ### Formulas -/

/-- Where the points do not start before their results, or end before them, none is stored over
before it is read. -/
theorem Filled.results_apart {next : Point → Point} {dst z : Stretch} {memory filled : Array Point}
    (isFilled : Filled next dst z memory filled) (same : dst.length = z.length)
    (apart : dst.start ≤ z.start ∨ z.start + z.length ≤ dst.start) :
    ∀ i < z.length, filled[dst.start + i]? = memory[z.start + i]?.map next := by
  intro i below
  rw [isFilled.results i (by omega)]
  split
  · rw [isFilled.others _ (by omega)]
  · rfl

/-- A formula without raw code acts on each point by itself. -/
theorem Formula.iteration_pointwise {f : Formula} (plain : f.containsRawCode = false)
    {g : Point → Point} (value : f.root.value = .ok g) : f.iteration.Pointwise g := by
  intro _ z scratch
  let buffer : Stretch := ⟨0, z.length⟩
  have whole : buffer.Within z.toArray := by simp [buffer, Stretch.Within]
  obtain ⟨filled, stepped, isFilled⟩ := step_filled plain value (Eq.refl buffer.length) whole whole
  have results : ∀ i < z.length, filled[0 + i]? = z.toArray[0 + i]?.map g :=
    isFilled.results_apart rfl (.inl (Nat.le_refl _))
  have size : filled.size = z.length := isFilled.size
  have same : filled.toList = z.map g := by
    refine List.ext_getElem? fun j => ?_
    by_cases below : j < z.length
    · have result := results j below
      rw [Nat.zero_add] at result
      rw [Array.getElem?_toList, result, List.getElem?_toArray, List.getElem?_map]
    · rw [List.getElem?_eq_none (by simpa [size] using below),
        List.getElem?_eq_none (by simpa using below)]
  refine ⟨(), ?_⟩
  show Stepping.mk () (f.step buffer buffer z.toArray).1.toList scratch
    (f.step buffer buffer z.toArray).2 = _
  rw [stepped, same]

theorem Formula.value_of_parse {source : String} {f : Formula}
    (parsed : Formula.parse source = .ok f)
    (plain : f.containsRawCode = false) : ∃ g, f.root.value = .ok g :=
  (Formula.root_wellTyped parsed).1.value_ok plain

end EscapeTime
