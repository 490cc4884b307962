import EscapeTime.Proofs.Number.Arithmetic
import EscapeTime.Proofs.Orbit.Pointwise

/-!
# A batch of points

A fractal iterates all points of a batch side by side in one scratch buffer and counts in single
precision. `batch_follows_orbits`: each point gets the progress of the exact number of points of its
own orbit that are within the radius, and however the evaluation ends, the pool has lent out what it
had lent out before.
-/

namespace EscapeTime

/-! ### Exact counts -/

/-- The number of points `g p`, `g (g p)`, …, the `n`-th included, that lie within the radius. -/
def orbitWithin (gauge : Gauge) (g : Point → Point) (radius2 : Single) (n : Nat) (p : Point) :
    Nat :=
  ((Finset.Icc 1 n).filter fun t => gauge.norm2 (g^[t] p) < radius2).card

section Counts

variable {gauge : Gauge} {g : Point → Point} {radius2 : Single}

theorem orbitWithin_le (n : Nat) (p : Point) : orbitWithin gauge g radius2 n p ≤ n :=
  (Finset.card_filter_le _ _).trans (Nat.card_Icc 1 n).le

theorem orbitWithin_eq_count (n : Nat) (p : Point) :
    orbitWithin gauge g radius2 n p =
      Nat.count (fun t => gauge.norm2 (g^[t + 1] p) < radius2) n := by
  rw [orbitWithin, Nat.count_eq_card_filter_range, Finset.card_filter, Finset.card_filter,
    Finset.range_eq_Ico,
    Finset.sum_Ico_add' (fun t => if gauge.norm2 (g^[t] p) < radius2 then 1 else 0)]
  rfl

/-- The first point of an orbit and then those of the orbit that starts there. -/
theorem orbitWithin_succ (n : Nat) (p : Point) :
    orbitWithin gauge g radius2 (n + 1) p =
      (if gauge.norm2 (g p) < radius2 then 1 else 0) + orbitWithin gauge g radius2 n (g p) := by
  rw [orbitWithin_eq_count, orbitWithin_eq_count, Nat.count_succ', Nat.add_comm]
  rfl

/-- Up to `2 ^ 24` a count in single precision is exact. -/
theorem orbitCount_eq (n : Nat) (p : Point) {k : Nat} (short : k + n ≤ 2 ^ 24) :
    orbitCount gauge g radius2 n p (Single.ofInt k) =
      Single.ofInt (k + orbitWithin gauge g radius2 n p : Nat) := by
  induction n generalizing p k with
  | zero => rfl
  | succ n ih =>
    rw [orbitCount, orbitWithin_succ]
    split
    · rw [Single.ofInt_add_one (by omega), ih (g p) (by omega), Nat.add_assoc]
    · rw [ih (g p) (by omega), Nat.zero_add]

theorem orbitProgress_eq {c : OrbitConfig} (short : c.iterations ≤ 2 ^ 24) (p : Point) :
    orbitProgress gauge g c p = gauge.progress
      (Single.ofInt (orbitWithin gauge g c.radius2 c.iterations.toNat p)) c.iterations := by
  have counts : orbitCount gauge g c.radius2 c.iterations.toNat p (Single.ofInt (0 : Nat)) = _ :=
    orbitCount_eq c.iterations.toNat p (by omega)
  rw [Nat.zero_add] at counts
  exact congrArg (gauge.progress · c.iterations) counts

end Counts

/-! ### Borrowing -/

namespace BufferPool

variable {α : Type}

/-- The storages that the pool keeps. -/
def storages (p : BufferPool α) : List Nat :=
  p.entries.map PoolEntry.storage

/-- Whatever was asked of the pool before, in any order and also for lengths that no buffer has. -/
inductive Reachable [Inhabited α] (limit : Nat) : BufferPool α → Prop
  | empty : Reachable limit (.empty limit)
  | acquire {p : BufferPool α} (size : Int) : Reachable limit p → Reachable limit (p.acquire size).1
  | foreign {p : BufferPool α} (size : Int) :
    Reachable limit p → Reachable limit (p.allocate size).1
  | release {p : BufferPool α} (b : Buffer α) : Reachable limit p → Reachable limit (p.release b).1

/-- No two entries have the same storage, and there is unused storage. -/
structure Apart (p : BufferPool α) : Prop where
  distinct : p.storages.Nodup
  used : ∀ storage ∈ p.storages, storage < p.fresh

/-- What is told of an entry when its contents are left out. -/
def label (e : PoolEntry α) : Nat × Nat × Bool :=
  (e.storage, e.capacity, e.held)

/-- The buffers that `p` had are the same and held or free as before. At most one was added, and it
is free. -/
structure SameHeld (p p' : BufferPool α) : Prop where
  limit : p'.limit = p.limit
  entries : p'.entries.map label = p.entries.map label ∨
    ∃ capacity, p'.entries.map label = p.entries.map label ++ [(p.fresh, capacity, false)]

theorem SameHeld.refl (p : BufferPool α) : p.SameHeld p :=
  ⟨rfl, .inl rfl⟩

section Reachable

variable [Inhabited α] {p : BufferPool α} {limit : Nat}

omit [Inhabited α] in
/-- A call adds one new storage or none. -/
theorem Apart.grow {p' : BufferPool α} (apart : p.Apart)
    (grown : (p'.storages = p.storages ∧ p.fresh ≤ p'.fresh) ∨
      (p'.storages = p.storages ++ [p.fresh] ∧ p'.fresh = p.fresh + 1)) : p'.Apart := by
  obtain ⟨distinct, used⟩ := apart
  obtain ⟨same, more⟩ | ⟨added, next⟩ := grown
  · refine ⟨same ▸ distinct, fun storage member => ?_⟩
    have := used storage (same ▸ member)
    omega
  · constructor
    · rw [added, List.nodup_append]
      refine ⟨distinct, List.nodup_singleton _, ?_⟩
      intro old isOld new isNew
      rw [List.mem_singleton.mp isNew]
      exact Nat.ne_of_lt (used old isOld)
    · intro storage member
      rw [added, List.mem_append, List.mem_singleton] at member
      rcases member with old | rfl
      · have := used storage old
        omega
      · omega

theorem acquire_grown (p : BufferPool α) (size : Int) :
    (p.acquire size).1.limit = p.limit ∧
      (((p.acquire size).1.storages = p.storages ∧ p.fresh ≤ (p.acquire size).1.fresh) ∨
        ((p.acquire size).1.storages = p.storages ++ [p.fresh] ∧
          (p.acquire size).1.fresh = p.fresh + 1)) := by
  unfold acquire
  cases found : take? size p.entries with
  | some pair =>
    obtain ⟨e, entries⟩ := pair
    obtain ⟨before, after, same, rfl, -⟩ := take?_some found
    refine ⟨rfl, .inl ⟨?_, le_rfl⟩⟩
    simp [storages, same]
  | none =>
    dsimp only
    unfold allocate
    split
    · rename_i refused
      split at refused
      · cases refused
        exact ⟨rfl, .inl ⟨rfl, le_rfl⟩⟩
      · cases refused
    · rename_i granted
      split at granted
      · cases granted
      · cases granted
        refine ⟨rfl, .inr ⟨?_, rfl⟩⟩
        simp [storages]

omit [Inhabited α] in
theorem release_grown (p : BufferPool α) (b : Buffer α) :
    (p.release b).1.limit = p.limit ∧ (p.release b).1.storages = p.storages ∧
      (p.release b).1.fresh = p.fresh := by
  obtain ⟨before, e, after, same, -, -, result⟩ | ⟨-, -, -, -, result⟩ | ⟨-, result⟩ :=
    p.release_cases b
  · rw [result]
    refine ⟨rfl, ?_, rfl⟩
    simp [storages, same, freed]
  · rw [result]
    exact ⟨rfl, rfl, rfl⟩
  · rw [result]
    exact ⟨rfl, rfl, rfl⟩

theorem Reachable.apart (reachable : p.Reachable limit) : p.limit = limit ∧ p.Apart := by
  induction reachable with
  | empty => exact ⟨rfl, List.nodup_nil, fun _ member => absurd member List.not_mem_nil⟩
  | @acquire p size _ ih =>
    obtain ⟨sameLimit, grown⟩ := p.acquire_grown size
    exact ⟨sameLimit.trans ih.1, ih.2.grow grown⟩
  | @foreign p size _ ih =>
    unfold allocate
    split
    · exact ih
    · exact ⟨ih.1, ih.2.grow (.inl ⟨rfl, Nat.le_succ _⟩)⟩
  | @release p b _ ih =>
    obtain ⟨sameLimit, same, fresh⟩ := p.release_grown b
    exact ⟨sameLimit.trans ih.1, ih.2.grow (.inl ⟨same, fresh.ge⟩)⟩

end Reachable

/-- The first entry with the storage of a buffer is the one that is freed. -/
theorem giveBack_append {b : Buffer α} {before : List (PoolEntry α)} {e : PoolEntry α}
    (others : ∀ x ∈ before, x.storage ≠ b.storage) (recognised : Recognises e b)
    (isHeld : e.held = true) (after : List (PoolEntry α)) :
    giveBack b (before ++ e :: after) = .ok (before ++ freed b e :: after) := by
  induction before with
  | nil =>
    unfold Recognises at recognised
    rw [List.nil_append, giveBack, if_pos recognised, if_pos isHeld]
    rfl
  | cons first before ih =>
    have other := others first List.mem_cons_self
    rw [List.cons_append, giveBack, if_neg fun own => other own.2.2,
      ih fun x member => others x (List.mem_cons_of_mem _ member)]
    rfl

theorem label_freed {b : Buffer α} {e : PoolEntry α} (fits : b.contents.length ≤ e.capacity) :
    label (freed b e) = (e.storage, e.capacity, false) := by
  unfold label
  rw [capacity_freed fits]
  rfl

/-- A buffer that is lent by the pool, written and given back leaves the other buffers as they
were. -/
theorem Apart.borrow [Inhabited α] {p : BufferPool α} (apart : p.Apart) {size : Nat}
    (positive : 0 < size) :
    (p.limit < size ∧ p.acquire size = (p, .error .badLength)) ∨
    ∃ lent b, p.acquire size = (lent, .ok b) ∧ ∀ contents, contents.length = size →
      ∃ p', lent.release { b with contents } = (p', none) ∧ p.SameHeld p' := by
  obtain ⟨before, e, after, split, isFree, large, result⟩ | ⟨-, -, result⟩ | ⟨-, large, result⟩ :=
    p.acquire_cases size
  · refine .inr ⟨_, _, result, fun contents length => ?_⟩
    have fits : contents.length ≤ e.capacity := by omega
    have others : ∀ x ∈ before, x.storage ≠ e.storage := by
      have distinct := apart.distinct
      rw [storages, split, List.map_append, List.map_cons, List.nodup_append] at distinct
      intro x member
      exact distinct.2.2 x.storage (List.mem_map_of_mem member) e.storage List.mem_cons_self
    let lentEntry : PoolEntry α := { e with held := true }
    let given : Buffer α := ⟨e.storage, contents, e.capacity⟩
    have recognised : Recognises lentEntry given := by
      refine ⟨?_, ?_, rfl⟩
      all_goals
        show 0 < e.capacity
        omega
    have back := giveBack_append others recognised rfl after
    refine ⟨{ p with entries := before ++ freed given lentEntry :: after }, ?_, rfl, .inl ?_⟩
    · unfold release
      rw [back]
    · have same : label (freed given lentEntry) = label e := by
        rw [label_freed (e := lentEntry) fits, label, isFree]
        rfl
      rw [split, List.map_append, List.map_append, List.map_cons, List.map_cons, same]
  · refine .inr ⟨_, _, result, fun contents length => ?_⟩
    let lentEntry : PoolEntry α := ⟨p.fresh, List.replicate size default, true⟩
    let given : Buffer α := ⟨p.fresh, contents, size⟩
    have capacity : lentEntry.capacity = size := List.length_replicate
    have recognised : Recognises lentEntry given := by
      refine ⟨?_, positive, rfl⟩
      omega
    have others : ∀ x ∈ p.entries, x.storage ≠ p.fresh := fun x member =>
      Nat.ne_of_lt (apart.used x.storage (List.mem_map_of_mem member))
    have back := giveBack_append others recognised rfl []
    refine ⟨{ p with
        entries := p.entries ++ [freed given lentEntry]
        fresh := p.fresh + 1 }, ?_, rfl, .inr ⟨size, ?_⟩⟩
    · unfold release
      rw [back]
    · have free : label (freed given lentEntry) = (p.fresh, size, false) := by
        rw [label_freed (e := lentEntry) (by show contents.length ≤ _; omega), capacity]
      rw [List.map_append, List.map_singleton, free]
  · exact .inl ⟨large, result⟩

end BufferPool

/-! ### Evaluations -/

namespace ScratchSource

/-- The pool of the source, if it has one, is one that calls lead to. -/
def Usable (scratch : ScratchSource) : Prop :=
  ∀ pool, scratch.find = .ok pool → pool.points.Reachable ScratchPool.empty.points.limit

/-- The source gives the pool that it gave, and the same buffers of it are held. -/
def SameHeld (scratch scratch' : ScratchSource) : Prop :=
  scratch' = scratch ∨ ∃ pool pool', scratch.find = .ok pool ∧ scratch' = scratch.update pool' ∧
    pool.points.SameHeld pool'.points ∧ pool'.floats = pool.floats

theorem usable_update {scratch : ScratchSource} {pool pool' : ScratchPool}
    (found : scratch.find = .ok pool)
    (reachable : pool'.points.Reachable ScratchPool.empty.points.limit) :
    (scratch.update pool').Usable := by
  intro given foundLater
  rw [find_update found] at foundLater
  cases foundLater
  exact reachable

end ScratchSource

/-- The iteration keeps the number of points and leaves the scratch buffers alone, also where it
fails. -/
structure Iteration.Contained {σ : Type} (s : Iteration σ) : Prop where
  length : ∀ state z scratch, (s state z scratch).points.length = z.length
  scratch : ∀ state z scratch, (s state z scratch).scratch = scratch

section Evaluations

variable {σ : Type} {gauge : Gauge} {s : Iteration σ} {c : OrbitConfig}

variable (gauge) in
theorem iterate_contained (contained : s.Contained) (radius2 : Single) (n i : Nat) (state : σ)
    (z : List Point) (counts : List Single) (scratch : ScratchSource) :
    (iterate gauge s radius2 n i state z counts scratch).points.length = z.length ∧
      (iterate gauge s radius2 n i state z counts scratch).scratch = scratch := by
  induction n generalizing i state z counts scratch with
  | zero => exact ⟨rfl, rfl⟩
  | succ n ih =>
    have length := contained.length state z scratch
    have same := contained.scratch state z scratch
    rw [iterate]
    cases stepped : s state z scratch with
    | mk state' z' scratch' error =>
      rw [stepped] at length same
      cases error with
      | some cause => exact ⟨length, same⟩
      | none =>
        obtain ⟨lengths, sources⟩ :=
          ih (i + 1) state' z' (gauge.countWithin radius2 z' counts) scratch'
        exact ⟨lengths.trans length, sources.trans same⟩

variable (gauge) in
theorem followOrbits_contained (contained : s.Contained) (c : OrbitConfig) (state : σ)
    (points : List Point) (scratch : ScratchSource) :
    (followOrbits gauge s c state points scratch).points.length = points.length ∧
      (followOrbits gauge s c state points scratch).scratch = scratch := by
  have kept := iterate_contained gauge contained c.radius2 c.iterations.toNat 0 state
    points (points.map fun _ => 0) scratch
  unfold followOrbits
  dsimp only
  split <;> exact kept

variable (gauge c) in
/-- An evaluation refuses its buffers, is refused a scratch buffer, or follows the orbits. -/
theorem orbitFractal_cases (contained : s.Contained) (state : σ) (points : List Point)
    (progress : List Single) {scratch : ScratchSource} (usable : scratch.Usable) :
    ∃ scratch', scratch.SameHeld scratch' ∧ scratch'.Usable ∧
      ((∃ e, bufferError? points progress = some e ∧
          orbitFractal gauge s c state points progress scratch =
            ⟨state, progress, scratch', some e⟩) ∨
        (∃ fault, ScratchPool.empty.points.limit < points.length ∧
          orbitFractal gauge s c state points progress scratch =
            ⟨state, progress, scratch', some (.pool fault)⟩) ∨
        (bufferError? points progress = none ∧
          ∃ lent, orbitFractal gauge s c state points progress scratch =
            ⟨(followOrbits gauge s c state points lent).state,
              (followOrbits gauge s c state points lent).counts, scratch',
              (followOrbits gauge s c state points lent).error⟩)) := by
  unfold orbitFractal
  cases buffers : bufferError? points progress with
  | some e => exact ⟨scratch, .inl rfl, usable, .inl ⟨e, rfl, rfl⟩⟩
  | none =>
    dsimp only
    cases found : scratch.find with
    | error e =>
      obtain ⟨-, same⟩ := followOrbits_contained gauge contained c state points scratch
      refine ⟨scratch, .inl rfl, usable, .inr (.inr ⟨rfl, scratch, ?_⟩)⟩
      simp only [same]
    | ok pool =>
      have reachable := usable pool found
      obtain ⟨limit, apart⟩ := reachable.apart
      have some : 0 < points.length := List.length_pos_iff.mpr (bufferError?_eq_none.mp buffers).2
      obtain ⟨large, refused⟩ | ⟨held, b, acquired, givenBack⟩ := apart.borrow some
      · refine ⟨scratch.update pool, .inr ⟨pool, pool, found, rfl, .refl _, rfl⟩,
          ScratchSource.usable_update found reachable, .inr (.inl ⟨.badLength, ?_, ?_⟩)⟩
        · omega
        · simp only [refused]
      · let lent := scratch.update { pool with points := held }
        obtain ⟨length, same⟩ := followOrbits_contained gauge contained c state points lent
        obtain ⟨p', released, sameHeld⟩ := givenBack _ length
        have returned : p'.Reachable ScratchPool.empty.points.limit := by
          have lentReachable := reachable.acquire points.length
          rw [acquired] at lentReachable
          have afterRelease := lentReachable.release
            { b with contents := (followOrbits gauge s c state points lent).points }
          rwa [released] at afterRelease
        refine ⟨scratch.update { pool with points := p' },
          .inr ⟨pool, { pool with points := p' }, found, rfl, sameHeld, rfl⟩,
          ScratchSource.usable_update found returned, .inr (.inr ⟨rfl, lent, ?_⟩)⟩
        simp only [acquired, lent, same, ScratchSource.release_update found released]

end Evaluations

/-- Every contained iteration has a fractal for every configuration that is accepted, and however an
evaluation ends, in whatever state, the scratch pool has the same buffers lent out as before. If the
iteration acts on each point by `g`, the evaluation of a batch no longer than a buffer can be
succeeds and tells of each point the progress of the exact number of points of its orbit under `g`
that are within the radius. Formulas without raw code act so, and their steps do also where the
results are stored over the points. -/
theorem batch_follows_orbits {σ : Type} (gauge : Gauge) (s : Iteration σ) (contained : s.Contained)
    (c : OrbitConfig) (accepted : c.check = .ok ()) (state : σ) (points : List Point)
    (progress : List Single) (scratch : ScratchSource) (usable : scratch.Usable) :
    (∃ fractal, orbitFractal? gauge (some s) c = .ok fractal ∧
      scratch.SameHeld (fractal state points progress scratch).scratch ∧
      (fractal state points progress scratch).scratch.Usable ∧
      ∀ g : Point → Point, s.Pointwise g → c.iterations ≤ 2 ^ 24 →
        points.length = progress.length → points ≠ [] →
        points.length ≤ ScratchPool.empty.points.limit →
        (fractal state points progress scratch).error = none ∧
        (fractal state points progress scratch).progress = (points.map fun p => gauge.progress
          (Single.ofInt (orbitWithin gauge g c.radius2 c.iterations.toNat p)) c.iterations) ∧
        ∀ p, orbitWithin gauge g c.radius2 c.iterations.toNat p ≤ c.iterations.toNat) ∧
    ∀ source f, Formula.parse source = .ok f → f.containsRawCode = false →
      ∃ g : Point → Point, f.root.value = .ok g ∧ f.iteration.Pointwise g ∧
        ∀ dst z memory, dst.length = z.length → dst.Within memory → z.Within memory →
          (dst.start ≤ z.start ∨ z.start + z.length ≤ dst.start) →
          ∃ filled, f.step dst z memory = (filled, none) ∧
            ∀ i < z.length, filled[dst.start + i]? = memory[z.start + i]?.map g := by
  refine ⟨⟨orbitFractal gauge s c, ?_, ?_⟩, ?_⟩
  · unfold orbitFractal?
    rw [accepted]
    rfl
  · obtain ⟨scratch', same, usable', cases⟩ :=
      orbitFractal_cases gauge c contained state points progress usable
    refine ⟨?_, ?_, ?_⟩
    · obtain ⟨e, -, result⟩ | ⟨fault, -, result⟩ | ⟨-, lent, result⟩ := cases <;> rwa [result]
    · obtain ⟨e, -, result⟩ | ⟨fault, -, result⟩ | ⟨-, lent, result⟩ := cases <;> rwa [result]
    · intro g pointwise few lengths nonempty short
      obtain ⟨e, refused, -⟩ | ⟨fault, large, -⟩ | ⟨-, lent, result⟩ := cases
      · rw [bufferError?_eq_none.mpr ⟨lengths, nonempty⟩] at refused
        cases refused
      · omega
      · obtain ⟨state', orbits⟩ := followOrbits_pointwise gauge pointwise c state points lent
        rw [result, orbits]
        exact ⟨rfl, List.map_congr_left fun p _ => orbitProgress_eq few p, orbitWithin_le _⟩
  · intro source f parsed plain
    obtain ⟨g, value⟩ := Formula.value_of_parse parsed plain
    refine ⟨g, value, Formula.iteration_pointwise plain value, ?_⟩
    intro dst z memory same target source' apart
    obtain ⟨filled, stepped, isFilled⟩ := Formula.step_filled plain value same target source'
    exact ⟨filled, stepped, isFilled.results_apart same apart⟩

def Vec2.squared (p : Point) : Point :=
  ⟨p.x * p.x - p.y * p.y, p.x * p.y + p.x * p.y⟩

/-- Squaring that counts how often it is asked for. -/
def countedSquares : Iteration Nat :=
  fun count points scratch => ⟨count + 1, points.map Vec2.squared, scratch, none⟩

/-- Squaring that fails when its strength is used up. -/
def tiringSquares : Iteration Nat
  | 0, points, scratch => ⟨0, points, scratch, some .rawCode⟩
  | strength + 1, points, scratch => ⟨strength, points.map Vec2.squared, scratch, none⟩

/-- Two points of which only one stays within the radius, with a pool that has lent a buffer. The
same squares, asked for too often, end the evaluation and leave the pool alike. -/
theorem batch_of_squares :
    let scratch : ScratchSource :=
      .pool (some { ScratchPool.empty with points := (ScratchPool.empty.points.acquire 3).1 })
    (∃ fractal, orbitFractal? .single (some countedSquares) .default = .ok fractal ∧
      scratch.SameHeld (fractal 0 [⟨0.5, 0⟩, ⟨2, 0⟩] [0, 0] scratch).scratch ∧
      (fractal 0 [⟨0.5, 0⟩, ⟨2, 0⟩] [0, 0] scratch).error = none ∧
      (fractal 0 [⟨0.5, 0⟩, ⟨2, 0⟩] [0, 0] scratch).progress = [⟨0.5, 0⟩, ⟨2, 0⟩].map fun p =>
        Gauge.single.progress (Single.ofInt (orbitWithin .single Vec2.squared 9 100 p)) 100) ∧
    ∃ fractal, orbitFractal? .single (some tiringSquares) .default = .ok fractal ∧
      (fractal 1 [⟨0.5, 0⟩, ⟨2, 0⟩] [0, 0] scratch).error = some (.iteration 1 .rawCode) ∧
      scratch.SameHeld (fractal 1 [⟨0.5, 0⟩, ⟨2, 0⟩] [0, 0] scratch).scratch := by
  intro scratch
  have counted : countedSquares.Contained := ⟨fun _ _ _ => List.length_map _, fun _ _ _ => rfl⟩
  have tiring : tiringSquares.Contained := by
    constructor <;> rintro (_ | strength) z scratch
    · rfl
    · exact List.length_map _
    · rfl
    · rfl
  have usable : scratch.Usable := by
    intro pool found
    cases found
    exact .acquire 3 .empty
  obtain ⟨⟨fractal, made, held, -, answers⟩, -⟩ := batch_follows_orbits .single countedSquares
    counted .default (by decide) 0 [⟨0.5, 0⟩, ⟨2, 0⟩] [0, 0] scratch usable
  obtain ⟨done, progress, -⟩ := answers Vec2.squared (fun count _ _ => ⟨count + 1, rfl⟩) (by decide)
    rfl (List.cons_ne_nil _ _) (by decide)
  obtain ⟨⟨failing, made', held', -⟩, -⟩ := batch_follows_orbits .single tiringSquares
    tiring .default (by decide) 1 [⟨0.5, 0⟩, ⟨2, 0⟩] [0, 0] scratch usable
  have failed : (failing 1 [⟨0.5, 0⟩, ⟨2, 0⟩] [0, 0] scratch).error =
      some (.iteration 1 .rawCode) := by
    cases made'
    rfl
  exact ⟨⟨fractal, made, held, done, progress⟩, failing, made', failed, held'⟩

end EscapeTime
