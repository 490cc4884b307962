import EscapeTime.Proofs.Orbit.FailedRequests

/-!
# Giving buffers back

A `Custody` follows a pool through requests of any size, negative ones included. Besides the buffers
that are held, it records the storage that failed requests took. `acquired_buffers_return`: a buffer
that was acquired can be given back at any later time until its storage is, unless it has no
storage, and nothing is reported as unreleased exactly when nothing is held and nothing was taken.
-/

namespace EscapeTime

variable {α : Type}

namespace BufferPool

/-- The storage of the first free buffer. -/
def firstFree? (p : BufferPool α) : Option Nat :=
  (p.entries.find? (!·.held)).map PoolEntry.storage

theorem FirstFree.firstFree? {p : BufferPool α} {before after : List (PoolEntry α)}
    {e : PoolEntry α} (first : FirstFree p.entries before e after) :
    p.firstFree? = some e.storage := by
  have passed : before.find? (!·.held) = none :=
    List.find?_eq_none.mpr fun x member => by simp [first.busy x member]
  simp [BufferPool.firstFree?, first.split, passed, first.free]

theorem firstFree?_eq_none {p : BufferPool α} (busy : ∀ e ∈ p.entries, e.held = true) :
    p.firstFree? = none := by
  have none : p.entries.find? (!·.held) = none :=
    List.find?_eq_none.mpr fun x member => by simp [busy x member]
  rw [BufferPool.firstFree?, none]
  rfl

/-! ### Buffers of no length -/

/-- Buffers of no length are never free. -/
def KeepsEmpty (p : BufferPool α) : Prop :=
  ∀ e ∈ p.entries, e.capacity = 0 → e.held = true

theorem KeepsEmpty.replace {p : BufferPool α} (keeps : p.KeepsEmpty)
    {before after : List (PoolEntry α)} {e e' : PoolEntry α}
    (split : p.entries = before ++ e :: after) (new : e'.capacity = 0 → e'.held = true) :
    KeepsEmpty { p with entries := before ++ e' :: after } := by
  intro x member
  rcases List.mem_append.mp member with early | late
  · exact keeps x (by simp [split, early])
  · rcases List.mem_cons.mp late with rfl | later
    · exact new
    · exact keeps x (by simp [split, later])

theorem le_capacity_freed (b : Buffer α) (e : PoolEntry α) : e.capacity ≤ (freed b e).capacity := by
  simp only [PoolEntry.capacity, freed, List.length_append, List.length_drop]
  omega

variable [Inhabited α]

theorem KeepsEmpty.serve {p : BufferPool α} (keeps : p.KeepsEmpty) (r : PoolRequest α) :
    (p.serve r).1.KeepsEmpty := by
  cases r with
  | acquire size =>
    by_cases negative : size < 0
    · obtain ⟨-, result⟩ | ⟨_, e, _, first, result⟩ := p.acquire_of_neg negative
      · rw [BufferPool.serve, result]
        exact keeps
      · rw [BufferPool.serve, result]
        exact keeps.replace first.split fun _ => rfl
    · obtain ⟨n, rfl⟩ := Int.eq_ofNat_of_zero_le (Int.not_lt.mp negative)
      obtain ⟨_, e, _, split, _, _, result⟩ | ⟨_, _, result⟩ | ⟨_, _, result⟩ := p.acquire_cases n
      · rw [BufferPool.serve, result]
        exact keeps.replace split fun _ => rfl
      · rw [BufferPool.serve, result]
        intro e member
        rcases List.mem_append.mp member with old | new
        · exact keeps e old
        · rw [List.mem_singleton.mp new]
          exact fun _ => rfl
      · rw [BufferPool.serve, result]
        exact keeps
  | foreign size =>
    obtain result | ⟨-, result⟩ := p.allocate_cases size
    · rw [BufferPool.serve, result]
      exact keeps
    · rw [BufferPool.serve, result]
      exact keeps
  | release b =>
    obtain ⟨_, e, _, split, recognised, _, result⟩ | ⟨_, _, _, _, result⟩ | ⟨_, result⟩ :=
      p.release_cases b
    · rw [BufferPool.serve, result]
      refine keeps.replace split fun empty => ?_
      have := le_capacity_freed b e
      have := recognised.1
      omega
    · rw [BufferPool.serve, result]
      exact keeps
    · rw [BufferPool.serve, result]
      exact keeps

/-- A buffer without storage is only to be had while all others are held. -/
theorem KeepsEmpty.capacity_eq_zero_iff {p pool : BufferPool α} (keeps : p.KeepsEmpty) {size : Nat}
    {b : Buffer α} (acquired : p.acquire size = (pool, .ok b)) :
    b.capacity = 0 ↔ size = 0 ∧ p.entries.all PoolEntry.held = true := by
  rw [List.all_eq_true]
  obtain ⟨before, e, after, split, free, _, result⟩ | ⟨busy, _, result⟩ | ⟨_, _, result⟩ :=
    p.acquire_cases size
  · cases result.symm.trans acquired
    have member : e ∈ p.entries := by simp [split]
    have large : e.capacity ≠ 0 := fun empty => by
      rw [keeps e member empty] at free
      cases free
    refine ⟨fun empty => absurd empty large, fun ⟨_, busy⟩ => ?_⟩
    rw [busy e member] at free
    cases free
  · cases result.symm.trans acquired
    refine ⟨fun empty => ⟨empty, fun e member => ?_⟩, fun none => none.1⟩
    rcases busy e member with held | small
    · exact held
    · have : size = 0 := empty
      omega
  · cases result.symm.trans acquired

omit [Inhabited α] in
/-- What has no storage is not recognised. -/
theorem release_of_no_capacity (p : BufferPool α) {b : Buffer α} (empty : b.capacity = 0) :
    p.release b = (p, some .notOwned) := by
  obtain ⟨_, _, _, _, recognised, _⟩ | ⟨_, _, recognised, _⟩ | ⟨_, result⟩ := p.release_cases b
  · exact absurd recognised.2.1 (by omega)
  · exact absurd recognised.2.1 (by omega)
  · exact result

end BufferPool

/-- The call as a request. -/
def PoolCall.request : PoolCall α → PoolRequest α
  | acquire size => .acquire size
  | foreign size => .foreign size
  | release b => .release b

namespace Lending

variable [Inhabited α] {w : Lending α} {call : PoolCall α} {b : Buffer α}

theorem pool_after (w : Lending α) (call : PoolCall α) :
    (w.after call).pool = (w.pool.serve call.request).1 := by
  cases call with
  | acquire size | foreign size | release b =>
    rw [after]
    split
    all_goals
      rename_i result
      simp only [PoolCall.request, BufferPool.serve, result]

theorem mem_made_after (isMade : b ∈ w.made) : b ∈ (w.after call).made := by
  cases call with
  | acquire size | foreign size =>
    rw [after]
    split
    · exact List.mem_cons_of_mem _ isMade
    · exact isMade
  | release b' =>
    rw [after]
    split
    · exact isMade
    · exact isMade

/-- A buffer is held until its storage is given back. -/
theorem mem_held_after (isHeld : b ∈ w.held)
    (other : ∀ b', call = .release b' → b'.storage ≠ b.storage) : b ∈ (w.after call).held := by
  cases call with
  | acquire size =>
    rw [after]
    split
    · exact List.mem_cons_of_mem _ isHeld
    · exact isHeld
  | foreign size =>
    rw [after]
    split
    · exact isHeld
    · exact isHeld
  | release b' =>
    rw [after]
    split
    · exact List.mem_filter.mpr ⟨isHeld, by simpa using (other b' rfl).symm⟩
    · exact isHeld

end Lending

/-! ### Runs -/

/-- A pool in a run of requests, and the storage that failed requests took and that was not given
back since. -/
structure Custody (α : Type) where
  lending : Lending α
  lost : List Nat

namespace Custody

def start (pool : BufferPool α) : Custody α :=
  ⟨.start pool, []⟩

def pool (c : Custody α) : BufferPool α :=
  c.lending.pool

/-- All that the pool takes for held. -/
def occupied (c : Custody α) : Lending α :=
  { c.lending with held := c.lending.held ++ c.lost.map fun storage => ⟨storage, [], 0⟩ }

theorem storages_occupied (c : Custody α) :
    c.occupied.held.map Buffer.storage = c.lending.held.map Buffer.storage ++ c.lost := by
  simp [occupied, Function.comp_def]

/-- Only buffers that were made can be given back, in any stretch. -/
def Allows (c : Custody α) : PoolRequest α → Prop
  | .release b => ∃ m ∈ c.lending.made, b.Slices m
  | _ => True

variable [Inhabited α]

def after (c : Custody α) : PoolRequest α → Custody α
  | .acquire size =>
    if size < 0 then
      ⟨{ c.lending with pool := (c.pool.acquire size).1 }, c.pool.firstFree?.toList ++ c.lost⟩
    else ⟨c.lending.after (.acquire size.toNat), c.lost⟩
  | .foreign size => ⟨c.lending.after (.foreign size), c.lost⟩
  | .release b =>
    ⟨c.lending.after (.release b),
      if (c.pool.release b).2.isNone then c.lost.filter (· ≠ b.storage) else c.lost⟩

def run (c : Custody α) : List (PoolRequest α) → Custody α
  | [] => c
  | r :: rs => run (c.after r) rs

def AllowsAll (c : Custody α) : List (PoolRequest α) → Prop
  | [] => True
  | r :: rs => c.Allows r ∧ AllowsAll (c.after r) rs

/-- The states that runs of allowed requests lead to. -/
def Reached (pool : BufferPool α) (c : Custody α) : Prop :=
  ∃ rs, (start pool).AllowsAll rs ∧ (start pool).run rs = c

theorem after_acquire_of_nonneg (c : Custody α) (size : Nat) :
    c.after (.acquire size) = ⟨c.lending.after (.acquire size), c.lost⟩ := by
  rw [after, if_neg (by omega), Int.toNat_natCast]

/-! ### What a run keeps -/

omit [Inhabited α] in
/-- The marks of the pool are the storages that are held or lost, and buffers of no length are never
free. -/
structure Sound (c : Custody α) : Prop where
  occupied : c.occupied.Sound
  keeps : c.pool.KeepsEmpty

omit [Inhabited α] in
theorem sound_start (limit : Nat) : (start (.empty limit : BufferPool α)).Sound where
  occupied := Lending.sound_start limit
  keeps := fun _ member => absurd member List.not_mem_nil

theorem pool_after (c : Custody α) (r : PoolRequest α) :
    (c.after r).pool = (c.pool.serve r).1 := by
  cases r with
  | acquire size =>
    by_cases negative : size < 0
    · rw [after, if_pos negative]
      rfl
    · obtain ⟨n, rfl⟩ := Int.eq_ofNat_of_zero_le (Int.not_lt.mp negative)
      rw [after_acquire_of_nonneg]
      exact c.lending.pool_after (.acquire n)
  | foreign size => exact c.lending.pool_after (.foreign size)
  | release b => exact c.lending.pool_after (.release b)

/-! ### Steps -/

theorem occupied_after (c : Custody α) (call : PoolCall α) :
    (c.after call.request).occupied = c.occupied.after call := by
  cases call with
  | acquire size =>
    rw [PoolCall.request, after_acquire_of_nonneg]
    unfold occupied Lending.after
    dsimp only
    cases c.lending.pool.acquire size with
    | mk pool answer => cases answer <;> rfl
  | foreign size =>
    unfold PoolCall.request occupied after Lending.after
    dsimp only
    cases c.lending.pool.allocate size with
    | mk pool answer => cases answer <;> rfl
  | release b =>
    unfold PoolCall.request occupied after pool Lending.after
    dsimp only
    cases c.lending.pool.release b with
    | mk pool fault =>
      cases fault with
      | none => simp [List.filter_append, List.filter_map, Function.comp_def]
      | some fault => rfl

/-- The storage that a failed request takes is marked, and nobody has it. -/
theorem Sound.occupied_negative {c : Custody α} (sound : c.Sound) {size : Int}
    (negative : size < 0) : (c.after (.acquire size)).occupied.Sound := by
  rw [after, if_pos negative]
  obtain ⟨busy, result⟩ | ⟨before, e, later, first, result⟩ := c.pool.acquire_of_neg negative
  · rw [result, BufferPool.firstFree?_eq_none busy]
    exact sound.occupied
  · rw [result, first.firstFree?]
    refine ⟨sound.occupied.replace first.split rfl rfl, ?_⟩
    have marks : (Lending.marked (before ++ later)).Perm
        (c.lending.held.map Buffer.storage ++ c.lost) := by
      rw [← Lending.marked_free first.free, ← first.split, ← storages_occupied]
      exact sound.occupied.marks
    have marksFirst : (Lending.marked (before ++ { e with held := true } :: later)).Perm
        (e.storage :: Lending.marked (before ++ later)) := Lending.marked_held rfl
    rw [storages_occupied]
    exact (marksFirst.trans (marks.cons e.storage)).trans List.perm_middle.symm

theorem Sound.after {c : Custody α} (sound : c.Sound) (r : PoolRequest α) (allowed : c.Allows r) :
    (c.after r).Sound := by
  refine ⟨?_, c.pool_after r ▸ sound.keeps.serve r⟩
  cases r with
  | acquire size =>
    by_cases negative : size < 0
    · exact sound.occupied_negative negative
    · obtain ⟨n, rfl⟩ := Int.eq_ofNat_of_zero_le (Int.not_lt.mp negative)
      exact c.occupied_after (.acquire n) ▸ sound.occupied.after (.acquire n) trivial
  | foreign size =>
    exact c.occupied_after (.foreign size) ▸ sound.occupied.after (.foreign size) trivial
  | release b => exact c.occupied_after (.release b) ▸ sound.occupied.after (.release b) allowed

theorem Sound.run {c : Custody α} (sound : c.Sound) {rs : List (PoolRequest α)}
    (allowed : c.AllowsAll rs) : (c.run rs).Sound := by
  induction rs generalizing c with
  | nil => exact sound
  | cons r rs ih => exact ih (sound.after r allowed.1) allowed.2

theorem sound_of_reached {limit : Nat} {c : Custody α}
    (reached : c.Reached (.empty limit : BufferPool α)) : c.Sound := by
  obtain ⟨rs, allowed, rfl⟩ := reached
  exact (sound_start limit).run allowed

/-! ### A buffer in a run -/

theorem mem_made_after {c : Custody α} {b : Buffer α} (isMade : b ∈ c.lending.made)
    (r : PoolRequest α) : b ∈ (c.after r).lending.made := by
  cases r with
  | acquire size =>
    rw [after]
    split
    · exact isMade
    · exact Lending.mem_made_after isMade
  | foreign size => exact Lending.mem_made_after isMade
  | release b' => exact Lending.mem_made_after isMade

theorem mem_held_after {c : Custody α} {b : Buffer α} (isHeld : b ∈ c.lending.held)
    (r : PoolRequest α) (other : ∀ b', r = .release b' → b'.storage ≠ b.storage) :
    b ∈ (c.after r).lending.held := by
  cases r with
  | acquire size =>
    rw [after]
    split
    · exact isHeld
    · exact Lending.mem_held_after isHeld nofun
  | foreign size => exact Lending.mem_held_after isHeld nofun
  | release b' =>
    refine Lending.mem_held_after isHeld ?_
    rintro _ ⟨⟩
    exact other b' rfl

theorem mem_held_run {c : Custody α} {b : Buffer α} (isMade : b ∈ c.lending.made)
    (isHeld : b ∈ c.lending.held) {rs : List (PoolRequest α)}
    (kept : ∀ b', .release b' ∈ rs → b'.storage ≠ b.storage) :
    b ∈ (c.run rs).lending.made ∧ b ∈ (c.run rs).lending.held := by
  induction rs generalizing c with
  | nil => exact ⟨isMade, isHeld⟩
  | cons r rs ih =>
    refine ih (mem_made_after isMade r) (mem_held_after isHeld r ?_) ?_
    · rintro b' rfl
      exact kept b' List.mem_cons_self
    · exact fun b' member => kept b' (List.mem_cons_of_mem r member)

omit [Inhabited α] in
/-- A buffer that is held can be given back if it has storage, and only then. -/
theorem Sound.release_held {c : Custody α} (sound : c.Sound) {b b' : Buffer α}
    (isMade : b ∈ c.lending.made) (isHeld : b ∈ c.lending.held) (slices : b'.Slices b) :
    (c.pool.release b').2 = if b.capacity = 0 then some .notOwned else none := by
  split
  · rename_i empty
    rw [c.pool.release_of_no_capacity (slices.capacity.trans empty)]
  · rename_i positive
    refine (sound.occupied.release_iff ⟨b, isMade, slices⟩ ?_).mpr
      ⟨b, List.mem_append_left _ isHeld, slices.storage.symm⟩
    have := slices.capacity
    omega

/-- Whatever is acquired can be given back at any later time until its storage is, in any stretch,
unless it was asked for with no length while every buffer was held. -/
def Returns (c : Custody α) : Prop :=
  ∀ (size : Nat) (pool : BufferPool α) (b : Buffer α), c.pool.acquire size = (pool, .ok b) →
    ∀ rs, (c.after (.acquire size)).AllowsAll rs →
      (∀ b', .release b' ∈ rs → b'.storage ≠ b.storage) → ∀ b' : Buffer α, b'.Slices b →
        (((c.after (.acquire size)).run rs).pool.release b').2 =
          if size = 0 ∧ c.pool.entries.all PoolEntry.held = true then some .notOwned else none

theorem Sound.returns {c : Custody α} (sound : c.Sound) : c.Returns := by
  intro size pool b acquired rs allowed kept b' slices
  have soundLater := (sound.after (.acquire size) trivial).run allowed
  have lent : (c.after (.acquire size)).lending =
      ⟨pool, b :: c.lending.made, b :: c.lending.held⟩ := by
    rw [after_acquire_of_nonneg]
    exact Lending.after_acquire acquired
  have made : b ∈ (c.after (.acquire size)).lending.made := by simp [lent]
  have held : b ∈ (c.after (.acquire size)).lending.held := by simp [lent]
  obtain ⟨isMade, isHeld⟩ := mem_held_run made held kept
  rw [soundLater.release_held isMade isHeld slices]
  exact if_congr (sound.keeps.capacity_eq_zero_iff acquired) rfl rfl

omit [Inhabited α] in
theorem Sound.firstHeld?_eq_none_iff {c : Custody α} (sound : c.Sound) :
    c.pool.firstHeld? = none ↔ c.lending.held = [] ∧ c.lost = [] := by
  rw [show c.pool = c.occupied.pool from rfl, sound.occupied.firstHeld?_eq_none_iff]
  simp [Custody.occupied]

end Custody

/-- Whatever was asked of the two pools before, negative sizes included: a buffer that is acquired
can be given back at any later time until its storage is, unless no length was asked for while every
buffer was held, and then never. And nothing is reported as unreleased exactly when every acquired
buffer was given back and no storage is left with a failed request. -/
theorem acquired_buffers_return (points : Custody Point) (floats : Custody Single)
    (reachedPoints : points.Reached ScratchPool.empty.points)
    (reachedFloats : floats.Reached ScratchPool.empty.floats) :
    points.Returns ∧ floats.Returns ∧
      ((ScratchPool.mk points.pool floats.pool).unreleased? = none ↔
        (points.lending.held = [] ∧ points.lost = []) ∧
          floats.lending.held = [] ∧ floats.lost = []) := by
  have soundPoints := Custody.sound_of_reached reachedPoints
  have soundFloats := Custody.sound_of_reached reachedFloats
  refine ⟨soundPoints.returns, soundFloats.returns, ?_⟩
  rw [← soundPoints.firstHeld?_eq_none_iff, ← soundFloats.firstHeld?_eq_none_iff]
  unfold ScratchPool.unreleased?
  cases points.pool.firstHeld? with
  | some held => simp
  | none => simp

/-- A pool whose only buffer a failed request took. -/
def Custody.oneLost : Custody Point :=
  (start ScratchPool.empty.points).run
    [.acquire 4, .release ⟨0, List.replicate 4 default, 4⟩, .acquire (-1)]

/-- A buffer of eight numbers, given back and lent again in a shorter stretch. -/
def Custody.oneRelent : Custody Single :=
  (start ScratchPool.empty.floats).run
    [.acquire 8, .release ⟨0, List.replicate 8 0, 8⟩, .acquire 6]

theorem oneLost_oneRelent_return :
    Custody.oneLost.Reached ScratchPool.empty.points ∧
      Custody.oneRelent.Reached ScratchPool.empty.floats ∧
      Custody.oneLost.Returns ∧ Custody.oneRelent.Returns ∧
      ((ScratchPool.mk Custody.oneLost.pool Custody.oneRelent.pool).unreleased? = none ↔
        (Custody.oneLost.lending.held = [] ∧ Custody.oneLost.lost = []) ∧
          Custody.oneRelent.lending.held = [] ∧ Custody.oneRelent.lost = []) := by
  have reachedPoints : Custody.oneLost.Reached ScratchPool.empty.points := by
    refine ⟨_, ?_, rfl⟩
    refine ⟨trivial, ?_, trivial, trivial⟩
    exact ⟨⟨0, List.replicate 4 default, 4⟩, List.mem_cons_self, rfl, rfl, by decide⟩
  have reachedFloats : Custody.oneRelent.Reached ScratchPool.empty.floats := by
    refine ⟨_, ?_, rfl⟩
    refine ⟨trivial, ?_, trivial, trivial⟩
    exact ⟨⟨0, List.replicate 8 default, 8⟩, List.mem_cons_self, rfl, rfl, by decide⟩
  exact ⟨reachedPoints, reachedFloats,
    acquired_buffers_return _ _ reachedPoints reachedFloats⟩

/-- The first buffer of no length is never given back. -/
theorem empty_buffer_not_returned :
    ∃ pool, ScratchPool.empty.floats.acquire 0 = (pool, .ok ⟨0, [], 0⟩) ∧
      pool.release ⟨0, [], 0⟩ = (pool, some .notOwned) ∧
      (ScratchPool.mk ScratchPool.empty.points pool).unreleased? =
        some "Float pool: buffer 0 of length 0 not released" :=
  ⟨_, rfl, rfl, rfl⟩

end EscapeTime
