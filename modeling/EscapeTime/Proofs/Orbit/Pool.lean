import EscapeTime.Orbit.Pool
import Mathlib.Data.List.Nodup

/-!
# Who holds a buffer

A `Lending` follows a pool through a run of calls and records, from the answers alone, which buffers
are held. `pool_ownership_exclusive`: what is held is what the pool marks as held, each storage by
one holder, and a buffer can be given back exactly while its storage is held.
-/

namespace EscapeTime

variable {α : Type}

/-- The same storage from its start, perhaps a shorter stretch of it. -/
structure Buffer.Slices (b m : Buffer α) : Prop where
  storage : b.storage = m.storage
  capacity : b.capacity = m.capacity
  fits : b.contents.length ≤ m.capacity

namespace BufferPool

/-! ### Entries -/

theorem take?_some {size : Int} {entries entries' : List (PoolEntry α)} {e : PoolEntry α}
    (found : take? size entries = some (e, entries')) :
    ∃ before after, entries = before ++ e :: after ∧
      entries' = before ++ { e with held := true } :: after ∧
      e.held = false ∧ size ≤ e.capacity := by
  induction entries generalizing entries' with
  | nil => cases found
  | cons first rest ih =>
    rw [take?] at found
    split at found
    · rename_i free
      cases found
      rw [Bool.and_eq_true, Bool.not_eq_true', decide_eq_true_eq] at free
      exact ⟨[], rest, rfl, rfl, free⟩
    · obtain ⟨⟨e', later⟩, foundLater, same⟩ := Option.map_eq_some_iff.mp found
      cases same
      obtain ⟨before, after, rfl, rfl, free⟩ := ih foundLater
      exact ⟨first :: before, after, rfl, rfl, free⟩

theorem take?_none {size : Int} {entries : List (PoolEntry α)} (missing : take? size entries = none) :
    ∀ e ∈ entries, e.held = true ∨ e.capacity < size := by
  induction entries with
  | nil => exact fun e member => absurd member List.not_mem_nil
  | cons first rest ih =>
    rw [take?] at missing
    split at missing
    · cases missing
    · rename_i busy
      intro e member
      rcases List.mem_cons.mp member with rfl | later
      · rw [Bool.and_eq_true, Bool.not_eq_true', decide_eq_true_eq, not_and_or] at busy
        rcases busy with held | small
        · exact .inl (Bool.not_eq_false _ ▸ held)
        · exact .inr (by omega)
      · exact ih (Option.map_eq_none_iff.mp missing) e later

/-- The entry of a buffer that was given back. -/
def freed (b : Buffer α) (e : PoolEntry α) : PoolEntry α :=
  ⟨e.storage, b.contents ++ e.contents.drop b.contents.length, false⟩

/-- The entry is recognised as the storage of the buffer. -/
def Recognises (e : PoolEntry α) (b : Buffer α) : Prop :=
  0 < e.capacity ∧ 0 < b.capacity ∧ e.storage = b.storage

theorem giveBack_cases (b : Buffer α) (entries : List (PoolEntry α)) :
    ((∀ e ∈ entries, ¬ Recognises e b) ∧ giveBack b entries = .error .notOwned) ∨
    ∃ before e after, entries = before ++ e :: after ∧ Recognises e b ∧
      giveBack b entries =
        if e.held then .ok (before ++ freed b e :: after) else .error .notHeld := by
  induction entries with
  | nil => exact .inl ⟨fun e member => absurd member List.not_mem_nil, rfl⟩
  | cons first rest ih =>
    by_cases own : 0 < first.capacity ∧ 0 < b.capacity ∧ first.storage = b.storage
    · refine .inr ⟨[], first, rest, rfl, own, ?_⟩
      rw [giveBack, if_pos own]
      rfl
    · rw [giveBack, if_neg own]
      obtain ⟨none, unknown⟩ | ⟨before, e, after, rfl, recognised, result⟩ := ih
      · refine .inl ⟨?_, by rw [unknown]; rfl⟩
        intro e member
        rcases List.mem_cons.mp member with rfl | later
        · exact own
        · exact none e later
      · refine .inr ⟨first :: before, e, after, rfl, recognised, ?_⟩
        rw [result]
        split <;> rfl

theorem capacity_freed {b : Buffer α} {e : PoolEntry α} (fits : b.contents.length ≤ e.capacity) :
    (freed b e).capacity = e.capacity := by
  unfold PoolEntry.capacity at fits ⊢
  simp only [freed, List.length_append, List.length_drop]
  omega

/-! ### Calls -/

variable [Inhabited α]

theorem acquire_cases (p : BufferPool α) (size : Nat) :
    (∃ before e after, p.entries = before ++ e :: after ∧ e.held = false ∧ size ≤ e.capacity ∧
      p.acquire size = ({ p with entries := before ++ { e with held := true } :: after },
        .ok ⟨e.storage, e.contents.take size, e.capacity⟩)) ∨
    ((∀ e ∈ p.entries, e.held = true ∨ e.capacity < size) ∧ size ≤ p.limit ∧
      p.acquire size =
        ({ p with
            entries := p.entries ++ [⟨p.fresh, List.replicate size default, true⟩]
            fresh := p.fresh + 1 },
          .ok ⟨p.fresh, List.replicate size default, size⟩)) ∨
    ((∀ e ∈ p.entries, e.held = true ∨ e.capacity < size) ∧ p.limit < size ∧
      p.acquire size = (p, .error .badLength)) := by
  unfold acquire
  cases found : take? size p.entries with
  | some pair =>
    obtain ⟨e, entries⟩ := pair
    obtain ⟨before, after, same, rfl, free, large⟩ := take?_some found
    refine .inl ⟨before, e, after, same, free, by omega, ?_⟩
    simp
  | none =>
    have busy : ∀ e ∈ p.entries, e.held = true ∨ e.capacity < size := fun e member =>
      (take?_none found e member).imp_right fun small => by omega
    by_cases large : p.limit < size
    · refine .inr (.inr ⟨busy, large, ?_⟩)
      have refused : (size : Int) < 0 ∨ (p.limit : Int) < size := by omega
      simp only [allocate, if_pos refused]
    · refine .inr (.inl ⟨busy, by omega, ?_⟩)
      have granted : ¬ ((size : Int) < 0 ∨ (p.limit : Int) < size) := by omega
      simp only [allocate, if_neg granted, Int.toNat_natCast]

theorem allocate_cases (p : BufferPool α) (size : Nat) :
    p.allocate size = ({ p with fresh := p.fresh + 1 },
      .ok ⟨p.fresh, List.replicate size default, size⟩) ∨
    p.limit < size ∧ p.allocate size = (p, .error .badLength) := by
  by_cases large : p.limit < size
  · have refused : (size : Int) < 0 ∨ (p.limit : Int) < size := by omega
    exact .inr ⟨large, by simp only [allocate, if_pos refused]⟩
  · have granted : ¬ ((size : Int) < 0 ∨ (p.limit : Int) < size) := by omega
    exact .inl (by simp only [allocate, if_neg granted, Int.toNat_natCast])

omit [Inhabited α] in
theorem release_cases (p : BufferPool α) (b : Buffer α) :
    (∃ before e after, p.entries = before ++ e :: after ∧ Recognises e b ∧ e.held = true ∧
      p.release b = ({ p with entries := before ++ freed b e :: after }, none)) ∨
    (∃ e ∈ p.entries, Recognises e b ∧ e.held = false ∧ p.release b = (p, some .notHeld)) ∨
    ((∀ e ∈ p.entries, ¬ Recognises e b) ∧ p.release b = (p, some .notOwned)) := by
  unfold release
  obtain ⟨none, result⟩ | ⟨before, e, after, same, recognised, result⟩ :=
    giveBack_cases b p.entries
  · exact .inr (.inr ⟨none, by rw [result]⟩)
  · rw [result]
    cases held : e.held with
    | true => exact .inl ⟨before, e, after, same, recognised, held, rfl⟩
    | false => exact .inr (.inl ⟨e, by simp [same], recognised, held, rfl⟩)

omit [Inhabited α] in
theorem firstHeld?_eq_none_iff (p : BufferPool α) :
    p.firstHeld? = none ↔ ∀ e ∈ p.entries, e.held = false := by
  have entries : p.entries.zipIdx.map Prod.fst = p.entries := List.zipIdx_map_fst 0 p.entries
  rw [firstHeld?, Option.map_eq_none_iff, List.find?_eq_none]
  constructor
  · intro free e member
    rw [← entries] at member
    obtain ⟨x, isEntry, rfl⟩ := List.mem_map.mp member
    exact Bool.eq_false_iff.mpr (free x isEntry)
  · intro free x isEntry
    rw [free x.1 (List.fst_mem_of_mem_zipIdx isEntry)]
    exact Bool.false_ne_true

end BufferPool

/-! ### Runs -/

/-- A pool in a run of calls: the buffers made so far, by the pool or elsewhere, and those that
are held, which were acquired and not given back since. -/
structure Lending (α : Type) where
  pool : BufferPool α
  made : List (Buffer α)
  held : List (Buffer α)

inductive PoolCall (α : Type) where
  | acquire (size : Nat)
  /-- A buffer is made elsewhere. -/
  | foreign (size : Nat)
  | release (b : Buffer α)

namespace Lending

def start (pool : BufferPool α) : Lending α :=
  ⟨pool, [], []⟩

/-- Only buffers that were made can be given back, in any stretch. -/
def Allows (w : Lending α) : PoolCall α → Prop
  | .release b => ∃ m ∈ w.made, b.Slices m
  | _ => True

def after [Inhabited α] (w : Lending α) : PoolCall α → Lending α
  | .acquire size =>
    match w.pool.acquire size with
    | (pool, .ok b) => ⟨pool, b :: w.made, b :: w.held⟩
    | (pool, .error _) => { w with pool }
  | .foreign size =>
    match w.pool.allocate size with
    | (pool, .ok b) => { w with pool, made := b :: w.made }
    | (pool, .error _) => { w with pool }
  | .release b =>
    match w.pool.release b with
    | (pool, none) => { w with pool, held := w.held.filter (·.storage ≠ b.storage) }
    | (pool, some _) => { w with pool }

theorem after_acquire [Inhabited α] {w : Lending α} {size : Nat} {pool : BufferPool α}
    {b : Buffer α} (acquired : w.pool.acquire size = (pool, .ok b)) :
    w.after (.acquire size) = ⟨pool, b :: w.made, b :: w.held⟩ := by
  rw [after, acquired]

theorem after_release [Inhabited α] {w : Lending α} {b : Buffer α}
    (done : (w.pool.release b).2 = none) :
    w.after (.release b) =
      ⟨(w.pool.release b).1, w.made, w.held.filter (·.storage ≠ b.storage)⟩ := by
  rw [after]
  split
  · rename_i result
    rw [result]
  · rename_i result
    rw [result] at done
    cases done

/-! ### What a run keeps -/

/-- There is one entry for each storage, none longer than the limit, all of storage that is in use,
and as long as the buffers made of it. -/
structure Ordered (pool : BufferPool α) (made : List (Buffer α)) : Prop where
  distinct : (pool.entries.map PoolEntry.storage).Nodup
  within : ∀ e ∈ pool.entries, e.capacity ≤ pool.limit
  used : ∀ e ∈ pool.entries, e.storage < pool.fresh
  known : ∀ m ∈ made, m.storage < pool.fresh ∧
    ∀ e ∈ pool.entries, e.storage = m.storage → e.capacity = m.capacity

/-- The storages that are marked as held. -/
def marked (entries : List (PoolEntry α)) : List Nat :=
  (entries.filter PoolEntry.held).map PoolEntry.storage

/-- The marks of the pool are the storages that are held. -/
structure Sound (w : Lending α) : Prop extends Ordered w.pool w.made where
  marks : (marked w.pool.entries).Perm (w.held.map Buffer.storage)

theorem sound_start (limit : Nat) : (start (.empty limit : BufferPool α)).Sound where
  distinct := List.nodup_nil
  within := fun _ member => absurd member List.not_mem_nil
  used := fun _ member => absurd member List.not_mem_nil
  known := fun _ member => absurd member List.not_mem_nil
  marks := .nil

namespace Ordered

variable {pool : BufferPool α} {made : List (Buffer α)}

theorem eq_of_storage (ordered : Ordered pool made) {e e' : PoolEntry α}
    (member : e ∈ pool.entries) (member' : e' ∈ pool.entries)
    (same : e.storage = e'.storage) : e = e' :=
  List.inj_on_of_nodup_map ordered.distinct member member' same

theorem replace {before after : List (PoolEntry α)} {e e' : PoolEntry α}
    (ordered : Ordered pool made) (split : pool.entries = before ++ e :: after)
    (storage : e'.storage = e.storage) (capacity : e'.capacity = e.capacity) :
    Ordered { pool with entries := before ++ e' :: after } made := by
  have like : ∀ x ∈ before ++ e' :: after, ∃ y ∈ pool.entries,
      x.storage = y.storage ∧ x.capacity = y.capacity := by
    intro x member
    rw [split]
    rcases List.mem_append.mp member with early | late
    · exact ⟨x, by simp [early], rfl, rfl⟩
    · rcases List.mem_cons.mp late with rfl | later
      · exact ⟨e, by simp, storage, capacity⟩
      · exact ⟨x, by simp [later], rfl, rfl⟩
  refine ⟨?_, ?_, ?_, ?_⟩
  · have distinct := ordered.distinct
    rw [split] at distinct
    simpa [storage] using distinct
  · intro x member
    obtain ⟨y, old, -, same⟩ := like x member
    exact same ▸ ordered.within y old
  · intro x member
    obtain ⟨y, old, same, -⟩ := like x member
    exact same ▸ ordered.used y old
  · intro m isMade
    refine ⟨(ordered.known m isMade).1, fun x member shared => ?_⟩
    obtain ⟨y, old, sameStorage, sameCapacity⟩ := like x member
    rw [sameCapacity]
    exact (ordered.known m isMade).2 y old (sameStorage ▸ shared)

/-- A buffer that is known from now on. -/
theorem learn {b : Buffer α} (ordered : Ordered pool made) (used : b.storage < pool.fresh)
    (agrees : ∀ e ∈ pool.entries, e.storage = b.storage → e.capacity = b.capacity) :
    Ordered pool (b :: made) := by
  refine ⟨ordered.distinct, ordered.within, ordered.used, fun m member => ?_⟩
  rcases List.mem_cons.mp member with rfl | old
  · exact ⟨used, agrees⟩
  · exact ordered.known m old

/-- New storage, which belongs to no entry. -/
theorem grow (ordered : Ordered pool made) (contents : List α) (capacity : Nat) :
    Ordered { pool with fresh := pool.fresh + 1 } (⟨pool.fresh, contents, capacity⟩ :: made) := by
  have grown : Ordered { pool with fresh := pool.fresh + 1 } made := by
    refine ⟨ordered.distinct, ordered.within, fun e member => ?_, fun m member => ?_⟩
    · exact Nat.lt_succ_of_lt (ordered.used e member)
    · exact (ordered.known m member).imp_left Nat.lt_succ_of_lt
  refine grown.learn (Nat.lt_succ_self _) fun e member same => ?_
  have := ordered.used e member
  have : e.storage = pool.fresh := same
  omega

/-- New storage with an entry of its own. -/
theorem adopt (ordered : Ordered pool made) (contents : List α) {size : Nat}
    (length : contents.length = size) (fits : size ≤ pool.limit) :
    Ordered { pool with
        entries := pool.entries ++ [⟨pool.fresh, contents, true⟩]
        fresh := pool.fresh + 1 }
      (⟨pool.fresh, contents, size⟩ :: made) := by
  have grown := ordered.grow contents size
  refine ⟨?_, ?_, ?_, fun m isMade => ⟨(grown.known m isMade).1, ?_⟩⟩
  · rw [List.map_append, List.nodup_append]
    refine ⟨ordered.distinct, by simp, ?_⟩
    intro a old b new
    obtain ⟨e, member, rfl⟩ := List.mem_map.mp old
    rw [List.mem_singleton.mp new]
    exact Nat.ne_of_lt (ordered.used e member)
  · intro e member
    rcases List.mem_append.mp member with old | new
    · exact ordered.within e old
    · rw [List.mem_singleton.mp new]
      show contents.length ≤ pool.limit
      omega
  · intro e member
    rcases List.mem_append.mp member with old | new
    · exact grown.used e old
    · rw [List.mem_singleton.mp new]
      exact Nat.lt_succ_self _
  · intro e member same
    rcases List.mem_append.mp member with old | new
    · exact (grown.known m isMade).2 e old same
    · obtain rfl := List.mem_singleton.mp new
      rcases List.mem_cons.mp isMade with rfl | before
      · exact length
      · have := (ordered.known m before).1
        have : pool.fresh = m.storage := same
        omega

theorem marked_nodup (ordered : Ordered pool made) : (marked pool.entries).Nodup :=
  ordered.distinct.sublist (List.filter_sublist.map PoolEntry.storage)

end Ordered

/-! ### Marks -/

theorem marked_held {before after : List (PoolEntry α)} {e : PoolEntry α} (isHeld : e.held = true) :
    (marked (before ++ e :: after)).Perm (e.storage :: marked (before ++ after)) := by
  simp only [marked, List.filter_append, List.filter_cons, isHeld, if_true, List.map_append,
    List.map_cons]
  exact List.perm_middle

theorem marked_free {before after : List (PoolEntry α)} {e : PoolEntry α}
    (isFree : e.held = false) : marked (before ++ e :: after) = marked (before ++ after) := by
  simp [marked, isFree]

theorem mem_marked {entries : List (PoolEntry α)} {storage : Nat} :
    storage ∈ marked entries ↔ ∃ e ∈ entries, e.held = true ∧ e.storage = storage := by
  simp [marked, and_assoc]

variable {w : Lending α}

theorem Sound.mem_held (sound : w.Sound) {storage : Nat} :
    (∃ h ∈ w.held, h.storage = storage) ↔
      ∃ e ∈ w.pool.entries, e.held = true ∧ e.storage = storage := by
  rw [← List.mem_map, ← sound.marks.mem_iff, mem_marked]

theorem Sound.apart (sound : w.Sound) :
    w.held.Pairwise fun a b => a.storage ≠ b.storage :=
  List.pairwise_map.mp (sound.marks.nodup_iff.mp sound.marked_nodup)

/-- Of a buffer that was made, the pool knows whether its storage is held. -/
theorem Sound.release_iff (sound : w.Sound) {b : Buffer α} (known : w.Allows (.release b))
    (positive : 0 < b.capacity) :
    (w.pool.release b).2 = none ↔ ∃ h ∈ w.held, h.storage = b.storage := by
  rw [sound.mem_held]
  constructor
  · intro done
    obtain ⟨before, e, after, split, recognised, isHeld, -⟩ | ⟨e, -, -, -, result⟩ | ⟨-, result⟩ :=
      w.pool.release_cases b
    · exact ⟨e, by simp [split], isHeld, recognised.2.2⟩
    · rw [result] at done
      cases done
    · rw [result] at done
      cases done
  · rintro ⟨e, member, isHeld, same⟩
    obtain ⟨m, made, slices⟩ := known
    have recognised : BufferPool.Recognises e b := by
      have capacity := (sound.known m made).2 e member (same.trans slices.storage)
      have := slices.capacity
      exact ⟨by omega, positive, same⟩
    obtain ⟨_, _, _, _, _, _, result⟩ | ⟨e', member', recognised', isFree, -⟩ | ⟨none, -⟩ :=
      w.pool.release_cases b
    · rw [result]
    · -- Another entry of the same storage would be the same entry.
      have twin := sound.eq_of_storage member member' (same.trans recognised'.2.2.symm)
      rw [twin, isFree] at isHeld
      cases isHeld
    · exact absurd recognised (none e member)

/-! ### Steps -/

theorem Sound.give (sound : w.Sound) {b : Buffer α} (known : w.Allows (.release b))
    {before after : List (PoolEntry α)} {e : PoolEntry α}
    (split : w.pool.entries = before ++ e :: after) (recognised : BufferPool.Recognises e b)
    (isHeld : e.held = true) :
    Sound ⟨{ w.pool with entries := before ++ BufferPool.freed b e :: after }, w.made,
      w.held.filter (·.storage ≠ b.storage)⟩ := by
  have member : e ∈ w.pool.entries := by simp [split]
  obtain ⟨m, made, slices⟩ := known
  have fits : b.contents.length ≤ e.capacity := by
    rw [(sound.known m made).2 e member (recognised.2.2.trans slices.storage)]
    exact slices.fits
  refine ⟨sound.replace split rfl (BufferPool.capacity_freed fits), ?_⟩
  have marks := (marked_held isHeld).symm.trans (split ▸ sound.marks)
  have nodup := (marked_held isHeld).nodup_iff.mp (split ▸ sound.marked_nodup)
  have others := marks.filter (· ≠ b.storage)
  -- The storage is marked once, so without it all other marks remain.
  have rest : (e.storage :: marked (before ++ after)).filter (· ≠ b.storage) =
      marked (before ++ after) := by
    rw [recognised.2.2] at nodup ⊢
    rw [List.filter_cons_of_neg (by simp), List.filter_eq_self]
    intro storage isMarked
    have := ne_of_mem_of_not_mem isMarked (List.nodup_cons.mp nodup).1
    simpa using this
  rw [rest, List.filter_map] at others
  have isFree : (BufferPool.freed b e).held = false := rfl
  exact (marked_free isFree).symm ▸ others

variable [Inhabited α]

theorem Sound.after (sound : w.Sound) (call : PoolCall α) (allowed : w.Allows call) :
    (w.after call).Sound := by
  cases call with
  | acquire size =>
    obtain ⟨before, e, later, split, isFree, large, result⟩ | ⟨-, small, result⟩ |
      ⟨-, -, result⟩ := w.pool.acquire_cases size
    · have member : e ∈ w.pool.entries := by simp [split]
      let e' : PoolEntry α := { e with held := true }
      have replaced : Ordered { w.pool with entries := before ++ e' :: later } w.made :=
        sound.replace split rfl rfl
      rw [Lending.after, result]
      refine ⟨replaced.learn (sound.used e member) fun x isEntry same => ?_, ?_⟩
      · obtain rfl : x = e' := replaced.eq_of_storage isEntry (by simp) same
        rfl
      · refine (marked_held rfl).trans (.cons _ ?_)
        rw [← marked_free isFree, ← split]
        exact sound.marks
    · rw [Lending.after, result]
      refine ⟨sound.adopt _ List.length_replicate small, (marked_held rfl).trans (.cons _ ?_)⟩
      rw [List.append_nil]
      exact sound.marks
    · rw [Lending.after, result]
      exact sound
  | foreign size =>
    obtain result | ⟨-, result⟩ := w.pool.allocate_cases size
    · rw [Lending.after, result]
      exact ⟨sound.grow _ size, sound.marks⟩
    · rw [Lending.after, result]
      exact sound
  | release b =>
    obtain ⟨before, e, after, split, recognised, isHeld, result⟩ | ⟨-, -, -, -, result⟩ |
      ⟨-, result⟩ := w.pool.release_cases b
    · rw [Lending.after, result]
      exact sound.give allowed split recognised isHeld
    · rw [Lending.after, result]
      exact sound
    · rw [Lending.after, result]
      exact sound

theorem limit_after (w : Lending α) (call : PoolCall α) :
    (w.after call).pool.limit = w.pool.limit := by
  cases call with
  | acquire size =>
    obtain ⟨_, _, _, _, _, _, result⟩ | ⟨_, _, result⟩ | ⟨_, _, result⟩ :=
      w.pool.acquire_cases size <;> rw [after, result]
  | foreign size =>
    obtain result | ⟨_, result⟩ := w.pool.allocate_cases size <;> rw [after, result]
  | release b =>
    obtain ⟨_, _, _, _, _, _, result⟩ | ⟨_, _, _, _, result⟩ | ⟨_, result⟩ :=
      w.pool.release_cases b <;> rw [after, result]

/-! ### Exclusive ownership -/

/-- What holders of buffers rely on, in a pool whose buffers are at most `limit` long. -/
structure Exclusive (limit : Nat) (w : Lending α) : Prop where
  acquires : ∀ size, size ≤ limit → ∃ pool b, w.pool.acquire size = (pool, .ok b) ∧
    b.contents.length = size ∧ ∀ h ∈ w.held, h.storage ≠ b.storage
  refuses : ∀ size, limit < size → w.pool.acquire size = (w.pool, .error .badLength)
  apart : w.held.Pairwise fun a b => a.storage ≠ b.storage
  releases : ∀ b, w.Allows (.release b) → 0 < b.capacity →
    ((w.pool.release b).2 = none ↔ ∃ h ∈ w.held, h.storage = b.storage) ∧
    ((w.pool.release b).2 = none → ∀ h ∈ (w.after (.release b)).held, h.storage ≠ b.storage)

theorem Sound.acquires (sound : w.Sound) {size : Nat} (small : size ≤ w.pool.limit) :
    ∃ pool b, w.pool.acquire size = (pool, .ok b) ∧ b.contents.length = size ∧
      size ≤ b.capacity ∧ ∀ h ∈ w.held, h.storage ≠ b.storage := by
  have apart : (w.after (.acquire size)).held.Pairwise fun a b => a.storage ≠ b.storage :=
    Sound.apart (sound.after (.acquire size) trivial)
  obtain ⟨before, e, later, split, isFree, large, result⟩ | ⟨-, -, result⟩ | ⟨-, large, -⟩ :=
    w.pool.acquire_cases size
  · rw [after_acquire result] at apart
    exact ⟨_, _, result, List.length_take_of_le large, large,
      fun h isHeld => (List.rel_of_pairwise_cons apart isHeld).symm⟩
  · rw [after_acquire result] at apart
    exact ⟨_, _, result, List.length_replicate, Nat.le_refl size,
      fun h isHeld => (List.rel_of_pairwise_cons apart isHeld).symm⟩
  · omega

theorem Sound.refuses (sound : w.Sound) {size : Nat} (large : w.pool.limit < size) :
    w.pool.acquire size = (w.pool, .error .badLength) := by
  obtain ⟨before, e, later, split, -, fits, -⟩ | ⟨-, small, -⟩ | ⟨-, -, result⟩ :=
    w.pool.acquire_cases size
  · have := sound.within e (by simp [split])
    omega
  · omega
  · exact result

theorem Sound.exclusive (sound : w.Sound) : w.Exclusive w.pool.limit where
  acquires := by
    intro size small
    obtain ⟨pool, b, acquired, length, -, apart⟩ := sound.acquires small
    exact ⟨pool, b, acquired, length, apart⟩
  refuses := fun _ => sound.refuses
  apart := sound.apart
  releases := by
    intro b known positive
    refine ⟨sound.release_iff known positive, fun done h isHeld => ?_⟩
    rw [after_release done] at isHeld
    simpa using (List.mem_filter.mp isHeld).2

omit [Inhabited α] in
theorem Sound.firstHeld?_eq_none_iff (sound : w.Sound) :
    w.pool.firstHeld? = none ↔ w.held = [] := by
  rw [BufferPool.firstHeld?_eq_none_iff]
  constructor
  · intro free
    refine List.eq_nil_iff_forall_not_mem.mpr fun h isHeld => ?_
    obtain ⟨e, member, isMarked, -⟩ := sound.mem_held.mp ⟨h, isHeld, rfl⟩
    rw [free e member] at isMarked
    cases isMarked
  · intro nothing e member
    refine Bool.eq_false_iff.mpr fun isMarked => ?_
    obtain ⟨h, isHeld, -⟩ := sound.mem_held.mpr ⟨e, member, isMarked, rfl⟩
    rw [nothing] at isHeld
    cases isHeld

/-- From a pool of which nothing is held, a buffer can be had, written and given back. -/
theorem Sound.borrow (sound : w.Sound) (nothing : w.held = []) {size : Nat} (positive : 0 < size)
    (small : size ≤ w.pool.limit) :
    ∃ pool b, w.pool.acquire size = (pool, .ok b) ∧ ∀ contents, contents.length = size →
      ∃ w' : Lending α, pool.release { b with contents } = (w'.pool, none) ∧ w'.Sound ∧
        w'.held = [] ∧ w'.pool.limit = w.pool.limit := by
  obtain ⟨pool, b, acquired, -, large, -⟩ := sound.acquires small
  have soundLent := sound.after (.acquire size) trivial
  have sameLimit := limit_after w (.acquire size)
  rw [after_acquire acquired, nothing] at soundLent sameLimit
  refine ⟨pool, b, acquired, fun contents length => ?_⟩
  let lent : Lending α := ⟨pool, b :: w.made, [b]⟩
  let given : Buffer α := { b with contents }
  have allowed : lent.Allows (.release given) := by
    refine ⟨b, List.mem_cons_self, rfl, rfl, ?_⟩
    show contents.length ≤ b.capacity
    omega
  have done : (lent.pool.release given).2 = none := by
    refine (soundLent.release_iff allowed ?_).mpr ⟨b, List.mem_singleton_self b, rfl⟩
    show 0 < b.capacity
    omega
  have soundFree := soundLent.after (.release given) allowed
  have freeLimit := limit_after lent (.release given)
  rw [after_release done] at soundFree freeLimit
  refine ⟨_, ?_, soundFree, ?_, freeLimit.trans sameLimit⟩
  · exact Prod.ext rfl done
  · simp [lent, given]

end Lending

/-! ### Both pools -/

/-- The two pools of a scratch pool, each in its run of calls. -/
structure ScratchLending where
  points : Lending Point
  floats : Lending Single

namespace ScratchLending

def start : ScratchLending :=
  ⟨.start ScratchPool.empty.points, .start ScratchPool.empty.floats⟩

def pool (s : ScratchLending) : ScratchPool :=
  ⟨s.points.pool, s.floats.pool⟩

/-- The states that runs of allowed calls lead to, in any order. -/
inductive Reached : ScratchLending → Prop
  | start : Reached start
  | points {s : ScratchLending} (call : PoolCall Point) : Reached s → s.points.Allows call →
    Reached { s with points := s.points.after call }
  | floats {s : ScratchLending} (call : PoolCall Single) : Reached s → s.floats.Allows call →
    Reached { s with floats := s.floats.after call }

theorem Reached.sound {s : ScratchLending} (reached : s.Reached) :
    (s.points.Sound ∧ s.points.pool.limit = ScratchPool.empty.points.limit) ∧
      s.floats.Sound ∧ s.floats.pool.limit = ScratchPool.empty.floats.limit := by
  induction reached with
  | start => exact ⟨⟨Lending.sound_start _, rfl⟩, Lending.sound_start _, rfl⟩
  | points call _ allowed ih =>
    exact ⟨⟨ih.1.1.after call allowed, (Lending.limit_after _ call).trans ih.1.2⟩, ih.2⟩
  | floats call _ allowed ih =>
    exact ⟨ih.1, ih.2.1.after call allowed, (Lending.limit_after _ call).trans ih.2.2⟩

end ScratchLending

/-- Whatever was acquired, made elsewhere and given back before, in either pool and any order: a
buffer of any length up to the limit is to be had, and none beyond it; no two holders share storage;
a buffer with storage can be given back exactly while its storage is held, which it then no longer
is; and nothing is reported as unreleased exactly when nothing is held. -/
theorem pool_ownership_exclusive (s : ScratchLending) (reached : s.Reached) :
    s.points.Exclusive ScratchPool.empty.points.limit ∧
      s.floats.Exclusive ScratchPool.empty.floats.limit ∧
      (s.pool.unreleased? = none ↔ s.points.held = [] ∧ s.floats.held = []) := by
  obtain ⟨⟨points, pointLimit⟩, floats, floatLimit⟩ := reached.sound
  refine ⟨pointLimit ▸ points.exclusive, floatLimit ▸ floats.exclusive, ?_⟩
  rw [← points.firstHeld?_eq_none_iff, ← floats.firstHeld?_eq_none_iff]
  unfold ScratchPool.unreleased? ScratchLending.pool
  cases s.points.pool.firstHeld? with
  | some held => simp
  | none => simp

/-- A buffer of eight numbers, given back and lent again in a shorter stretch. -/
def ScratchLending.relent : ScratchLending where
  points := .start ScratchPool.empty.points
  floats :=
    (((Lending.start ScratchPool.empty.floats).after (.acquire 8)).after
      (.release ⟨0, List.replicate 8 0, 8⟩)).after (.acquire 6)

theorem relent_ownership_exclusive :
    ScratchLending.relent.Reached ∧
      ScratchLending.relent.points.Exclusive ScratchPool.empty.points.limit ∧
      ScratchLending.relent.floats.Exclusive ScratchPool.empty.floats.limit ∧
      (ScratchLending.relent.pool.unreleased? = none ↔
        ScratchLending.relent.points.held = [] ∧ ScratchLending.relent.floats.held = []) := by
  have reached : ScratchLending.relent.Reached := by
    refine .floats (.acquire 6) (.floats (.release ⟨0, List.replicate 8 0, 8⟩)
      (.floats (.acquire 8) .start trivial) ?_) trivial
    exact ⟨⟨0, List.replicate 8 default, 8⟩, List.mem_cons_self, rfl, rfl, by decide⟩
  exact ⟨reached, pool_ownership_exclusive _ reached⟩

/-- Not every length is that of a buffer. -/
theorem acquire_of_no_length :
    ScratchPool.empty.points.acquire 4611686018427387904 =
        (ScratchPool.empty.points, .error .badLength) ∧
      ¬ ∀ size : Nat, ∃ pool b, ScratchPool.empty.points.acquire size = (pool, .ok b) ∧
        b.contents.length = size := by
  have refused : ScratchPool.empty.points.acquire (4611686018427387904 : Nat) =
      (ScratchPool.empty.points, .error .badLength) :=
    (Lending.sound_start _).refuses (by decide)
  refine ⟨refused, fun always => ?_⟩
  obtain ⟨pool, b, acquired, -⟩ := always 4611686018427387904
  rw [refused] at acquired
  cases acquired

end EscapeTime
