import EscapeTime.Proofs.Orbit.Pool

/-!
# Failed requests

A request that fails should be as if it had not been made. `failed_requests_leave_pool`: so it is,
unless a negative size is asked for while a buffer is free, and then the first free buffer is marked
as held.
-/

namespace EscapeTime

variable {α : Type}

/-- What a pool is asked for, of any size. -/
inductive PoolRequest (α : Type) where
  | acquire (size : Int)
  /-- A buffer is made elsewhere. -/
  | foreign (size : Nat)
  | release (b : Buffer α)

namespace BufferPool

/-! ### The first free entry -/

/-- The entries with the first that is free between those before and after it. -/
structure FirstFree (entries before : List (PoolEntry α)) (e : PoolEntry α)
    (after : List (PoolEntry α)) : Prop where
  split : entries = before ++ e :: after
  busy : ∀ x ∈ before, x.held = true
  free : e.held = false

theorem FirstFree.mem {entries before after : List (PoolEntry α)} {e : PoolEntry α}
    (first : FirstFree entries before e after) : e ∈ entries := by
  simp [first.split]

/-- Every entry is large enough for a negative size, so the first free one is taken. -/
theorem take?_of_neg {size : Int} (negative : size < 0) (entries : List (PoolEntry α)) :
    ((∀ e ∈ entries, e.held = true) ∧ take? size entries = none) ∨
    ∃ before e after, FirstFree entries before e after ∧
      take? size entries = some (e, before ++ { e with held := true } :: after) := by
  induction entries with
  | nil => exact .inl ⟨fun e member => absurd member List.not_mem_nil, rfl⟩
  | cons first rest ih =>
    rw [take?]
    cases held : first.held with
    | false =>
      have large : size ≤ first.capacity := by omega
      refine .inr ⟨[], first, rest, ⟨rfl, fun x member => absurd member List.not_mem_nil, held⟩, ?_⟩
      simp [large]
    | true =>
      simp only [Bool.not_true, Bool.false_and, Bool.false_eq_true, if_false]
      obtain ⟨busy, result⟩ | ⟨before, e, after, free, result⟩ := ih
      · exact .inl ⟨List.forall_mem_cons.mpr ⟨held, busy⟩, by rw [result]; rfl⟩
      · refine .inr ⟨first :: before, e, after, ⟨?_, ?_, free.free⟩, by rw [result]; rfl⟩
        · rw [free.split, List.cons_append]
        · exact List.forall_mem_cons.mpr ⟨held, free.busy⟩

/-- The other pool is this one with its first free buffer marked as held. -/
def MarksFirst (p p' : BufferPool α) : Prop :=
  ∃ before e after, FirstFree p.entries before e after ∧
    p' = { p with entries := before ++ { e with held := true } :: after }

theorem MarksFirst.ne {p p' : BufferPool α} (marks : p.MarksFirst p') : p' ≠ p := by
  obtain ⟨before, e, after, first, rfl⟩ := marks
  intro same
  have entries := (congrArg entries same).trans first.split
  have entry := (List.cons.inj (List.append_cancel_left entries)).1
  have held : true = e.held := congrArg PoolEntry.held entry
  rw [first.free] at held
  cases held

/-! ### Requests -/

/-- The request has a negative size, and a buffer is free. -/
def Strays (p : BufferPool α) : PoolRequest α → Prop
  | .acquire size => size < 0 ∧ ∃ e ∈ p.entries, e.held = false
  | .foreign _ | .release _ => False

variable [Inhabited α]

theorem acquire_of_neg (p : BufferPool α) {size : Int} (negative : size < 0) :
    ((∀ e ∈ p.entries, e.held = true) ∧ p.acquire size = (p, .error .badLength)) ∨
    ∃ before e after, FirstFree p.entries before e after ∧
      p.acquire size = ({ p with entries := before ++ { e with held := true } :: after },
        .error (.badSlice size)) := by
  unfold acquire
  obtain ⟨busy, result⟩ | ⟨before, e, after, first, result⟩ := take?_of_neg negative p.entries
  · refine .inl ⟨busy, ?_⟩
    have refused : size < 0 ∨ (p.limit : Int) < size := .inl negative
    rw [result]
    simp only [allocate, if_pos refused]
  · refine .inr ⟨before, e, after, first, ?_⟩
    rw [result]
    simp only [if_pos negative]

/-- What the pool answers, and the pool after it. -/
def serve (p : BufferPool α) :
    PoolRequest α → BufferPool α × Except PoolFault (Option (Buffer α))
  | .acquire size => ((p.acquire size).1, (p.acquire size).2.map some)
  | .foreign size => ((p.allocate size).1, (p.allocate size).2.map some)
  | .release b => ((p.release b).1, (p.release b).2.elim (.ok none) .error)

theorem serve_of_strays {p : BufferPool α} {r : PoolRequest α} (strays : p.Strays r) :
    (∃ fault, (p.serve r).2 = .error fault) ∧ p.MarksFirst (p.serve r).1 := by
  cases r with
  | foreign size => exact strays.elim
  | release b => exact strays.elim
  | acquire size =>
    obtain ⟨negative, e, member, free⟩ := strays
    obtain ⟨busy, -⟩ | ⟨before, e, after, first, result⟩ := p.acquire_of_neg negative
    · rw [busy e member] at free
      cases free
    · rw [serve, result]
      exact ⟨⟨.badSlice size, rfl⟩, before, e, after, first, rfl⟩

theorem serve_failed {p : BufferPool α} {r : PoolRequest α} {fault : PoolFault}
    (failed : (p.serve r).2 = .error fault) (keeps : ¬ p.Strays r) : (p.serve r).1 = p := by
  cases r with
  | foreign size =>
    obtain result | ⟨-, result⟩ := p.allocate_cases size
    · rw [serve, result] at failed
      cases failed
    · rw [serve, result]
  | release b =>
    obtain ⟨_, _, _, _, _, _, result⟩ | ⟨_, _, _, _, result⟩ | ⟨_, result⟩ := p.release_cases b
    · rw [serve, result] at failed
      cases failed
    · rw [serve, result]
    · rw [serve, result]
  | acquire size =>
    by_cases negative : size < 0
    · obtain ⟨-, result⟩ | ⟨_, e, _, first, -⟩ := p.acquire_of_neg negative
      · rw [serve, result]
      · exact absurd ⟨negative, e, first.mem, first.free⟩ keeps
    · obtain ⟨n, rfl⟩ := Int.eq_ofNat_of_zero_le (Int.not_lt.mp negative)
      obtain ⟨_, _, _, _, _, _, result⟩ | ⟨_, _, result⟩ | ⟨_, _, result⟩ := p.acquire_cases n
      · rw [serve, result] at failed
        cases failed
      · rw [serve, result] at failed
        cases failed
      · rw [serve, result]

end BufferPool

/-! ### Runs of requests -/

/-- A request to one of the two pools, or the question what is held. -/
inductive ScratchRequest where
  | points (r : PoolRequest Point)
  | floats (r : PoolRequest Single)
  | report

inductive ScratchReply where
  | points (reply : Except PoolFault (Option (Buffer Point)))
  | floats (reply : Except PoolFault (Option (Buffer Single)))
  | report (unreleased : Option String)

def ScratchReply.failed : ScratchReply → Bool
  | points (.error _) | floats (.error _) => true
  | _ => false

namespace ScratchPool

def serve (p : ScratchPool) : ScratchRequest → ScratchPool × ScratchReply
  | .points r => ({ p with points := (p.points.serve r).1 }, .points (p.points.serve r).2)
  | .floats r => ({ p with floats := (p.floats.serve r).1 }, .floats (p.floats.serve r).2)
  | .report => (p, .report p.unreleased?)

def Strays (p : ScratchPool) : ScratchRequest → Prop
  | .points r => p.points.Strays r
  | .floats r => p.floats.Strays r
  | .report => False

/-- In one of the two pools the first free buffer is now marked as held. -/
inductive MarksFirst (p : ScratchPool) : ScratchPool → Prop
  | points {points : BufferPool Point} :
    p.points.MarksFirst points → MarksFirst p { p with points }
  | floats {floats : BufferPool Single} :
    p.floats.MarksFirst floats → MarksFirst p { p with floats }

theorem MarksFirst.ne {p p' : ScratchPool} (marks : p.MarksFirst p') : p' ≠ p := by
  cases marks with
  | points marks => exact fun same => marks.ne (congrArg ScratchPool.points same)
  | floats marks => exact fun same => marks.ne (congrArg ScratchPool.floats same)

variable {p : ScratchPool} {r : ScratchRequest}

theorem serve_of_strays (strays : p.Strays r) :
    (p.serve r).2.failed = true ∧ p.MarksFirst (p.serve r).1 := by
  cases r with
  | points r =>
    obtain ⟨⟨fault, failed⟩, marks⟩ := BufferPool.serve_of_strays strays
    exact ⟨by rw [serve, failed]; rfl, .points marks⟩
  | floats r =>
    obtain ⟨⟨fault, failed⟩, marks⟩ := BufferPool.serve_of_strays strays
    exact ⟨by rw [serve, failed]; rfl, .floats marks⟩
  | report => exact strays.elim

theorem serve_failed (failed : (p.serve r).2.failed = true) (keeps : ¬ p.Strays r) :
    (p.serve r).1 = p := by
  cases r with
  | points r =>
    rw [serve] at failed ⊢
    cases reply : (p.points.serve r).2 with
    | ok => rw [reply] at failed; cases failed
    | error fault => rw [BufferPool.serve_failed reply keeps]
  | floats r =>
    rw [serve] at failed ⊢
    cases reply : (p.floats.serve r).2 with
    | ok => rw [reply] at failed; cases failed
    | error fault => rw [BufferPool.serve_failed reply keeps]
  | report => rfl

/-- The pool after a run of requests, and the replies in order. -/
def run (p : ScratchPool) : List ScratchRequest → ScratchPool × List ScratchReply
  | [] => (p, [])
  | r :: rs =>
    let later := run (p.serve r).1 rs
    (later.1, (p.serve r).2 :: later.2)

/-- The requests of a run that do not fail in it. -/
def served (p : ScratchPool) : List ScratchRequest → List ScratchRequest
  | [] => []
  | r :: rs =>
    let later := served (p.serve r).1 rs
    if (p.serve r).2.failed then later else r :: later

/-- No request of the run has a negative size while a buffer is free. -/
def Careful (p : ScratchPool) : List ScratchRequest → Prop
  | [] => True
  | r :: rs => ¬ p.Strays r ∧ Careful (p.serve r).1 rs

/-- In a careful run the failed requests could be left out: all others get the same replies. -/
theorem run_served {rs : List ScratchRequest} (careful : p.Careful rs) :
    p.run (p.served rs) = ((p.run rs).1, (p.run rs).2.filter fun reply => !reply.failed) := by
  induction rs generalizing p with
  | nil => rfl
  | cons r rs ih =>
    obtain ⟨keeps, careful⟩ := careful
    have later := ih careful
    cases failed : (p.serve r).2.failed with
    | true =>
      -- The pool is as it was, so the rest of the run starts where the whole run did.
      rw [serve_failed failed keeps] at later
      simp only [served, run, failed, if_true, serve_failed failed keeps, later]
      rw [List.filter_cons_of_neg (by simp [failed])]
    | false =>
      simp only [served, run, failed, Bool.false_eq_true, if_false, later]
      rw [List.filter_cons_of_pos (by simp [failed])]

end ScratchPool

/-- A failed request, whatever its size or buffer, leaves both pools as they were exactly if it does
not ask for a negative size while a buffer is free. If it does, it fails, and nothing else changes
but that the first free buffer is marked as held. In a run without such requests, the failed ones
can be left out: the others get the same replies, reports of what is held included, and the pools
end in the same state. -/
theorem failed_requests_leave_pool (p : ScratchPool) :
    (∀ r, (p.serve r).2.failed = true → ((p.serve r).1 = p ↔ ¬ p.Strays r)) ∧
      (∀ r, p.Strays r → (p.serve r).2.failed = true ∧ p.MarksFirst (p.serve r).1) ∧
      ∀ rs, p.Careful rs →
        p.run (p.served rs) = ((p.run rs).1, (p.run rs).2.filter fun reply => !reply.failed) := by
  refine ⟨fun r failed => ⟨fun same strays => ?_, ScratchPool.serve_failed failed⟩,
    fun r => ScratchPool.serve_of_strays, fun rs => ScratchPool.run_served⟩
  exact (ScratchPool.serve_of_strays strays).2.ne same

/-- Of these requests the second and the third fail. -/
def ScratchPool.twoRefused : List ScratchRequest :=
  [.points (.acquire 4), .floats (.acquire (-1)), .points (.release ⟨9, [], 3⟩), .report,
    .points (.release ⟨0, List.replicate 4 default, 4⟩), .report]

theorem twoRefused_left_out :
    ScratchPool.empty.Careful ScratchPool.twoRefused ∧
      ScratchPool.empty.run (ScratchPool.empty.served ScratchPool.twoRefused) =
        ((ScratchPool.empty.run ScratchPool.twoRefused).1,
          (ScratchPool.empty.run ScratchPool.twoRefused).2.filter fun reply => !reply.failed) := by
  have careful : ScratchPool.empty.Careful ScratchPool.twoRefused := by
    refine ⟨fun strays => ?_, fun strays => ?_, id, id, id, id, trivial⟩
    · exact absurd strays.1 (by decide)
    · obtain ⟨-, e, member, -⟩ := strays
      exact absurd member List.not_mem_nil
  exact ⟨careful, (failed_requests_leave_pool ScratchPool.empty).2.2 _ careful⟩

/-- A pool with a free buffer of four points. -/
def ScratchPool.oneFree : ScratchPool :=
  (ScratchPool.empty.run
    [.points (.acquire 4), .points (.release ⟨0, List.replicate 4 default, 4⟩)]).1

/-- A request that fails keeps the buffer that was free. -/
theorem negative_request_keeps_buffer :
    ScratchPool.oneFree.unreleased? = none ∧
      (ScratchPool.oneFree.serve (.points (.acquire (-1)))).2 =
        .points (.error (.badSlice (-1))) ∧
      (ScratchPool.oneFree.serve (.points (.acquire (-1)))).1.unreleased? =
        some "V2 pool: buffer 0 of length 4 not released" ∧
      (ScratchPool.oneFree.serve (.points (.acquire (-1)))).1 ≠ ScratchPool.oneFree := by
  refine ⟨rfl, rfl, rfl, fun same => ?_⟩
  have held := congrArg (fun p => p.points.entries.map PoolEntry.held) same
  cases held

end EscapeTime
