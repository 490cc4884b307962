import EscapeTime.Orbit.Cache
import Mathlib.Data.List.Forall2
import Std.Data.HashMap.Lemmas

/-!
# Caches are transparent

A cache in front of a fractal that computes a function `g` of the points computes the same function.
`cached_calls_store` carries this over whole runs of calls, for caches in front of caches, with
calls that fail in between.
-/

namespace EscapeTime

variable {σ : Type}

/-- On states with `inv`, a call that succeeds stores `g p` for each of its points `p`. -/
structure Fractal.Computes (F : Fractal σ) (g : Point → Single) (inv : σ → Prop) : Prop where
  keeps : ∀ s points progress scratch, inv s → inv (F s points progress scratch).state
  stores : ∀ s points progress scratch, inv s → points.length = progress.length →
    (F s points progress scratch).error = none →
    (F s points progress scratch).progress = points.map g

namespace Cache

/-- Every entry of the map is the value of `g` at its point. -/
def EntriesOf (g : Point → Single) (entries : Std.HashMap Point Single) : Prop :=
  ∀ p d, entries[p]? = some d → d = g p

/-- The cache remembers nothing but values of `g`. -/
def Remembers (g : Point → Single) (c : Cache) : Prop :=
  EntriesOf g c.entries

variable {g : Point → Single}

theorem entriesOf_empty : EntriesOf g ∅ := by
  intro p d known
  simp at known

theorem EntriesOf.insert {entries : Std.HashMap Point Single} (values : EntriesOf g entries)
    (p : Point) : EntriesOf g (entries.insert p (g p)) := by
  intro q d known
  rw [Std.HashMap.getElem?_insert] at known
  split at known
  · rename_i same
    rw [← eq_of_beq same]
    exact (Option.some.inj known).symm
  · exact values q d known

theorem EntriesOf.insertUpTo {entries : Std.HashMap Point Single} (capacity : Nat)
    (points : List Point) (values : EntriesOf g entries) :
    EntriesOf g (insertUpTo capacity entries (points.zip (points.map g))) := by
  induction points generalizing entries with
  | nil => exact values
  | cons p points ih =>
    simp only [List.map_cons, List.zip_cons_cons, Cache.insertUpTo]
    split
    · exact values
    · exact ih (values.insert p)

theorem Remembers.remember {c : Cache} (values : c.Remembers g) (points : List Point) :
    (c.remember points (points.map g)).Remembers g := by
  unfold Cache.remember Remembers
  dsimp only
  apply EntriesOf.insertUpTo
  -- Clearing the map first forgets entries, but makes none wrong.
  split
  · exact entriesOf_empty
  · exact values

theorem remembers_of_new? {capacity : Int} {c : Cache} (made : new? capacity = .ok c) :
    c.Remembers g := by
  unfold new? at made
  split at made
  · cases made
  · cases made
    exact entriesOf_empty

/-- The values of the missed points, put into the gaps, complete the values of all points. -/
theorem fillGaps_look {c : Cache} (values : c.Remembers g) (points : List Point) :
    fillGaps (c.look points) ((c.misses points).map g) = points.map g := by
  induction points with
  | nil => rfl
  | cons p points ih =>
    unfold look misses at ih ⊢
    have member : c.entries.contains p = c.entries[p]?.isSome :=
      Std.HashMap.contains_eq_isSome_getElem?
    cases known : c.entries[p]? with
    | none => simpa [member, known, fillGaps] using ih
    | some d =>
      have value := values p d known
      simpa [member, known, fillGaps, ← value] using ih

/-- The call that hands the points the cache does not know to the fractal behind it. -/
def missedCall (inner : Fractal σ) (c : Cache) (s : σ) (points : List Point)
    (scratch : ScratchSource) : Evaluation σ :=
  inner s (c.misses points) ((c.misses points).map fun _ => 0) scratch

/-- What a call can do: refuse its buffers, find every point in the cache, fail with the fractal
behind the cache, or complete the known values with those of the fractal. -/
theorem evaluate_cases (inner : Fractal σ) (c : Cache) (s : σ) (points : List Point)
    (progress : List Single) (scratch : ScratchSource) :
    (∃ e, bufferError? points progress = some e ∧
      evaluate inner (c, s) points progress scratch = ⟨(c, s), progress, scratch, some e⟩) ∨
    (bufferError? points progress = none ∧ c.misses points = [] ∧
      evaluate inner (c, s) points progress scratch =
        ⟨(c.count points.length 0, s), fillGaps (c.look points) [], scratch, none⟩) ∨
    (∃ e, bufferError? points progress = none ∧ c.misses points ≠ [] ∧
      (missedCall inner c s points scratch).error = some e ∧
      evaluate inner (c, s) points progress scratch =
        ⟨(c, (missedCall inner c s points scratch).state),
          List.zipWith (fun d old => d.getD old) (c.look points) progress,
          (missedCall inner c s points scratch).scratch, some e⟩) ∨
    (bufferError? points progress = none ∧ c.misses points ≠ [] ∧
      (missedCall inner c s points scratch).error = none ∧
      evaluate inner (c, s) points progress scratch =
        ⟨((c.remember (c.misses points) (missedCall inner c s points scratch).progress).count
            points.length (c.misses points).length, (missedCall inner c s points scratch).state),
          fillGaps (c.look points) (missedCall inner c s points scratch).progress,
          (missedCall inner c s points scratch).scratch, none⟩) := by
  cases buffers : bufferError? points progress with
  | some e => exact .inl ⟨e, rfl, by simp [evaluate, buffers]⟩
  | none =>
    by_cases hits : c.misses points = []
    · exact .inr (.inl ⟨rfl, hits, by simp [evaluate, buffers, hits]⟩)
    · have missed : (c.misses points).isEmpty = false := by simpa using hits
      cases inside : (missedCall inner c s points scratch).error with
      | some e =>
        refine .inr (.inr (.inl ⟨e, rfl, hits, rfl, ?_⟩))
        unfold missedCall at inside ⊢
        simp only [evaluate, buffers, missed, inside, Bool.false_eq_true, if_false]
      | none =>
        refine .inr (.inr (.inr ⟨rfl, hits, rfl, ?_⟩))
        unfold missedCall at inside ⊢
        simp only [evaluate, buffers, missed, inside, Bool.false_eq_true, if_false]

theorem missedCall_stores {inner : Fractal σ} {inv : σ → Prop} (computes : inner.Computes g inv)
    {c : Cache} {s : σ} {points : List Point} {scratch : ScratchSource} (before : inv s)
    (succeeded : (missedCall inner c s points scratch).error = none) :
    (missedCall inner c s points scratch).progress = (c.misses points).map g :=
  computes.stores s _ _ scratch before (by simp) succeeded

theorem evaluate_keeps {inner : Fractal σ} {inv : σ → Prop} (computes : inner.Computes g inv)
    {c : Cache} {s : σ} (points : List Point) (progress : List Single) (scratch : ScratchSource)
    (values : c.Remembers g) (before : inv s) :
    (evaluate inner (c, s) points progress scratch).state.1.Remembers g ∧
      inv (evaluate inner (c, s) points progress scratch).state.2 := by
  have after : inv (missedCall inner c s points scratch).state :=
    computes.keeps s _ _ scratch before
  obtain ⟨e, -, result⟩ | ⟨-, -, result⟩ | ⟨e, -, -, -, result⟩ | ⟨-, -, succeeded, result⟩ :=
    evaluate_cases inner c s points progress scratch
  · rw [result]
    exact ⟨values, before⟩
  · rw [result]
    exact ⟨values, before⟩
  · rw [result]
    exact ⟨values, after⟩
  · rw [result, missedCall_stores computes before succeeded]
    exact ⟨values.remember _, after⟩

theorem evaluate_stores {inner : Fractal σ} {inv : σ → Prop} (computes : inner.Computes g inv)
    {c : Cache} {s : σ} (points : List Point) (progress : List Single) (scratch : ScratchSource)
    (values : c.Remembers g) (before : inv s)
    (succeeded : (evaluate inner (c, s) points progress scratch).error = none) :
    (evaluate inner (c, s) points progress scratch).progress = points.map g := by
  have filled := fillGaps_look values points
  obtain ⟨e, -, result⟩ | ⟨-, hits, result⟩ | ⟨e, -, -, -, result⟩ | ⟨-, -, done, result⟩ :=
    evaluate_cases inner c s points progress scratch
  · rw [result] at succeeded
    cases succeeded
  · rw [result]
    rwa [hits] at filled
  · rw [result] at succeeded
    cases succeeded
  · rw [result, missedCall_stores computes before done]
    exact filled

/-- A cache in front of a fractal computes what the fractal computes. -/
theorem evaluate_computes {inner : Fractal σ} {inv : σ → Prop} (computes : inner.Computes g inv) :
    (evaluate inner).Computes g (fun s => s.1.Remembers g ∧ inv s.2) where
  keeps := fun _ points progress scratch ⟨values, before⟩ =>
    evaluate_keeps computes points progress scratch values before
  stores := fun _ points progress scratch ⟨values, before⟩ _ succeeded =>
    evaluate_stores computes points progress scratch values before succeeded

end Cache

/-! ### Caches in front of caches -/

/-- The states of a fractal with `n` caches in front of it, the outermost first. -/
def Stacked (σ : Type) : Nat → Type
  | 0 => σ
  | n + 1 => Cache × Stacked σ n

/-- The fractal behind the first `skip` of `n` caches. Calling it leaves those caches alone. -/
def stack (inner : Fractal σ) : (n skip : Nat) → Fractal (Stacked σ n)
  | 0, _ => inner
  | n + 1, 0 => Cache.evaluate (stack inner n 0)
  | n + 1, skip + 1 => fun (c, s) points progress scratch =>
    let r := stack inner n skip s points progress scratch
    ⟨(c, r.state), r.progress, r.scratch, r.error⟩

/-- New caches of the given capacities in front of a fractal in state `s`. -/
def newStack? (s : σ) : (capacities : List Int) → Except ConfigError (Stacked σ capacities.length)
  | [] => .ok s
  | capacity :: capacities => do
    let c ← Cache.new? capacity
    let below ← newStack? s capacities
    return (c, below)

/-- All caches of the stack remember nothing but values of `g`. -/
def StackRemembers (g : Point → Single) : (n : Nat) → Stacked σ n → Prop
  | 0, _ => True
  | n + 1, s => s.1.Remembers g ∧ StackRemembers g n s.2

variable {g : Point → Single}

theorem stack_computes {inner : Fractal σ} (computes : inner.Computes g fun _ => True) (n : Nat) :
    ∀ skip, (stack inner n skip).Computes g (StackRemembers g n) := by
  induction n with
  | zero => exact fun _ => computes
  | succ n ih =>
    intro skip
    cases skip with
    | zero => exact Cache.evaluate_computes (ih 0)
    | succ skip =>
      exact {
        keeps := fun (_, s) points progress scratch ⟨values, below⟩ =>
          ⟨values, (ih skip).keeps s points progress scratch below⟩
        stores := fun (_, s) points progress scratch ⟨_, below⟩ =>
          (ih skip).stores s points progress scratch below }

theorem stack_stores {inner : Fractal σ} (computes : inner.Computes g fun _ => True) {n skip : Nat}
    {s : Stacked σ n} (values : StackRemembers g n s) (points : List Point)
    (progress : List Single) (scratch : ScratchSource) (cached : skip < n)
    (succeeded : (stack inner n skip s points progress scratch).error = none) :
    (stack inner n skip s points progress scratch).progress = points.map g := by
  induction n generalizing skip with
  | zero => omega
  | succ n ih =>
    cases skip with
    | zero =>
      exact Cache.evaluate_stores (stack_computes computes n 0) points progress scratch values.1
        values.2 succeeded
    | succ skip => exact ih values.2 (by omega) succeeded

theorem newStack?_ok (s : σ) (capacities : List Int) (positive : ∀ c ∈ capacities, 1 ≤ c) :
    ∃ start, newStack? s capacities = .ok start ∧
      StackRemembers g capacities.length start := by
  induction capacities with
  | nil => exact ⟨s, rfl, trivial⟩
  | cons capacity capacities ih =>
    obtain ⟨below, made, values⟩ := ih fun c member => positive c (List.mem_cons_of_mem _ member)
    have size : ¬ capacity ≤ 0 := by
      have := positive capacity List.mem_cons_self
      omega
    have cache : Cache.new? capacity = .ok ⟨∅, capacity.toNat, 0, 0⟩ := by
      simp [Cache.new?, size]
    refine ⟨(_, below), ?_, Cache.remembers_of_new? cache, values⟩
    simp only [newStack?, cache, made]
    rfl

/-! ### Runs -/

/-- One call in a run: how many caches it goes past, its points, the buffer for their progress and
the source of scratch buffers. -/
structure StackCall where
  skip : Nat
  points : List Point
  progress : List Single
  scratch : ScratchSource

/-- What the calls leave, one after the other. -/
def stackRun (inner : Fractal σ) (n : Nat) : Stacked σ n → List StackCall →
    List (Evaluation (Stacked σ n))
  | _, [] => []
  | s, call :: calls =>
    let r := stack inner n call.skip s call.points call.progress call.scratch
    r :: stackRun inner n r.state calls

theorem stackRun_stores {inner : Fractal σ} (computes : inner.Computes g fun _ => True) {n : Nat}
    {s : Stacked σ n} (values : StackRemembers g n s) (calls : List StackCall) :
    List.Forall₂ (fun call r => call.skip < n → r.error = none → r.progress = call.points.map g)
      calls (stackRun inner n s calls) := by
  induction calls generalizing s with
  | nil => exact .nil
  | cons call calls ih =>
    have after := (stack_computes computes n call.skip).keeps s call.points call.progress
      call.scratch values
    exact .cons (stack_stores computes values call.points call.progress call.scratch) (ih after)

/-- However many caches of whatever size stand in front of a fractal that stores `g p` for each
point `p` whenever it succeeds, and whichever calls are made of them: a call of a cache that
succeeds has stored `g p` for each of its points. -/
theorem cached_calls_store (inner : Fractal σ) (g : Point → Single)
    (stores : ∀ s points progress scratch, points.length = progress.length →
      (inner s points progress scratch).error = none →
      (inner s points progress scratch).progress = points.map g)
    (s : σ) (capacities : List Int) (positive : ∀ c ∈ capacities, 1 ≤ c) :
    ∃ start, newStack? s capacities = .ok start ∧
      ∀ calls, List.Forall₂ (fun call r => call.skip < capacities.length → r.error = none →
        r.progress = call.points.map g) calls (stackRun inner capacities.length start calls) := by
  have computes : inner.Computes g fun _ => True :=
    ⟨fun _ _ _ _ _ => trivial, fun s points progress scratch _ => stores s points progress scratch⟩
  obtain ⟨start, made, values⟩ := newStack?_ok (g := g) s capacities positive
  exact ⟨start, made, stackRun_stores computes values⟩

/-- A fractal that fails on every other call. -/
def alternating : Fractal Nat :=
  fun n points progress scratch =>
    if n % 2 = 0 then ⟨n + 1, points.map Vec2.x, scratch, none⟩
    else ⟨n + 1, progress, scratch, some (.stated "fail")⟩

theorem alternating_calls_store :
    (∀ c ∈ [(2 : Int), 1], 1 ≤ c) ∧
    ∃ start, newStack? 0 [2, 1] = .ok start ∧
      ∀ calls, List.Forall₂ (fun call r => call.skip < 2 → r.error = none →
        r.progress = call.points.map Vec2.x) calls (stackRun alternating 2 start calls) := by
  refine ⟨by decide, cached_calls_store alternating Vec2.x ?_ 0 [2, 1] (by decide)⟩
  intro s points progress scratch _ succeeded
  unfold alternating at succeeded ⊢
  split at succeeded
  · rename_i even
    simp [even]
  · cases succeeded

end EscapeTime
