import EscapeTime.Proofs.Orbit.Cache
import Mathlib.Algebra.Order.Ring.Nat

/-!
# What a cache keeps account of

A fractal can be watched: `Fractal.recorded` notes each call of it and what it answered. With one
such observer in front of a cache and one behind it, `cache_bookkeeping_exact` compares the entries
and the counters of the cache with the calls that were really made.
-/

namespace EscapeTime

variable {σ τ : Type}

/-! ### Observers -/

/-- A call that was made of a fractal, with the progress it stored unless it failed. -/
structure CallRecord where
  points : List Point
  answer : Option (List Single)

/-- The number of points in the calls that did not fail. -/
def pointsAnswered (record : List CallRecord) : Nat :=
  (record.map fun call => if call.answer.isSome then call.points.length else 0).sum

theorem pointsAnswered_concat (record : List CallRecord) (call : CallRecord) :
    pointsAnswered (record ++ [call]) =
      pointsAnswered record + if call.answer.isSome then call.points.length else 0 := by
  simp [pointsAnswered]

namespace Fractal

/-- The fractal, with a record of the calls made of it. -/
def recorded (F : Fractal σ) : Fractal (σ × List CallRecord) :=
  fun (s, record) points progress scratch =>
    let r := F s points progress scratch
    let answer := if r.error.isNone then some r.progress else none
    ⟨(r.state, record ++ [⟨points, answer⟩]), r.progress, r.scratch, r.error⟩

/-- The arguments of a call. -/
structure Call where
  points : List Point
  progress : List Single
  scratch : ScratchSource

/-- The state that the calls lead to. -/
def after (F : Fractal σ) (s : σ) (calls : List Call) : σ :=
  calls.foldl (fun s call => (F s call.points call.progress call.scratch).state) s

/-- `G` acts like `F` and has more in its states, which `forget` drops. -/
def Watches (G : Fractal τ) (forget : τ → σ) (F : Fractal σ) : Prop :=
  ∀ t points progress scratch,
    let r := G t points progress scratch
    F (forget t) points progress scratch = ⟨forget r.state, r.progress, r.scratch, r.error⟩

theorem recorded_watches (F : Fractal σ) : F.recorded.Watches Prod.fst F :=
  fun _ _ _ _ => rfl

section

variable {F : Fractal σ} {s : σ} {points : List Point} {progress : List Single}
  {scratch : ScratchSource}

theorem recorded_failed {e : EvalError} (record : List CallRecord)
    (failed : (F s points progress scratch).error = some e) :
    (F.recorded (s, record) points progress scratch).state =
      ((F s points progress scratch).state, record ++ [⟨points, none⟩]) := by
  simp [recorded, failed]

theorem recorded_done (record : List CallRecord)
    (done : (F s points progress scratch).error = none) :
    (F.recorded (s, record) points progress scratch).state =
      ((F s points progress scratch).state,
        record ++ [⟨points, some (F s points progress scratch).progress⟩]) := by
  simp [recorded, done]

end

theorem Watches.after {G : Fractal τ} {forget : τ → σ} {F : Fractal σ}
    (watches : G.Watches forget F) (t : τ) (calls : List Call) :
    F.after (forget t) calls = forget (G.after t calls) := by
  induction calls generalizing t with
  | nil => rfl
  | cons call calls ih =>
    have step := watches t call.points call.progress call.scratch
    unfold Fractal.after at ih ⊢
    rw [List.foldl_cons, List.foldl_cons, step]
    exact ih _

end Fractal

namespace Cache

theorem evaluate_watches {G : Fractal τ} {forget : τ → σ} {F : Fractal σ}
    (watches : G.Watches forget F) :
    (evaluate G).Watches (Prod.map id forget) (evaluate F) := by
  rintro ⟨c, t⟩ points progress scratch
  have inside := watches t (c.misses points) ((c.misses points).map fun _ => 0) scratch
  dsimp only [evaluate, Prod.map, id_eq]
  rw [inside]
  -- Both sides now branch on the same buffers, the same misses and the same inner error.
  split
  · rfl
  · split
    · rfl
    · split <;> simp_all

/-! ### Entries -/

theorem size_insertUpTo {capacity : Nat} {entries : Std.HashMap Point Single}
    (room : entries.size ≤ capacity) (new : List (Point × Single)) :
    (insertUpTo capacity entries new).size ≤ capacity := by
  induction new generalizing entries with
  | nil => exact room
  | cons pair new ih =>
    obtain ⟨p, d⟩ := pair
    rw [insertUpTo]
    split
    · exact room
    · rename_i space
      have grown : (entries.insert p d).size ≤ entries.size + 1 := Std.HashMap.size_insert_le
      exact ih (by omega)

theorem getElem?_insertUpTo {capacity : Nat} {entries : Std.HashMap Point Single}
    {new : List (Point × Single)} {p : Point} {d : Single}
    (known : (insertUpTo capacity entries new)[p]? = some d) :
    entries[p]? = some d ∨ (p, d) ∈ new := by
  induction new generalizing entries with
  | nil => exact .inl known
  | cons pair new ih =>
    obtain ⟨q, e⟩ := pair
    rw [insertUpTo] at known
    split at known
    · exact .inl known
    · obtain old | later := ih known
      · rw [Std.HashMap.getElem?_insert] at old
        split at old
        · rename_i same
          rw [← eq_of_beq same, ← Option.some.inj old]
          exact .inr List.mem_cons_self
        · exact .inl old
      · exact .inr (List.mem_cons_of_mem _ later)

theorem size_remember {c : Cache} (room : c.entries.size ≤ c.capacity) (points : List Point)
    (progress : List Single) : (c.remember points progress).entries.size ≤ c.capacity := by
  unfold remember
  refine size_insertUpTo ?_ _
  split
  · exact Nat.zero_le _
  · exact room

theorem getElem?_remember {c : Cache} {points : List Point} {progress : List Single} {p : Point}
    {d : Single} (known : (c.remember points progress).entries[p]? = some d) :
    c.entries[p]? = some d ∨ (p, d) ∈ points.zip progress := by
  unfold remember at known
  obtain old | new := getElem?_insertUpTo known
  · split at old
    · simp at old
    · exact .inl old
  · exact .inr new

theorem length_misses_le (c : Cache) (points : List Point) :
    (c.misses points).length ≤ points.length :=
  List.length_filter_le _ points

/-! ### Accounts -/

/-- The entries and counters of the cache are those of the calls recorded in front of it (`outside`)
and behind it (`inside`). Counters are words, so they count modulo `2 ^ 64`. -/
structure Accounts (c : Cache) (capacity : Nat) (outside inside : List CallRecord) : Prop where
  limit : c.capacity = capacity
  room : c.entries.size ≤ capacity
  known : ∀ p d, c.entries[p]? = some d →
    ∃ call ∈ inside, ∃ answer, call.answer = some answer ∧ (p, d) ∈ call.points.zip answer
  evaluations : c.evaluations.toNat = pointsAnswered outside % 2 ^ 64
  missed : (c.evaluations - c.hits).toNat = pointsAnswered inside % 2 ^ 64

theorem new?_accounts {capacity : Int} (positive : 1 ≤ capacity) :
    ∃ c, new? capacity = .ok c ∧ c.Accounts capacity.toNat [] [] := by
  refine ⟨⟨∅, capacity.toNat, 0, 0⟩, ?_, rfl, Nat.zero_le _, ?_, rfl, ?_⟩
  · rw [new?, if_neg (by omega)]
  · intro p d known
    simp at known
  · simp [pointsAnswered]

theorem count_evaluations (c : Cache) (total missed : Nat) :
    (c.count total missed).evaluations.toNat = (c.evaluations.toNat + total) % 2 ^ 64 := by
  simp [count]

theorem count_missed (c : Cache) {total missed : Nat} (few : missed ≤ total) :
    ((c.count total missed).evaluations - (c.count total missed).hits).toNat =
      ((c.evaluations - c.hits).toNat + missed) % 2 ^ 64 := by
  have split : UInt64.ofNat total = UInt64.ofNat (total - missed) + UInt64.ofNat missed := by
    rw [← UInt64.ofNat_add, Nat.sub_add_cancel few]
  have moved : (c.count total missed).evaluations - (c.count total missed).hits =
      c.evaluations - c.hits + UInt64.ofNat missed := by
    simp only [count, split]
    grind
  rw [moved, UInt64.toNat_add, UInt64.toNat_ofNat']
  omega

namespace Accounts

variable {c : Cache} {capacity : Nat} {outside inside : List CallRecord}

theorem failed (accounts : c.Accounts capacity outside inside) (points : List Point) :
    c.Accounts capacity (outside ++ [⟨points, none⟩]) inside :=
  { accounts with
    evaluations := by
      rw [pointsAnswered_concat]
      exact accounts.evaluations }

theorem failedInside (accounts : c.Accounts capacity outside inside) (points : List Point) :
    c.Accounts capacity outside (inside ++ [⟨points, none⟩]) :=
  { accounts with
    known := by
      intro p d known
      obtain ⟨call, made, answered⟩ := accounts.known p d known
      exact ⟨call, List.mem_append_left _ made, answered⟩
    missed := by
      rw [pointsAnswered_concat]
      exact accounts.missed }

theorem hit (accounts : c.Accounts capacity outside inside) (points : List Point)
    (answer : List Single) :
    (c.count points.length 0).Accounts capacity (outside ++ [⟨points, some answer⟩]) inside :=
  { accounts with
    evaluations := by
      have before := accounts.evaluations
      rw [count_evaluations, pointsAnswered_concat]
      simp only [Option.isSome_some, if_true]
      omega
    missed := by
      have before := accounts.missed
      rw [count_missed c (Nat.zero_le _)]
      omega }

theorem answered (accounts : c.Accounts capacity outside inside) (points : List Point)
    (answer found : List Single) :
    ((c.remember (c.misses points) found).count points.length
        (c.misses points).length).Accounts capacity
      (outside ++ [⟨points, some answer⟩]) (inside ++ [⟨c.misses points, some found⟩]) where
  limit := accounts.limit
  room := by
    have room := size_remember (accounts.limit ▸ accounts.room) (c.misses points) found
    rwa [accounts.limit] at room
  known := by
    intro p d known
    obtain old | new := getElem?_remember known
    · obtain ⟨call, made, answered⟩ := accounts.known p d old
      exact ⟨call, List.mem_append_left _ made, answered⟩
    · exact ⟨_, List.mem_append_right _ List.mem_cons_self, found, rfl, new⟩
  evaluations := by
    have before := accounts.evaluations
    rw [count_evaluations, pointsAnswered_concat]
    simp only [Option.isSome_some, if_true]
    show (c.evaluations.toNat + points.length) % 2 ^ 64 = _
    omega
  missed := by
    have before := accounts.missed
    rw [count_missed _ (length_misses_le c points), pointsAnswered_concat]
    simp only [Option.isSome_some, if_true]
    show ((c.evaluations - c.hits).toNat + (c.misses points).length) % 2 ^ 64 = _
    omega

end Accounts

/-- A cache that is watched on both sides. -/
abbrev watched (inner : Fractal σ) :
    Fractal ((Cache × (σ × List CallRecord)) × List CallRecord) :=
  (evaluate inner.recorded).recorded

theorem Accounts.call {inner : Fractal σ} {c : Cache} {s : σ} {capacity : Nat}
    {outside inside : List CallRecord} (accounts : c.Accounts capacity outside inside)
    (points : List Point) (progress : List Single) (scratch : ScratchSource) :
    let r := watched inner ((c, (s, inside)), outside) points progress scratch
    r.state.1.1.Accounts capacity r.state.2 r.state.1.2.2 := by
  intro r
  obtain ⟨e, -, result⟩ | ⟨-, -, result⟩ | ⟨e, -, -, failed, result⟩ | ⟨-, -, done, result⟩ :=
    evaluate_cases inner.recorded c (s, inside) points progress scratch
  · have state := Fractal.recorded_failed outside (congrArg Evaluation.error result)
    rw [state, result]
    exact accounts.failed points
  · have state := Fractal.recorded_done outside (congrArg Evaluation.error result)
    rw [state, result]
    exact accounts.hit points _
  · have behind : (missedCall inner.recorded c (s, inside) points scratch).state =
        (_, inside ++ [⟨c.misses points, none⟩]) := Fractal.recorded_failed inside failed
    have state := Fractal.recorded_failed outside (congrArg Evaluation.error result)
    rw [state, result, behind]
    exact (accounts.failedInside (c.misses points)).failed points
  · have behind : (missedCall inner.recorded c (s, inside) points scratch).state =
        (_, inside ++ [⟨c.misses points, some _⟩]) := Fractal.recorded_done inside done
    have state := Fractal.recorded_done outside (congrArg Evaluation.error result)
    rw [state, result, behind]
    exact accounts.answered points _ _

theorem Accounts.after (inner : Fractal σ) {c : Cache} (s : σ) {capacity : Nat}
    {outside inside : List CallRecord} (accounts : c.Accounts capacity outside inside)
    (calls : List Fractal.Call) :
    let state := (watched inner).after ((c, (s, inside)), outside) calls
    state.1.1.Accounts capacity state.2 state.1.2.2 := by
  induction calls generalizing c s outside inside with
  | nil => exact accounts
  | cons call calls ih =>
    exact ih _ (accounts.call call.points call.progress call.scratch)

/-- A call that fails leaves the cache as it was. -/
theorem evaluate_failed (inner : Fractal σ) (c : Cache) (s : σ) (points : List Point)
    (progress : List Single) (scratch : ScratchSource)
    (failed : (evaluate inner (c, s) points progress scratch).error ≠ none) :
    (evaluate inner (c, s) points progress scratch).state.1 = c := by
  obtain ⟨e, -, result⟩ | ⟨-, -, result⟩ | ⟨e, -, -, -, result⟩ | ⟨-, -, -, result⟩ :=
    evaluate_cases inner c s points progress scratch
  · rw [result]
  · rw [result] at failed
    exact absurd rfl failed
  · rw [result]
  · rw [result] at failed
    exact absurd rfl failed

/-- What the fractal behind the cache sees of a call: nothing, or the points that the cache does not
know. A call with sound buffers fails only if the fractal does. -/
structure HandsOn (c : Cache) (inner : Fractal σ) (s : σ) (inside : List CallRecord)
    (call : Fractal.Call) : Prop where
  unknown : let r := evaluate inner.recorded (c, (s, inside)) call.points call.progress call.scratch
    r.state.2.2 = inside ∨ ∃ handed answer, r.state.2.2 = inside ++ [⟨handed, answer⟩] ∧
      handed = call.points.filter fun p => !c.entries.contains p
  blamed : let r := evaluate inner.recorded (c, (s, inside)) call.points call.progress call.scratch
    call.points.length = call.progress.length → call.points ≠ [] → r.error ≠ none →
      ∃ handed, r.state.2.2 = inside ++ [⟨handed, none⟩]

theorem handsOn (c : Cache) (inner : Fractal σ) (s : σ) (inside : List CallRecord)
    (call : Fractal.Call) : c.HandsOn inner s inside call := by
  obtain ⟨points, progress, scratch⟩ := call
  obtain ⟨e, refused, result⟩ | ⟨-, -, result⟩ | ⟨e, -, -, failed, result⟩ | ⟨-, -, done, result⟩ :=
    evaluate_cases inner.recorded c (s, inside) points progress scratch
  · refine ⟨.inl (by rw [result]), fun same some _ => ?_⟩
    unfold bufferError? at refused
    simp_all
  · exact ⟨.inl (by rw [result]), fun _ _ wrong => absurd (congrArg Evaluation.error result) wrong⟩
  · have behind : (missedCall inner.recorded c (s, inside) points scratch).state =
        (_, inside ++ [⟨c.misses points, none⟩]) := Fractal.recorded_failed inside failed
    constructor
    · exact .inr ⟨c.misses points, _, by rw [result, behind], rfl⟩
    · exact fun _ _ _ => ⟨_, by rw [result, behind]⟩
  · have behind : (missedCall inner.recorded c (s, inside) points scratch).state =
        (_, inside ++ [⟨c.misses points, some _⟩]) := Fractal.recorded_done inside done
    constructor
    · exact .inr ⟨c.misses points, _, by rw [result, behind], rfl⟩
    · exact fun _ _ wrong => absurd (congrArg Evaluation.error result) wrong

end Cache

/-- After any calls of a new cache in front of any fractal: it holds no more entries than it has
room for, each of them answered by a call of the fractal that did not fail; its counters are those
of the points in the calls that did not fail, in front of it and behind it; a further call
hands on only points that it has no entry of; and one that fails leaves it as it is. -/
theorem cache_bookkeeping_exact (inner : Fractal σ) (s : σ) (capacity : Int)
    (positive : 1 ≤ capacity) :
    ∃ new, Cache.new? capacity = .ok new ∧ ∀ calls : List Fractal.Call,
      ∃ c s' outside inside,
        (Cache.evaluate inner).after (new, s) calls = (c, s') ∧
        (Cache.watched inner).after ((new, (s, [])), []) calls = ((c, (s', inside)), outside) ∧
        c.Accounts capacity.toNat outside inside ∧
        (∀ call, c.HandsOn inner s' inside call) ∧
        ∀ points progress scratch,
          (Cache.evaluate inner (c, s') points progress scratch).error ≠ none →
          (Cache.evaluate inner (c, s') points progress scratch).state.1 = c := by
  obtain ⟨new, made, start⟩ := Cache.new?_accounts positive
  refine ⟨new, made, fun calls => ?_⟩
  have unwatched : (Cache.evaluate inner).after (new, s) calls =
      Prod.map id Prod.fst ((Cache.watched inner).after ((new, (s, [])), []) calls).1 := by
    rw [← (Fractal.recorded_watches (Cache.evaluate inner.recorded)).after]
    exact (Cache.evaluate_watches inner.recorded_watches).after (new, (s, [])) calls
  have accounts := start.after inner s calls
  generalize (Cache.watched inner).after ((new, (s, [])), []) calls = final at unwatched accounts ⊢
  obtain ⟨⟨c, s', inside⟩, outside⟩ := final
  exact ⟨c, s', outside, inside, unwatched, rfl, accounts, c.handsOn inner s' inside,
    Cache.evaluate_failed inner c s'⟩

theorem alternating_bookkeeping :
    (1 : Int) ≤ 2 ∧ ∃ new, Cache.new? 2 = .ok new ∧ ∀ calls : List Fractal.Call,
      ∃ c s' outside inside,
        (Cache.evaluate alternating).after (new, 0) calls = (c, s') ∧
        (Cache.watched alternating).after ((new, (0, [])), []) calls =
          ((c, (s', inside)), outside) ∧
        c.Accounts 2 outside inside ∧
        (∀ call, c.HandsOn alternating s' inside call) ∧
        ∀ points progress scratch,
          (Cache.evaluate alternating (c, s') points progress scratch).error ≠ none →
          (Cache.evaluate alternating (c, s') points progress scratch).state.1 = c :=
  ⟨by decide, cache_bookkeeping_exact alternating 0 2 (by decide)⟩

end EscapeTime
