import EscapeTime.Plane.Vec2

/-!
# Buffer pools

A pool keeps buffers for reuse. A buffer is known by its storage: it is handed out to one holder at
a time, and a later request may get a shorter stretch of the same storage.
-/

namespace EscapeTime

/-- A stretch of storage. -/
structure Buffer (α : Type) where
  storage : Nat
  contents : List α
  /-- The whole length of the storage. -/
  capacity : Nat

/-- A buffer that a pool owns, and whether somebody holds it. -/
structure PoolEntry (α : Type) where
  storage : Nat
  contents : List α
  held : Bool

def PoolEntry.capacity {α : Type} (e : PoolEntry α) : Nat :=
  e.contents.length

/-- A pool of buffers. No buffer is longer than `limit`. -/
structure BufferPool (α : Type) where
  limit : Nat
  entries : List (PoolEntry α)
  /-- Storage that is not in use yet: this number and all above it. -/
  fresh : Nat

/-- A request that a pool cannot serve. -/
inductive PoolFault where
  | badLength
  | badSlice (size : Int)
  | notHeld
  | notOwned
  deriving DecidableEq, Repr

def PoolFault.message : PoolFault → String
  | badLength => "runtime error: makeslice: len out of range"
  | badSlice size => "runtime error: slice bounds out of range [:" ++ toString size ++ "]"
  | notHeld => "release of buffer not acquired"
  | notOwned => "release of buffer not belonging to pool"

namespace BufferPool

variable {α : Type}

def empty (limit : Nat) : BufferPool α :=
  ⟨limit, [], 0⟩

/-- A buffer of new storage, if `size` is a length that a buffer can have. -/
def allocate [Inhabited α] (p : BufferPool α) (size : Int) :
    BufferPool α × Except PoolFault (Buffer α) :=
  if size < 0 ∨ (p.limit : Int) < size then (p, .error .badLength)
  else
    ({ p with fresh := p.fresh + 1 },
      .ok ⟨p.fresh, List.replicate size.toNat default, size.toNat⟩)

/-- The first of the entries that is free and large enough is marked as held. -/
def take? (size : Int) : List (PoolEntry α) → Option (PoolEntry α × List (PoolEntry α))
  | [] => none
  | e :: es =>
    if !e.held && size ≤ e.capacity then some (e, { e with held := true } :: es)
    else (take? size es).map fun (found, es) => (found, e :: es)

/-- A buffer of length `size`: the first free one that is large enough, else a new one. A free
buffer counts as large enough for a negative size and is held although there is no such buffer. -/
def acquire [Inhabited α] (p : BufferPool α) (size : Int) :
    BufferPool α × Except PoolFault (Buffer α) :=
  match take? size p.entries with
  | some (e, entries) =>
    ({ p with entries },
      if size < 0 then .error (.badSlice size)
      else .ok ⟨e.storage, e.contents.take size.toNat, e.capacity⟩)
  | none =>
    match p.allocate size with
    | (p, .error fault) => (p, .error fault)
    | (p, .ok b) =>
      ({ p with entries := p.entries ++ [⟨b.storage, b.contents, true⟩] }, .ok b)

/-- The entries with the storage of `b` free again, holding what `b` holds. -/
def giveBack (b : Buffer α) : List (PoolEntry α) → Except PoolFault (List (PoolEntry α))
  | [] => .error .notOwned
  | e :: es =>
    if 0 < e.capacity ∧ 0 < b.capacity ∧ e.storage = b.storage then
      if e.held then
        .ok (⟨e.storage, b.contents ++ e.contents.drop b.contents.length, false⟩ :: es)
      else .error .notHeld
    else (giveBack b es).map (e :: ·)

/-- The pool after a buffer was given back. Storage of no length is not recognised. -/
def release (p : BufferPool α) (b : Buffer α) : BufferPool α × Option PoolFault :=
  match giveBack b p.entries with
  | .ok entries => ({ p with entries }, none)
  | .error fault => (p, some fault)

/-- The number and length of the first buffer that is held. -/
def firstHeld? (p : BufferPool α) : Option (Nat × Nat) :=
  (p.entries.zipIdx.find? (·.1.held)).map fun (e, i) => (i, e.capacity)

end BufferPool

/-- The scratch buffers of an evaluator. -/
structure ScratchPool where
  points : BufferPool Point
  floats : BufferPool Single

namespace ScratchPool

def empty : ScratchPool :=
  ⟨.empty (Nat.pow 2 45), .empty (Nat.pow 2 46)⟩

def heldMessage (pool : String) : Nat × Nat → String
  | (i, length) =>
    pool ++ " pool: buffer " ++ toString i ++ " of length " ++ toString length ++ " not released"

/-- What is held, in words, unless every buffer was given back. -/
def unreleased? (p : ScratchPool) : Option String :=
  match p.points.firstHeld? with
  | some held => some (heldMessage "V2" held)
  | none => p.floats.firstHeld?.map (heldMessage "Float")

end ScratchPool

/-- Where an evaluator looks for scratch buffers. -/
inductive ScratchSource where
  | nothing
  | pool (p : Option ScratchPool)
  /-- Something that can be asked for a pool. -/
  | provider (p : Option ScratchPool)
  /-- A value of another type. -/
  | other (typeName : String)

/-- Why no scratch buffers are found. -/
inductive ScratchError where
  | nilPool
  | nilProvided
  | notAPool (typeName : String)
  deriving DecidableEq, Repr

def ScratchError.message : ScratchError → String
  | nilPool => "nil VecPool"
  | nilProvided => "nil VecPool returned by userData"
  | notAPool typeName => "want userData type *VecPool, got " ++ typeName

namespace ScratchSource

/-- The pool that the source gives. -/
def find : ScratchSource → Except ScratchError ScratchPool
  | pool (some p) | provider (some p) => .ok p
  | pool none => .error .nilPool
  | provider none => .error .nilProvided
  | nothing => .error (.notAPool "<nil>")
  | other typeName => .error (.notAPool typeName)

/-- The source with its pool in a later state. -/
def update (p : ScratchPool) : ScratchSource → ScratchSource
  | pool (some _) => pool (some p)
  | provider (some _) => provider (some p)
  | source => source

/-- The source after a buffer was given back to its pool, if it has one. -/
def release (b : Buffer Point) (scratch : ScratchSource) : ScratchSource × Option PoolFault :=
  match scratch.find with
  | .error _ => (scratch, none)
  | .ok found =>
    match found.points.release b with
    | (points, fault) => (scratch.update { found with points }, fault)

end ScratchSource

end EscapeTime
