import EscapeTime.Orbit.Fractal
import Std.Data.HashMap

/-!
# Cached progress

A cache in front of a fractal remembers the progress of points by their bits and hands on only the
points it does not know. When new points do not fit it is cleared first.
-/

namespace EscapeTime

structure Cache where
  entries : Std.HashMap Point Single
  /-- The greatest number of entries. -/
  capacity : Nat
  hits : UInt64
  evaluations : UInt64

namespace Cache

/-- An empty cache, if the capacity is positive. -/
def new? (capacity : Int) : Except ConfigError Cache :=
  if capacity ≤ 0 then .error .cacheSize else .ok ⟨∅, capacity.toNat, 0, 0⟩

/-- What the cache knows of each point. -/
def look (c : Cache) (points : List Point) : List (Option Single) :=
  points.map (c.entries[·]?)

/-- The points that the cache does not know, in order and with repeats. -/
def misses (c : Cache) (points : List Point) : List Point :=
  points.filter (!c.entries.contains ·)

/-- The known values, with `found` filling the gaps in order. -/
def fillGaps : List (Option Single) → (found : List Single) → List Single
  | [], _ => []
  | some d :: known, found => d :: fillGaps known found
  | none :: known, d :: found => d :: fillGaps known found
  | none :: known, [] => default :: fillGaps known []

/-- The entries with those of `new` added until they are full. -/
def insertUpTo (capacity : Nat) (entries : Std.HashMap Point Single) :
    List (Point × Single) → Std.HashMap Point Single
  | [] => entries
  | (p, d) :: new =>
    if entries.size = capacity then entries
    else insertUpTo capacity (entries.insert p d) new

/-- The cache with the progress of new points. -/
def remember (c : Cache) (points : List Point) (progress : List Single) : Cache :=
  let kept := if c.capacity < c.entries.size + points.length then ∅ else c.entries
  { c with entries := insertUpTo c.capacity kept (points.zip progress) }

/-- The cache with the points of a successful call counted. -/
def count (c : Cache) (total missed : Nat) : Cache :=
  { c with
    evaluations := c.evaluations + UInt64.ofNat total
    hits := c.hits + UInt64.ofNat (total - missed) }

/-- The fractal `inner` with a cache in front of it. -/
def evaluate {σ : Type} (inner : Fractal σ) : Fractal (Cache × σ) :=
  fun (c, state) points progress scratch =>
    match bufferError? points progress with
    | some e => ⟨(c, state), progress, scratch, some e⟩
    | none =>
      let known := c.look points
      let missed := c.misses points
      if missed.isEmpty then
        ⟨(c.count points.length 0, state), fillGaps known [], scratch, none⟩
      else
        let r := inner state missed (missed.map fun _ => 0) scratch
        match r.error with
        | some e =>
          let partly := List.zipWith (fun d old => d.getD old) known progress
          ⟨(c, r.state), partly, r.scratch, some e⟩
        | none =>
          ⟨((c.remember missed r.progress).count points.length missed.length, r.state),
            fillGaps known r.progress, r.scratch, none⟩

end Cache

end EscapeTime
