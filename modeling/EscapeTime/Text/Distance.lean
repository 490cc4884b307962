/-!
# Edit distance

The least number of insertions, deletions and replacements that turn one list into another.
-/

namespace EscapeTime.Text

variable {α : Type} [DecidableEq α]

/-- The distances of a list that ends in `c` to the starts of `t` after the empty one. `diagonal`
and `above` are the distances of the list without `c`, and `left` is that to the start before. -/
def distancesAfter (c : α) : (t : List α) → (diagonal : Nat) → (above : List Nat) → (left : Nat) →
    List Nat
  | d :: t, diagonal, up :: above, left =>
    let x := if c = d then diagonal else min (min up left) diagonal + 1
    x :: distancesAfter c t up above x
  | _, _, _, _ => []

/-- The distances of a list that ends in `c` to all starts of `t`. -/
def nextDistances (t : List α) (row : List Nat) (c : α) : List Nat :=
  match row with
  | [] => []
  | first :: above => (first + 1) :: distancesAfter c t first above (first + 1)

/-- The distance between two lists. -/
def editDistance (s t : List α) : Nat :=
  (s.foldl (nextDistances t) (List.range (t.length + 1))).getLastD 0

end EscapeTime.Text
