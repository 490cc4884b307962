/-!
# Rounding a quotient

`divRound a b` is the whole number nearest to `a / b`. Both float formats and decimal text round
through it.
-/

namespace EscapeTime.Number

/-- The whole number nearest to `a / b`, the even one where two are equally near. -/
def divRound (a b : Nat) : Nat :=
  let q := a / b
  let r := a % b
  if 2 * r < b then q
  else if b < 2 * r then q + 1
  else q + q % 2

end EscapeTime.Number
