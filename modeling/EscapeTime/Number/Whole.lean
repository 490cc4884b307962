import EscapeTime.Number.Numeral

/-!
# Machine integers

Counts and sizes are signed words of 64 bits. `word` brings an exact result back into a word, and
`readWord` reads one in base two, eight, ten or sixteen.
-/

namespace EscapeTime.Number

/-- The signed 64-bit word that agrees with `n` modulo `2 ^ 64`. -/
def word (n : Int) : Int :=
  n.bmod (Nat.pow 2 64)

/-- The digits of `cs` appended to `n`, in order: the first fault decides. -/
def appendDigits (base : Nat) : (n : Nat) → List Char → Except NumeralError Nat
  | n, [] => .ok n
  | n, c :: cs =>
    if c = '_' then appendDigits base n cs
    else
      match digitValue? c with
      | none => .error .malformed
      | some d =>
        if base ≤ d then .error .malformed
        else if Nat.pow 2 64 ≤ n * base + d then .error .outOfRange
        else appendDigits base (n * base + d) cs

/-- The base of an unsigned integer and its digits. A leading zero alone means base eight. -/
def splitBase : List Char → Nat × List Char
  | '0' :: mark :: c :: cs =>
    match mark.toLower with
    | 'b' => (2, c :: cs)
    | 'o' => (8, c :: cs)
    | 'x' => (16, c :: cs)
    | _ => (8, mark :: c :: cs)
  | '0' :: cs => (8, cs)
  | cs => (10, cs)

/-- The signed word that a text denotes. -/
def readWord (s : String) : Except NumeralError Int := do
  let (negative, cs) := splitSign s.toList
  if cs.isEmpty then throw .malformed
  let (base, digits) := splitBase cs
  let n ← appendDigits base 0 digits
  if cs.contains '_' && !separatorsOk cs then throw .malformed
  if negative then
    if Nat.pow 2 63 < n then throw .outOfRange
    return -(n : Int)
  else
    if Nat.pow 2 63 ≤ n then throw .outOfRange
    return n

end EscapeTime.Number
