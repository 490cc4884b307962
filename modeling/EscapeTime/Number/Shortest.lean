import EscapeTime.Number.Single

/-!
# Shortest decimal text

The text of a number has the fewest digits that read back as the same number, and of those the
nearest. It is positional for decimal exponents from -4 to 5 and has an exponent otherwise.
-/

namespace EscapeTime.Number

/-- The decimal number `digits * 10 ^ exponent`. -/
structure Decimal where
  digits : Nat
  exponent : Int

/-- The decimal with exponent `k` nearest to a positive number, if one lies among the reals that
round to that number. -/
def decimalOn? (m : Magnitude) (k : Int) : Option Decimal :=
  -- All quantities are multiples of a quarter of the gap to the next number above.
  let e := m.exponent - 2
  let unit := Nat.pow 2 e.toNat * Nat.pow 10 (-k).toNat
  let den := Nat.pow 2 (-e).toNat * Nat.pow 10 k.toNat
  let value := 4 * m.mantissa * unit
  let high := (4 * m.mantissa + 2) * unit
  let low :=
    if m.mantissa = Nat.pow 2 (binary32.precision - 1) ∧ -(binary32.lowest : Int) < m.exponent then
      (4 * m.mantissa - 1) * unit
    else (4 * m.mantissa - 2) * unit
  let inside := fun (c : Nat) =>
    if m.mantissa % 2 = 0 then decide (low ≤ c * den ∧ c * den ≤ high)
    else decide (low < c * den ∧ c * den < high)
  let below := value / den
  let above := below + 1
  match inside below, inside above with
  | true, true => some ⟨divRound value den, k⟩
  | true, false => some ⟨below, k⟩
  | false, true => some ⟨above, k⟩
  | false, false => none

/-- The decimal with the fewest digits that reads back as the positive number `m`. Single precision
lies between 10 ^ -46 and 10 ^ 39, and nine digits always suffice. -/
def shortest (m : Magnitude) : Decimal :=
  ((List.range 96).findSome? fun (i : Nat) => decimalOn? m (39 - (i : Int))).getD ⟨0, 0⟩

/-- An exponent with its sign and at least two digits. -/
def exponentText (e : Int) : String :=
  let digits := toString e.natAbs
  (if e < 0 then "e-" else "e+") ++ (if digits.length < 2 then "0" ++ digits else digits)

/-- The text of a positive decimal. -/
def Decimal.text (d : Decimal) : String :=
  let digits := Nat.toDigits 10 d.digits
  let point := digits.length + d.exponent
  if point < -3 ∨ 6 < point then
    let fraction := digits.drop 1
    String.ofList (digits.take 1 ++ if fraction.isEmpty then [] else '.' :: fraction) ++
      exponentText (point - 1)
  else if point ≤ 0 then
    String.ofList ('0' :: '.' :: List.replicate (-point).toNat '0' ++ digits)
  else
    let whole := digits.take point.toNat
    let fraction := digits.drop point.toNat
    String.ofList (whole ++ List.replicate (point.toNat - digits.length) '0' ++
      if fraction.isEmpty then [] else '.' :: fraction)

/-- The text of a single precision number in a message. -/
def singleText (x : Single) : String :=
  if x.isNaN then "NaN"
  else if x.isInf then if x.isNegative then "-Inf" else "+Inf"
  else
    let m := x.magnitude
    (if x.isNegative then "-" else "") ++
      if m.mantissa = 0 then "0" else (shortest m).text

end EscapeTime.Number
