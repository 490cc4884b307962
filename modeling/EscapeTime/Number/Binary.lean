import EscapeTime.Number.Rounding

/-!
# Binary floating point

A finite number of a binary format is `mantissa * 2 ^ exponent`. `BinaryFormat.nearest` gives the
bits of the number nearest to a quotient, and `Magnitude.ofBits` reads bits back.
-/

namespace EscapeTime.Number

/-- A binary interchange format: the bits of a mantissa, the least exponent `-lowest`, and the bit
pattern of infinity. -/
structure BinaryFormat where
  precision : Nat
  lowest : Nat
  infinity : Nat

/-- Single precision, the format of all values of a formula. -/
def binary32 : BinaryFormat := ⟨24, 149, 0x7f800000⟩

/-- Double precision. -/
def binary64 : BinaryFormat := ⟨53, 1074, 0x7ff0000000000000⟩

/-- The number `mantissa * 2 ^ exponent`. -/
structure Magnitude where
  mantissa : Nat
  exponent : Int

/-- The number as a numerator and a denominator. -/
def Magnitude.ratio (x : Magnitude) : Nat × Nat :=
  if 0 ≤ x.exponent then (x.mantissa * Nat.pow 2 x.exponent.toNat, 1)
  else (x.mantissa, Nat.pow 2 (-x.exponent).toNat)

/-- The greatest `e` with `2 ^ e ≤ num / den`, for positive `num` and `den`. -/
def floorLog2 (num den : Nat) : Int :=
  let e : Int := num.log2 - den.log2
  let fits := if 0 ≤ e then den * Nat.pow 2 e.toNat ≤ num else den ≤ num * Nat.pow 2 (-e).toNat
  if fits then e else e - 1

/-- The bits of the non-negative number of the format nearest to `num / den`, the one with an even
mantissa where two are equally near, and those of infinity beyond the largest. -/
def BinaryFormat.nearest (f : BinaryFormat) (num den : Nat) : Nat :=
  if num = 0 then 0
  else
    let exponent := max (floorLog2 num den - (f.precision - 1 : Nat)) (-(f.lowest : Int))
    let mantissa :=
      if 0 ≤ exponent then divRound num (den * Nat.pow 2 exponent.toNat)
      else divRound (num * Nat.pow 2 (-exponent).toNat) den
    -- A mantissa of full length carries its leading bit into the exponent field.
    min f.infinity ((exponent + f.lowest).toNat * Nat.pow 2 (f.precision - 1) + mantissa)

/-- The finite number with these bits, the sign bit left out. -/
def BinaryFormat.magnitude (f : BinaryFormat) (bits : Nat) : Magnitude :=
  let field := bits / Nat.pow 2 (f.precision - 1)
  let rest := bits % Nat.pow 2 (f.precision - 1)
  if field = 0 then ⟨rest, -(f.lowest : Int)⟩
  else ⟨rest + Nat.pow 2 (f.precision - 1), (field : Int) - 1 - f.lowest⟩

end EscapeTime.Number
