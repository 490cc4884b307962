import EscapeTime.Number.Numeral
import EscapeTime.Number.Whole

/-!
# Double precision

Numbers of settings files pass through double precision on their way to a single or to a whole
number.
-/

namespace EscapeTime.Number

/-- A double precision number. -/
inductive Double where
  | nan
  | infinite (negative : Bool)
  | finite (negative : Bool) (value : Magnitude)

namespace Double

/-- The finite number with these bits, or infinity. -/
def ofSignBits (negative : Bool) (bits : Nat) : Double :=
  if bits = binary64.infinity then .infinite negative
  else .finite negative (binary64.magnitude bits)

/-- The number nearest to an integer. -/
def ofInt (n : Int) : Double :=
  ofSignBits (n < 0) (binary64.nearest n.natAbs 1)

/-- The nearest single precision number. -/
def toSingle : Double → Single
  | nan => Single.nan
  | infinite negative => Single.ofSignBits negative binary32.infinity
  | finite negative value => Single.ofRatio negative value.ratio.1 value.ratio.2

/-- The least word, which stands for every number below the words. -/
def leastWord : Int := -Nat.pow 2 63

/-- The whole part of a number as a word. There is none of NaN and of numbers above `2 ^ 63`; that
number itself and all below the words give the least one. -/
def toWord? : Double → Option Int
  | nan => none
  | infinite negative => if negative then some leastWord else none
  | finite negative value =>
    let (num, den) := value.ratio
    let n : Int := (num / den : Nat)
    if negative then some (if Nat.pow 2 63 < n then leastWord else -n)
    else if Nat.pow 2 63 * den < num then none
    else some (if n = Nat.pow 2 63 then leastWord else n)

end Double

/-- The double precision number nearest to a numeral. -/
def readDouble (s : String) : Except NumeralError Double :=
  match Numeral.parse? s with
  | none => .error .malformed
  | some .nan => .ok .nan
  | some (.infinite negative) => .ok (.infinite negative)
  | some (.finite negative value) =>
    let bits := value.nearest binary64
    if bits = binary64.infinity then .error .outOfRange
    else .ok (.ofSignBits negative bits)

end EscapeTime.Number
