import EscapeTime.Number.Single

/-!
# Reading numerals

A numeral is a decimal or hexadecimal number with an optional fraction and exponent, or the name of
an infinity or of NaN. It denotes an exact number, which is rounded once to the format asked for.
-/

namespace EscapeTime.Number

/-- Why a text does not give a number. -/
inductive NumeralError where
  | malformed
  | outOfRange
  deriving DecidableEq, Repr

/-- The exact number `digits * base ^ exponent`. -/
structure Scientific where
  base : Nat
  digits : Nat
  exponent : Int

/-- The bits of the number nearest to `x`. Exponents far outside the range of every format are
settled without forming the power. -/
def Scientific.nearest (f : BinaryFormat) (x : Scientific) : Nat :=
  if x.digits = 0 then 0
  else
    let size := (Nat.toDigits x.base x.digits).length + x.exponent
    if 1200 < size then f.infinity
    else if size < -1200 then 0
    else if 0 ≤ x.exponent then f.nearest (x.digits * Nat.pow x.base x.exponent.toNat) 1
    else f.nearest x.digits (Nat.pow x.base (-x.exponent).toNat)

/-- What a numeral says. -/
inductive Numeral where
  | nan
  | infinite (negative : Bool)
  | finite (negative : Bool) (value : Scientific)

/-- The value of a digit, up to fifteen. -/
def digitValue? (c : Char) : Option Nat :=
  let n := c.toLower.toNat
  if 48 ≤ n ∧ n ≤ 57 then some (n - 48)
  else if 97 ≤ n ∧ n ≤ 102 then some (n - 87)
  else none

/-- Whether `c` is a digit of the base, ten or sixteen. -/
def isDigitOf (base : Nat) (c : Char) : Bool :=
  match digitValue? c with
  | some d => d < base
  | none => false

/-- The number that the digits of `cs` spell. -/
def digitsValue (base : Nat) (cs : List Char) : Nat :=
  cs.foldl (fun n c => n * base + (digitValue? c).getD 0) 0

/-- A leading sign, and whether it is a minus. -/
def splitSign : List Char → Bool × List Char
  | '-' :: cs => (true, cs)
  | '+' :: cs => (false, cs)
  | cs => (false, cs)

/-- The last character seen while the separators of a numeral are checked. -/
inductive Seen where
  | start
  | digit
  | separator
  | other
  deriving DecidableEq

/-- Whether each `_` stands between two digits. -/
def separatorsFit (isDigit : Char → Bool) : Seen → List Char → Bool
  | seen, [] => seen != .separator
  | seen, c :: cs =>
    if isDigit c then separatorsFit isDigit .digit cs
    else if c = '_' then seen == .digit && separatorsFit isDigit .separator cs
    else seen != .separator && separatorsFit isDigit .other cs

/-- Whether the separators of an unsigned numeral stand between digits. A base mark counts as a
digit. -/
def separatorsOk (cs : List Char) : Bool :=
  match cs with
  | '0' :: mark :: rest =>
    let mark := mark.toLower
    if mark = 'x' then separatorsFit (isDigitOf 16) .digit rest
    else if mark = 'b' ∨ mark = 'o' then separatorsFit (isDigitOf 10) .digit rest
    else separatorsFit (isDigitOf 10) .start cs
  | _ => separatorsFit (isDigitOf 10) .start cs

/-- The digits of a numeral, how many of them follow the point, and the text after them. -/
structure Significand where
  digits : List Char
  places : Nat
  rest : List Char

/-- The longest run of digits of the base with at most one point. Separators are passed over. -/
def Significand.scan (base : Nat) (cs : List Char) : Significand :=
  let belongs := fun c => isDigitOf base c || c == '_'
  let whole := (cs.takeWhile belongs).filter (· != '_')
  match cs.dropWhile belongs with
  | '.' :: more =>
    let fraction := (more.takeWhile belongs).filter (· != '_')
    ⟨whole ++ fraction, fraction.length, more.dropWhile belongs⟩
  | rest => ⟨whole, 0, rest⟩

/-- The exponent that fills the text after its mark: a sign, then digits of which the first stands
at once. Digits after the fifth are dropped: the number is out of range already. -/
def readExponent? (cs : List Char) : Option Int :=
  let (negative, digits) := splitSign cs
  let belongs := fun c => isDigitOf 10 c || c == '_'
  match digits with
  | [] => none
  | c :: _ =>
    if isDigitOf 10 c && digits.all belongs then
      let n := (digits.filter (· != '_')).foldl
        (fun n c => if n < 10000 then n * 10 + (digitValue? c).getD 0 else n) 0
      some (if negative then -(n : Int) else n)
    else none

/-- A decimal number: digits, then perhaps an exponent of ten. -/
def readDecimal? (cs : List Char) : Option Scientific :=
  let s := Significand.scan 10 cs
  if s.digits.isEmpty then none
  else
    let value := fun (e : Int) => Scientific.mk 10 (digitsValue 10 s.digits) (e - s.places)
    match s.rest with
    | [] => some (value 0)
    | mark :: rest => if mark.toLower = 'e' then (readExponent? rest).map value else none

/-- A hexadecimal number after its base mark: digits, then an exponent of two. -/
def readHexadecimal? (cs : List Char) : Option Scientific :=
  let s := Significand.scan 16 cs
  if s.digits.isEmpty then none
  else
    match s.rest with
    | [] => none
    | mark :: rest =>
      if mark.toLower = 'p' then
        (readExponent? rest).map fun e => ⟨2, digitsValue 16 s.digits, e - 4 * s.places⟩
      else none

/-- What the text says, if it is a numeral. -/
def Numeral.parse? (s : String) : Option Numeral :=
  let (negative, cs) := splitSign s.toList
  let word := cs.map Char.toLower
  if word = "inf".toList ∨ word = "infinity".toList then some (.infinite negative)
  else if s.toList.map Char.toLower = "nan".toList then some .nan
  else
    let value :=
      match cs with
      | '0' :: mark :: c :: rest =>
        if mark.toLower = 'x' then readHexadecimal? (c :: rest) else readDecimal? cs
      | _ => readDecimal? cs
    if cs.contains '_' && !separatorsOk cs then none
    else value.map (.finite negative)

/-- The single precision number nearest to a numeral. -/
def readSingle (s : String) : Except NumeralError Single :=
  match Numeral.parse? s with
  | none => .error .malformed
  | some .nan => .ok Single.nan
  | some (.infinite negative) => .ok (Single.ofSignBits negative binary32.infinity)
  | some (.finite negative value) =>
    let bits := value.nearest binary32
    if bits = binary32.infinity then .error .outOfRange
    else .ok (Single.ofSignBits negative bits)

end EscapeTime.Number
