import EscapeTime.Number.Single

/-!
# Float literals

A literal has nine places rounded to nearest, less the zeros at its end, and always a decimal point.
-/

namespace EscapeTime.Shader

open Number

/-- The last `width` decimal digits of `n`. -/
def decimalDigits : (width : Nat) → (n : Nat) → List Char
  | 0, _ => []
  | width + 1, n => decimalDigits width (n / 10) ++ [Char.ofNat (48 + n % 10)]

/-- The number of places of a literal. -/
def places : Nat := 9

/-- A finite number in units of its last place, the sign left out. -/
def fixedPoint (x : Single) : Nat :=
  let (num, den) := x.magnitude.ratio
  divRound (num * Nat.pow 10 places) den

/-- The text of `x` with all its places. Infinities and NaN have names. -/
def fixedText (x : Single) : List Char :=
  if x.isNaN then "NaN".toList
  else if x.isInf then (if x.isNegative then '-' else '+') :: "Inf".toList
  else
    let n := fixedPoint x
    (if x.isNegative then ['-'] else []) ++ Nat.toDigits 10 (n / Nat.pow 10 places) ++ '.' ::
      decimalDigits places (n % Nat.pow 10 places)

/-- The text with another sign in the place of a minus sign at `start`. -/
def replaceMinus (minus : UInt8) (start : Nat) (text : List UInt8) : List UInt8 :=
  if text[start]? = some '-'.toUInt8 then text.set start minus else text

/-- The text without the zeros at its end. The first `kept` bytes stay. -/
def trimZeros (kept : Nat) (text : List UInt8) : List UInt8 :=
  text.take kept ++ ((text.drop kept).reverse.dropWhile (· == '0'.toUInt8)).reverse

/-- The bytes followed by the literal of `x` with the given minus sign and decimal mark. -/
def appendLiteral (minus mark : UInt8) (before : List UInt8) (x : Single) : List UInt8 :=
  let start := before.length
  let text := before ++ (fixedText x).map Char.toUInt8
  match (text.drop start).idxOf? '.'.toUInt8 with
  | none => replaceMinus minus start text
  | some point =>
    trimZeros (start + point + 1) (replaceMinus minus start (text.set (start + point) mark))

/-- The bytes followed by the literals of several numbers, with `separator` between them if there
is one. -/
def appendLiterals (separator : Option UInt8) (minus mark : UInt8) :
    (before : List UInt8) → List Single → List UInt8
  | before, [] => before
  | before, [x] => appendLiteral minus mark before x
  | before, x :: xs =>
    appendLiterals separator minus mark (appendLiteral minus mark before x ++ separator.toList) xs

/-- The literal in shader code. -/
def floatCode (x : Single) : String :=
  String.ofList ((appendLiteral '-'.toUInt8 '.'.toUInt8 [] x).map Char.ofUInt8)

end EscapeTime.Shader
