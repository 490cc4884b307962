import EscapeTime.Number.Double

/-!
# Scalars of settings files

A scalar is a text. When it is not quoted, its form decides whether it is null, a truth value, a
number or just text.
-/

namespace EscapeTime.Yaml

open Number

/-- What a text is taken for. -/
inductive Value where
  | null
  | bool (b : Bool)
  | int (n : Int)
  | float (x : Double)
  | text

/-- The values that are spelled in one of a few ways. -/
def spelled? (s : String) : Option Value :=
  if s ∈ ["", "~", "null", "Null", "NULL"] then some .null
  else if s ∈ ["true", "True", "TRUE"] then some (.bool true)
  else if s ∈ ["false", "False", "FALSE"] then some (.bool false)
  else if s ∈ [".nan", ".NaN", ".NAN"] then some (.float .nan)
  else if s ∈ [".inf", ".Inf", ".INF", "+.inf", "+.Inf", "+.INF"] then
    some (.float (.infinite false))
  else if s ∈ ["-.inf", "-.Inf", "-.INF"] then some (.float (.infinite true))
  else none

/-- An unsigned number of 64 bits. -/
def readUnsigned? (cs : List Char) : Option Int :=
  if cs.isEmpty || cs.head? == some '-' || cs.head? == some '+' then none
  else
    let (base, digits) := splitBase cs
    (appendDigits base 0 digits).toOption.map fun (n : Nat) => (n : Int)

/-- A number with its sign behind the mark of the base. -/
def readLateSign? (cs : List Char) : Option Int :=
  let signed := fun base cs =>
    let (negative, digits) := splitSign cs
    if digits.isEmpty then none
    else
      match appendDigits base 0 digits with
      | .ok n =>
        if negative then if n ≤ Nat.pow 2 63 then some (-(n : Int)) else none
        else if n < Nat.pow 2 63 then some (n : Int) else none
      | .error _ => none
  match cs with
  | '0' :: 'b' :: cs => signed 2 cs
  | '0' :: 'o' :: cs => signed 8 cs
  | _ => none

/-- Whether the text has the form of a decimal number: a sign, digits with a point that does not
stand alone, and an exponent. -/
def isDecimal (cs : List Char) : Bool :=
  let isDigit := isDigitOf 10
  let (_, cs) := splitSign cs
  let whole := cs.takeWhile isDigit
  let (fraction, rest) := match cs.dropWhile isDigit with
    | '.' :: cs => (cs.takeWhile isDigit, cs.dropWhile isDigit)
    | cs => ([], cs)
  !(whole.isEmpty && fraction.isEmpty) &&
    match rest with
    | [] => true
    | mark :: exponent =>
      let (_, digits) := splitSign exponent
      mark.toLower == 'e' && !digits.isEmpty && digits.all isDigit

/-- The number that starts with a digit or a sign. Underscores are passed over. -/
def readNumber? (s : String) : Option Value :=
  let plain := s.toList.filter (· != '_')
  let text := String.ofList plain
  match readWord text with
  | .ok n => some (.int n)
  | .error _ =>
    match readUnsigned? plain with
    | some n => some (.int n)
    | none =>
      match (if isDecimal plain then (readDouble text).toOption else none) with
      | some x => some (.float x)
      | none => (readLateSign? plain).map .int

/-- What a text without quotes is taken for. -/
def Value.ofPlain (s : String) : Value :=
  match spelled? s with
  | some v => v
  | none =>
    match s.toList with
    | [] => .null
    | c :: _ =>
      if c = '.' then
        match readDouble s with
        | .ok x => .float x
        | .error _ => .text
      else if isDigitOf 10 c || c == '+' || c == '-' then (readNumber? s).getD .text
      else .text

/-- The name of the type of a value. -/
def Value.tag : Value → String
  | null => "!!null"
  | bool _ => "!!bool"
  | int _ => "!!int"
  | float _ => "!!float"
  | text => "!!str"

/-! ### Conversions -/

/-- The value of a field of a whole number. -/
def Value.toInt? : Value → Option Int
  | int n => if n < Nat.pow 2 63 then some n else none
  | float x => x.toWord?
  | _ => none

/-- The value of a field of a number. -/
def Value.toSingle? : Value → Option Single
  | int n => some (Double.ofInt n).toSingle
  | float x => some x.toSingle
  | _ => none

/-- The value of a field of a truth value, which may also be spelled out. -/
def Value.toBool? (s : String) : Value → Option Bool
  | bool b => some b
  | text =>
    if s ∈ ["y", "Y", "yes", "Yes", "YES", "on", "On", "ON"] then some true
    else if s ∈ ["n", "N", "no", "No", "NO", "off", "Off", "OFF"] then some false
    else none
  | _ => none

end EscapeTime.Yaml
