import EscapeTime.Text.Utf8

/-!
# Referenced helpers

The helpers that shader code calls. A helper is an identifier that starts with `c` and an upper-case
letter. The code is scanned as bytes.
-/

namespace EscapeTime.Shader

/-- Whether the byte is an upper-case letter. -/
def isUpper (b : UInt8) : Bool :=
  'A'.toUInt8 ≤ b && b ≤ 'Z'.toUInt8

/-- Whether the byte can stand in an identifier. -/
def isIdent (b : UInt8) : Bool :=
  isUpper b || ('a'.toUInt8 ≤ b && b ≤ 'z'.toUInt8) || ('0'.toUInt8 ≤ b && b ≤ '9'.toUInt8) ||
    b == '_'.toUInt8

/-- Where the identifier bytes from `i` on end. -/
def identEnd (code : Array UInt8) (i : Nat) : Nat :=
  if h : i < code.size then
    if isIdent code[i] then identEnd code (i + 1) else i
  else i

theorem le_identEnd (code : Array UInt8) (i : Nat) : i ≤ identEnd code i := by
  fun_induction identEnd code i <;> omega

/-- Whether a helper name can start at `i`: there stand `c` and an upper-case letter, and no
identifier goes on there. -/
def startsHelper (code : Array UInt8) (i : Nat) (h : i + 1 < code.size) : Bool :=
  code[i] == 'c'.toUInt8 && isUpper code[i + 1] && !(0 < i && isIdent code[i - 1])

/-- The names found from `i` on, after those in `names`. A name is looked for again at the next
byte, but behind its parenthesis where one was found. -/
def scanHelpers (code : Array UInt8) (i : Nat) (names : List String) : List String :=
  if h : i + 1 < code.size then
    if startsHelper code i h then
      let e := identEnd code (i + 1)
      if code[e]? = some '('.toUInt8 then
        let name := String.ofList ((code.extract i e).toList.map Char.ofUInt8)
        scanHelpers code (e + 1) (if names.contains name then names else names ++ [name])
      else scanHelpers code (i + 1) names
    else scanHelpers code (i + 1) names
  else names
termination_by code.size - i
decreasing_by
  · have := le_identEnd code (i + 1)
    omega
  · omega
  · omega

/-- The distinct names of the helpers that the bytes call, in the order of their first calls. -/
def referencedHelpers (code : List UInt8) : List String :=
  scanHelpers code.toArray 0 []

/-- The distinct names of the helpers that the code calls. -/
def calledHelpers (code : String) : List String :=
  referencedHelpers (Text.encodeUtf8 code)

end EscapeTime.Shader
