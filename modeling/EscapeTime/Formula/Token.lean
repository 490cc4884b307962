import EscapeTime.Text.Quoted

/-!
# Tokens

A token is a lexical element of a formula and the column it came from.
-/

namespace EscapeTime

inductive TokenKind where
  | z
  | imaginary
  | op
  | function
  | number
  | comma
  | parenOpen
  | parenClose
  | rawCode
  /-- No kind of token: a number that none of the others has. -/
  | other (code : UInt8)
  deriving DecidableEq, Repr

namespace TokenKind

/-- The kind with a number, counted from one. -/
def ofCode (code : UInt8) : TokenKind :=
  match code.toNat with
  | 1 => z
  | 2 => imaginary
  | 3 => op
  | 4 => function
  | 5 => number
  | 6 => comma
  | 7 => parenOpen
  | 8 => parenClose
  | 9 => rawCode
  | _ => other code

def name : TokenKind → String
  | z => "z"
  | imaginary => "i"
  | op => "Op"
  | function => "Function"
  | number => "Number"
  | comma => "Comma"
  | parenOpen => "ParenOpen"
  | parenClose => "ParenClose"
  | rawCode => "RawCode"
  | other code => "TokenKind(" ++ toString code.toNat ++ ")"

/-- The kinds that a message asks for. -/
def listNames : List TokenKind → String
  | [kind] => kind.name
  | kinds => "one of [" ++ " ".intercalate (kinds.map name) ++ "]"

end TokenKind

structure Token where
  kind : TokenKind
  /-- The column of the formula where the token starts, counted from zero. -/
  column : Nat
  /-- The operator symbol, function name, number or raw code. -/
  text : String
  /-- Set for a multiplication that stands between adjacent factors such as `2z`. -/
  implicit : Bool
  deriving DecidableEq, Repr

namespace Token

/-- The multiplication between two adjacent factors. -/
def times (column : Nat) : Token :=
  ⟨.op, column, "*", true⟩

/-- The token as a message shows it. -/
def describe (t : Token) : String :=
  match t.kind with
  | .op | .function | .number => t.kind.name ++ "(" ++ t.text ++ ")"
  | .rawCode => "RawCode(" ++ Text.quote t.text ++ ")"
  | kind => kind.name

end Token

end EscapeTime
