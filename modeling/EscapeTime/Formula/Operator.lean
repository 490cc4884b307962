import EscapeTime.Formula.Descriptor

/-!
# Operators

The six binary operators, from the loosest to the tightest.
-/

namespace EscapeTime

inductive Operator where
  | add
  | sub
  | mul
  | div
  | mod
  | pow
  deriving DecidableEq, Repr

namespace Operator

def all : List Operator :=
  [add, sub, mul, div, mod, pow]

def symbol : Operator → String
  | add => "+"
  | sub => "-"
  | mul => "*"
  | div => "/"
  | mod => "%"
  | pow => "^"

def ofSymbol? (s : String) : Option Operator :=
  all.find? (·.symbol == s)

/-- Operators of higher precedence bind tighter. -/
def precedence : Operator → Nat
  | add | sub => 20
  | mul | div | mod => 30
  | pow => 40

/-- The floored remainder `x - y * floor (x / y)`. -/
def floorMod (x y : Single) : Single :=
  x - y * Single.floor (x / y)

def descriptor : Operator → Descriptor
  | add =>
    let form : Form := ⟨.ofPattern "(#+#)", .binary Vec2.add⟩
    ⟨"+", [.complex, .complex], .same, form, some form⟩
  | sub =>
    let form : Form := ⟨.ofPattern "(#-#)", .binary Vec2.sub⟩
    ⟨"-", [.complex, .complex], .same, form, some form⟩
  | mul => ⟨"*", [.complex, .complex], .same,
      ⟨.ofPattern "(#*#)", .binary Vec2.mulEach⟩,
      some ⟨.ofPattern "cMul(#,#)", .binary Vec2.mul⟩⟩
  | div => ⟨"/", [.complex, .complex], .same,
      ⟨.ofPattern "vec2((#).x/(#).x,0.)", .ofReal₂ (· / ·)⟩,
      some ⟨.ofPattern "cDiv(#,#)", .binary Vec2.div⟩⟩
  | mod => ⟨"%", [.real, .real], .same,
      ⟨.ofPattern "vec2(mod((#).x,(#).x),0.)", .ofReal₂ floorMod⟩, none⟩
  | pow => ⟨"^", [.complex, .complex], .complex,
      ⟨.ofPattern "vec2(pow((#).x,(#).x),0.)", .ofReal₂ Single.pow⟩,
      some ⟨.ofPattern "cPow(#,#)", .binary Vec2.pow⟩⟩

end Operator

end EscapeTime
