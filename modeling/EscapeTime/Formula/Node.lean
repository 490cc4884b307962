import EscapeTime.Formula.Error
import EscapeTime.Number.Numeral

/-!
# Syntax trees

The tree of a formula. Composite nodes carry the type that typing finds for them.
-/

namespace EscapeTime

/-- A number as it is written in shader code, and its value. -/
structure Literal where
  /-- The code, with a decimal point. -/
  code : String
  value : Single
  deriving DecidableEq, Repr

/-- The literal of a numeral. A numeral that denotes no number has the value NaN. -/
def Literal.ofNumeral (numeral : String) : Literal where
  code := if numeral.toList.contains '.' then numeral else numeral ++ "."
  value :=
    match Number.readSingle numeral with
    | .ok x => x
    | .error _ => Single.nan

inductive Node where
  | real (column : Int) (value : Literal)
  | imaginary (column : Int) (value : Literal)
  | complex (column : Int) (type : ValueType) (re im : Literal)
  | z (column : Int)
  | raw (column : Int) (code : String)
  | binary (column : Int) (type : ValueType) (op : Operator) (lhs rhs : Node)
  | call (column : Int) (type : ValueType) (complexInput : Bool) (fn : Builtin) (args : List Node)
  deriving Repr

namespace Node

/-- The column the node comes from. -/
def column : Node → Int
  | real c _ | imaginary c _ | complex c _ _ _ | z c | raw c _ | binary c _ _ _ _
  | call c _ _ _ _ => c

def type : Node → ValueType
  | real _ _ => .real
  | imaginary _ _ => .complex
  | complex _ t _ _ => t
  | z _ => .complex
  | raw _ _ => .unknowable
  | binary _ t _ _ _ => t
  | call _ t _ _ _ => t

/-! ### Untyped nodes -/

def ofReal (column : Int) (numeral : String) : Node :=
  real column (.ofNumeral numeral)

def ofImaginary (column : Int) (numeral : String) : Node :=
  imaginary column (.ofNumeral numeral)

/-- The number `numeral * i`, which typing finds real if the numeral is zero. -/
def ofImaginaryPart (column : Int) (numeral : String) : Node :=
  complex column .undetermined (.ofNumeral "0") (.ofNumeral numeral)

def apply₂ (column : Int) (op : Operator) (lhs rhs : Node) : Node :=
  binary column .undetermined op lhs rhs

def apply (column : Int) (fn : Builtin) (args : List Node) : Node :=
  call column .undetermined false fn args

/-- The operation with this symbol. -/
def ofSymbol (column : Int) (symbol : String) (lhs rhs : Node) : Except Fault Node :=
  match Operator.ofSymbol? symbol with
  | some op => .ok (apply₂ column op lhs rhs)
  | none => .error (.unknownOperator symbol)

/-- The call of the function with this name. -/
def ofName (column : Int) (name : String) (args : List Node) : Except Fault Node :=
  match Builtin.ofName? name with
  | some fn => .ok (apply column fn args)
  | none => .error (.unknownFunction name)

/-! ### Walking a tree -/

mutual

/-- All nodes with their depths, parents before children and children from left to right. -/
def walk (depth : Nat) : Node → List (Nat × Node)
  | .binary c t op lhs rhs =>
    (depth, .binary c t op lhs rhs) :: (walk (depth + 1) lhs ++ walk (depth + 1) rhs)
  | .call c t complexInput fn args =>
    (depth, .call c t complexInput fn args) :: walkAll (depth + 1) args
  | leaf => [(depth, leaf)]

def walkAll (depth : Nat) : List Node → List (Nat × Node)
  | [] => []
  | n :: ns => walk depth n ++ walkAll depth ns

end

mutual

/-- Whether the tree holds raw shader code. -/
def hasRaw : Node → Bool
  | .raw _ _ => true
  | .binary _ _ _ lhs rhs => hasRaw lhs || hasRaw rhs
  | .call _ _ _ _ args => anyRaw args
  | _ => false

def anyRaw : List Node → Bool
  | [] => false
  | n :: ns => hasRaw n || anyRaw ns

end

end Node

end EscapeTime
