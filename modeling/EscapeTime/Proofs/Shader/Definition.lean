import EscapeTime.Plane.Vec2
import EscapeTime.Proofs.Shader.Expression

/-!
# Function definitions of the shading language

A reader and an evaluator for function definitions: vectors of two scalars with their selections,
arithmetic coordinate by coordinate, local variables, and calls of functions that were defined
before. The arithmetic of scalars is left open.
-/

namespace EscapeTime.Shader

/-! ### Syntax -/

inductive Term where
  | name (text : String)
  | literal (numeral : String)
  | apply (function : String) (arg : Term)
  | apply₂ (function : String) (first second : Term)
  | select (e : Term) (coordinate : Coordinate)
  | negate (e : Term)
  | arith (op : Arithmetic) (lhs rhs : Term)
  deriving DecidableEq

inductive ValueType where
  | float
  | vec2
  deriving DecidableEq

structure Parameter where
  type : ValueType
  name : String
  deriving DecidableEq

/-- A local variable with its value. -/
structure Local extends Parameter where
  value : Term
  deriving DecidableEq

/-- A function that sets its local variables one after the other and returns a value. -/
structure Definition where
  result : ValueType
  name : String
  parameters : List Parameter
  locals : List Local
  value : Term
  deriving DecidableEq

/-! ### Symbols -/

inductive Symbol where
  | word (text : String)
  | numeral (text : String)
  | mark (c : Char)
  deriving DecidableEq

/-- The symbol of a run of characters, if there are any. -/
def Symbol.ofRun : List Char → List Symbol
  | [] => []
  | c :: cs =>
    let text := String.ofList (c :: cs)
    [if c.isDigit then numeral text else word text]

/-- A point belongs to a numeral and is a mark of its own elsewhere. -/
def continues (run : List Char) (c : Char) : Bool :=
  isWordChar c || c == '.' && run.head?.any Char.isDigit

/-- The symbols of a text after a run of characters. Each is as long as it can be. -/
def symbols (run : List Char) : List Char → List Symbol
  | [] => Symbol.ofRun run
  | c :: cs =>
    if continues run c then symbols (run ++ [c]) cs
    else if c.isWhitespace then Symbol.ofRun run ++ symbols [] cs
    else Symbol.ofRun run ++ .mark c :: symbols [] cs

/-! ### Reading -/

namespace Term

/-- The selections that follow a term. -/
def selections (e : Term) : List Symbol → Term × List Symbol
  | .mark '.' :: .word "x" :: rest => selections (.select e .x) rest
  | .mark '.' :: .word "y" :: rest => selections (.select e .y) rest
  | rest => (e, rest)

mutual

/-- Operands of a tier with its operators between them. -/
def chain : (fuel : Nat) → Tier → List Symbol → Option (Term × List Symbol)
  | 0, _, _ => none
  | fuel + 1, tier, symbols => do
    let (lhs, rest) ← operand fuel tier symbols
    more fuel tier lhs rest

def operand : (fuel : Nat) → Tier → List Symbol → Option (Term × List Symbol)
  | 0, _, _ => none
  | fuel + 1, .sum, symbols => chain fuel .product symbols
  | fuel + 1, .product, symbols => factor fuel symbols

/-- The operators that follow `lhs`, each with its operand, applied from the left. -/
def more : (fuel : Nat) → Tier → (lhs : Term) → List Symbol → Option (Term × List Symbol)
  | fuel + 1, tier, lhs, .mark c :: rest =>
    match tier.operator? c with
    | none => some (lhs, .mark c :: rest)
    | some op => do
      let (rhs, rest) ← operand fuel tier rest
      more fuel tier (.arith op lhs rhs) rest
  | _, _, lhs, rest => some (lhs, rest)

/-- A minus sign binds tighter than the operators and looser than a selection. -/
def factor : (fuel : Nat) → List Symbol → Option (Term × List Symbol)
  | fuel + 1, .mark '-' :: rest => do
    let (e, rest) ← factor fuel rest
    some (.negate e, rest)
  | fuel + 1, .mark '(' :: rest => do
    match ← chain fuel .sum rest with
    | (e, .mark ')' :: rest) => some (selections e rest)
    | _ => none
  | fuel + 1, .word function :: .mark '(' :: rest => do
    match ← chain fuel .sum rest with
    | (e, .mark ')' :: rest) => some (selections (.apply function e) rest)
    | (first, .mark ',' :: rest) =>
      match ← chain fuel .sum rest with
      | (second, .mark ')' :: rest) => some (selections (.apply₂ function first second) rest)
      | _ => none
    | _ => none
  | _ + 1, .word text :: rest => some (selections (.name text) rest)
  | _ + 1, .numeral text :: rest => some (.literal text, rest)
  | _, _ => none

end

/-- The term at the front. No five calls in a row leave the symbols as they are. -/
def read (symbols : List Symbol) : Option (Term × List Symbol) :=
  chain (5 * symbols.length + 5) .sum symbols

end Term

namespace Definition

def readType : String → Option ValueType
  | "float" => some .float
  | "vec2" => some .vec2
  | _ => none

/-- The parameters up to the closing parenthesis. -/
def readParameters : List Symbol → Option (List Parameter × List Symbol)
  | .word type :: .word name :: .mark ')' :: rest => do
    some ([⟨← readType type, name⟩], rest)
  | .word type :: .word name :: .mark ',' :: rest => do
    let (parameters, rest) ← readParameters rest
    some (⟨← readType type, name⟩ :: parameters, rest)
  | _ => none

/-- The statements of a body: local variables, and at the end the returned value. -/
def readBody : (fuel : Nat) → List Symbol → Option (List Local × Term)
  | 0, _ => none
  | _ + 1, .word "return" :: rest => do
    match ← Term.read rest with
    | (value, [.mark ';', .mark '\x7d']) => some ([], value)
    | _ => none
  | fuel + 1, .word type :: .word name :: .mark '=' :: rest => do
    match ← Term.read rest with
    | (value, .mark ';' :: rest) =>
      let (locals, result) ← readBody fuel rest
      some (⟨⟨← readType type, name⟩, value⟩ :: locals, result)
    | _ => none
  | _, _ => none

/-- The definition that a text spells. -/
def read (text : List Char) : Option Definition :=
  match symbols [] text with
  | .word type :: .word name :: .mark '(' :: rest => do
    match ← readParameters rest with
    | (parameters, .mark '\x7b' :: rest) =>
      let (locals, value) ← readBody rest.length rest
      some ⟨← readType type, name, parameters, locals, value⟩
    | _ => none
  | _ => none

end Definition

/-! ### Values -/

inductive Quantity (α : Type) where
  | scalar (x : α)
  | vector (p : Vec2 α)

/-- What a name gives for arguments, if it is a function of such. -/
abbrev Call (α : Type) := String → List (Quantity α) → Option (Quantity α)

variable {α : Type}

def Quantity.type : Quantity α → ValueType
  | scalar _ => .float
  | vector _ => .vec2

def Quantity.select? : Coordinate → Quantity α → Option (Quantity α)
  | .x, vector p => some (scalar p.x)
  | .y, vector p => some (scalar p.y)
  | _, scalar _ => none

variable [Scalar α]

def Quantity.negate : Quantity α → Quantity α
  | scalar a => scalar (-a)
  | vector p => vector p.neg

def Arithmetic.onScalars : Arithmetic → α → α → α
  | add => (· + ·)
  | sub => (· - ·)
  | mul => (· * ·)
  | div => (· / ·)

/-- Arithmetic goes coordinate by coordinate, and a scalar stands for both coordinates. -/
def Arithmetic.onQuantities (op : Arithmetic) : Quantity α → Quantity α → Quantity α
  | .scalar a, .scalar b => .scalar (op.onScalars a b)
  | .vector p, .vector q => .vector ⟨op.onScalars p.x q.x, op.onScalars p.y q.y⟩
  | .vector p, .scalar b => .vector ⟨op.onScalars p.x b, op.onScalars p.y b⟩
  | .scalar a, .vector q => .vector ⟨op.onScalars a q.x, op.onScalars a q.y⟩

def constant? : String → Option α
  | "0." => some Scalar.zero
  | "1." => some Scalar.one
  | "2." => some Scalar.two
  | _ => none

/-- The functions of the language itself. -/
def languageCall : Call α
  | "vec2", [.scalar x, .scalar y] => some (.vector ⟨x, y⟩)
  | "length", [.vector p] => some (.scalar (Scalar.hypot p.x p.y))
  | "exp", [.scalar a] => some (.scalar (Scalar.exp a))
  | "log", [.scalar a] => some (.scalar (Scalar.log a))
  | "cos", [.scalar a] => some (.scalar (Scalar.cos a))
  | "sin", [.scalar a] => some (.scalar (Scalar.sin a))
  | "atan", [.scalar y, .scalar x] => some (.scalar (Scalar.atan2 y x))
  | _, _ => none

/-! ### Evaluation -/

/-- The variables with their values, the latest first. -/
abbrev Scope (α : Type) := List (String × Quantity α)

def Term.eval (call : Call α) (scope : Scope α) : Term → Option (Quantity α)
  | .name text => scope.lookup text
  | .literal numeral => (constant? numeral).map .scalar
  | .apply function arg => do call function [← arg.eval call scope]
  | .apply₂ function first second => do
    call function [← first.eval call scope, ← second.eval call scope]
  | .select e coordinate => do Quantity.select? coordinate (← e.eval call scope)
  | .negate e => do some (Quantity.negate (← e.eval call scope))
  | .arith op lhs rhs => do
    some (op.onQuantities (← lhs.eval call scope) (← rhs.eval call scope))

namespace Definition

/-- The parameters bound to arguments of their types. -/
def bind? : List Parameter → List (Quantity α) → Option (Scope α)
  | [], [] => some []
  | p :: ps, v :: vs => if v.type = p.type then do some ((p.name, v) :: (← bind? ps vs)) else none
  | _, _ => none

/-- The scope after the local variables are set. -/
def setLocals (call : Call α) : List Local → Scope α → Option (Scope α)
  | [], scope => some scope
  | l :: ls, scope => do
    let v ← l.value.eval call scope
    if v.type = l.type then setLocals call ls ((l.name, v) :: scope) else none

/-- What the function returns, if all types fit. -/
def run (call : Call α) (d : Definition) (args : List (Quantity α)) : Option (Quantity α) := do
  let scope ← setLocals call d.locals (← bind? d.parameters args)
  let v ← d.value.eval call scope
  if v.type = d.result then some v else none

/-- The calls that definitions allow, the latest first. A definition sees those before it only. -/
def callIn : List Definition → Call α
  | [] => languageCall
  | d :: earlier => fun name args =>
    if name = d.name then d.run (callIn earlier) args else callIn earlier name args

end Definition

/-! ### What a value depends on -/

/-- The functions that a term calls. -/
def Term.calls : Term → List String
  | .name _ => []
  | .literal _ => []
  | .apply function arg => function :: arg.calls
  | .apply₂ function first second => function :: (first.calls ++ second.calls)
  | .select e _ => e.calls
  | .negate e => e.calls
  | .arith _ lhs rhs => lhs.calls ++ rhs.calls

theorem Term.eval_congr {call call' : Call α} {scope : Scope α} {e : Term}
    (same : ∀ name ∈ e.calls, call name = call' name) :
    e.eval call scope = e.eval call' scope := by
  induction e with
  | name text => rfl
  | literal numeral => rfl
  | apply function arg ih =>
    obtain ⟨first, others⟩ := List.forall_mem_cons.1 same
    rw [eval, eval, ih others, first]
  | apply₂ function lhs rhs ihl ihr =>
    obtain ⟨first, others⟩ := List.forall_mem_cons.1 same
    obtain ⟨left, right⟩ := List.forall_mem_append.1 others
    rw [eval, eval, ihl left, ihr right, first]
  | select e coordinate ih => rw [eval, eval, ih same]
  | negate e ih => rw [eval, eval, ih same]
  | arith op lhs rhs ihl ihr =>
    obtain ⟨left, right⟩ := List.forall_mem_append.1 same
    rw [eval, eval, ihl left, ihr right]

namespace Definition

def calls (d : Definition) : List String :=
  d.locals.flatMap (·.value.calls) ++ d.value.calls

theorem setLocals_congr {call call' : Call α} {locals : List Local} {scope : Scope α}
    (same : ∀ name ∈ locals.flatMap (·.value.calls), call name = call' name) :
    setLocals call locals scope = setLocals call' locals scope := by
  induction locals generalizing scope with
  | nil => rfl
  | cons l ls ih =>
    rw [List.flatMap_cons] at same
    obtain ⟨first, others⟩ := List.forall_mem_append.1 same
    simp only [setLocals, Term.eval_congr first, ih others]

theorem run_congr {call call' : Call α} {d : Definition} (args : List (Quantity α))
    (same : ∀ name ∈ d.calls, call name = call' name) : d.run call args = d.run call' args := by
  obtain ⟨locals, value⟩ := List.forall_mem_append.1 same
  simp only [run, setLocals_congr locals, Term.eval_congr value]

end Definition

end EscapeTime.Shader
