import EscapeTime.Formula.Token
import EscapeTime.Formula.Operator
import EscapeTime.Formula.Builtin
import EscapeTime.Number.Whole

/-!
# Errors of a formula

A formula is rejected for a cause, at a column, by the stage that reads it or by the stage that
types it. A `Fault` is different: a broken precondition of an operation.
-/

namespace EscapeTime

/-- Which stage rejects a formula. -/
inductive Stage where
  | parsing
  | typing
  deriving DecidableEq, Repr

inductive Side where
  | left
  | right
  deriving DecidableEq, Repr

/-- Why a formula is rejected. -/
inductive Cause where
  | emptyFormula
  | unclosedQuote
  | lonePoint
  | unknownFunction (name : String)
  | unexpectedCharacter (c : Char)
  | trailingToken (token : Token)
  | endOfFormula (expected : List TokenKind)
  | unexpectedToken (kind : TokenKind) (expected : List TokenKind)
  | notUnary (symbol : String)
  | complexOperand (side : Side) (op : Operator)
  | complexArgument (index : Nat) (fn : Builtin)
  /-- A cause in the caller's own words. -/
  | stated (message : String)
  deriving DecidableEq, Repr

def Cause.message : Cause → String
  | emptyFormula => "cannot have an empty formula"
  | unclosedQuote => "unclosed quotation marks while scanning"
  | lonePoint => ". is not a number"
  | unknownFunction name => "unknown function " ++ Text.quote name
  | unexpectedCharacter c => "unexpected character " ++ Text.quoteChar c
  | trailingToken token => "unexpected trailing token " ++ token.describe
  | endOfFormula expected =>
    "unexpected end of formula, expected " ++ TokenKind.listNames expected
  | unexpectedToken kind expected =>
    "unexpected token " ++ kind.name ++ ", expected " ++ TokenKind.listNames expected
  | notUnary symbol => "expected unary operation, got " ++ Text.quote symbol
  | complexOperand side op =>
    (match side with | .left => "left" | .right => "right") ++ "-hand side of " ++
      Text.quote op.symbol ++ " can be complex, expected real"
  | complexArgument index fn =>
    "argument #" ++ toString (index + 1) ++ " of " ++ Text.quote fn.name ++
      " call can be complex, expected real"
  | stated message => message

/-- A rejected formula. -/
structure FormulaError where
  stage : Stage
  /-- The column, counted from zero. -/
  column : Int
  cause : Cause
  deriving DecidableEq, Repr

/-- The text of the error. Columns are shown counted from one. -/
def FormulaError.text (e : FormulaError) : String :=
  (match e.stage with | .parsing => "parsing: " | .typing => "typing: ") ++ e.cause.message ++
    " (char ~" ++ toString (Number.word (e.column + 1)) ++ ")"

/-- A broken precondition. None arises from a formula that was parsed and typed. -/
inductive Fault where
  | negativeColumn
  | unknownOperator (symbol : String)
  | unknownFunction (name : String)
  | undetermined (column : Int)
  /-- A function has no argument with this number. -/
  | noArgument (index arity : Nat)
  | invalidOutputRule
  | missingTemplate
  | tooFewArguments
  | rawCodeValue
  /-- A call of something that has no descriptor or no meaning. -/
  | noMeaning
  /-- The parser used up its fuel. -/
  | outOfFuel
  deriving DecidableEq, Repr

def Fault.message : Fault → String
  | negativeColumn => "gjulia: token column must be non-negative"
  | unknownOperator symbol => "gjulia: unknown operator " ++ symbol
  | unknownFunction name => "gjulia: unknown function " ++ name
  | undetermined column => "gjulia: determining types failed at column " ++ toString column
  | noArgument index arity =>
    "runtime error: index out of range [" ++ toString index ++ "] with length " ++ toString arity
  | invalidOutputRule => "gjulia: invalid output rule"
  | missingTemplate => "gjulia: use of missing template"
  | tooFewArguments => "gjulia: not enough template arguments"
  | rawCodeValue => "gjulia: raw code reached CPU evaluation"
  | noMeaning => "runtime error: invalid memory address or nil pointer dereference"
  | outOfFuel => "gjulia: out of fuel"

/-- Why an operation gives no result: its input is rejected, or a precondition is broken. -/
inductive Failure where
  | rejected (error : FormulaError)
  | broken (fault : Fault)
  deriving DecidableEq, Repr

/-- The token of a column that may be anything: columns are not negative. -/
def Token.make? (kind : TokenKind) (column : Int) (text : String) (implicit : Bool) :
    Except Fault Token :=
  if column < 0 then .error .negativeColumn else .ok ⟨kind, column.toNat, text, implicit⟩

end EscapeTime
