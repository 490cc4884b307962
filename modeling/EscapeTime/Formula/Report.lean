import EscapeTime.Formula.Error

/-!
# Reports

A report is an error as the user sees it: a text, and the formula error it goes back to, if there is
one. Then the column is known and can be pointed at.
-/

namespace EscapeTime

structure Report where
  text : String
  origin : Option FormulaError
  deriving DecidableEq, Repr

namespace Report

def plain (text : String) : Report :=
  ⟨text, none⟩

def ofFormula (e : FormulaError) : Report :=
  ⟨e.text, some e⟩

/-- The report with what was going on in front of it. -/
def within (context : String) (r : Report) : Report :=
  { r with text := context ++ r.text }

/-- The column of the formula that the report is about. -/
def column? (r : Report) : Option Int :=
  r.origin.map FormulaError.column

/-- The formula on one line: tabs and line ends become spaces. -/
def oneLine (formula : String) : List Char :=
  formula.toList.map fun c => if c = '\t' ∨ c = '\n' ∨ c = '\r' then ' ' else c

/-- The report followed by the formula and a mark under its column. A column beyond the formula is
marked at the end; a negative one cannot be marked. -/
def pointAt? (formula : String) (r : Report) : Option Report :=
  match r.column? with
  | none => some r
  | some column =>
    if column < 0 then none
    else
      let line := oneLine formula
      let mark := List.replicate (min column.toNat line.length) ' ' ++ ['^']
      some { r with
        text := r.text ++ "\n\t" ++ String.ofList line ++ "\n\t" ++ String.ofList mark }

end Report

end EscapeTime
