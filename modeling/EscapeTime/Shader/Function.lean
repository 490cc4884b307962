import EscapeTime.Text.Blank

/-!
# Shader functions

A function definition in shading language, and the split of a source text into such definitions.
-/

namespace EscapeTime.Shader

/-- A function definition and the name it defines. -/
structure Function where
  name : String
  source : String
  deriving DecidableEq, Repr

/-- Why a text is no function definition. -/
inductive FunctionError where
  | noName
  | emptyName
  deriving DecidableEq, Repr

def FunctionError.message : FunctionError → String
  | noName => "unable to parse function name"
  | emptyName => "empty function name"

namespace Function

/-- The function of a definition. Its name stands between the first space and the first
parenthesis. -/
def ofSource (text : String) : Except FunctionError Function :=
  let source := Text.trim text.toList
  let head := source.takeWhile (· != '(')
  if head.length = source.length ∨ ' ' ∉ head then .error .noName
  else
    let name := Text.trim (head.dropWhile (· != ' '))
    if name.isEmpty then .error .emptyName
    else .ok ⟨String.ofList name, String.ofList source⟩

/-- The definition as it stands in a program. -/
def text (f : Function) : String :=
  f.source ++ "\n\n"

end Function

/-! ### Splitting a source text -/

/-- The lines of a text, without the line ends. A line end at the end of the text starts no line. -/
def lines : List Char → List (List Char)
  | [] => []
  | c :: cs =>
    if c = '\n' then [] :: lines cs
    else
      match lines cs with
      | [] => [[c]]
      | line :: more => (c :: line) :: more

/-- Whether a line is blank or a comment, and so starts no definition. -/
def isFiller (line : List Char) : Bool :=
  let trimmed := Text.trim line
  trimmed.isEmpty || trimmed.take 2 == ['/', '/']

/-- How much deeper the line goes: opening braces less closing ones. -/
def braceDepth (line : List Char) : Int :=
  (line.count (Char.ofNat 0x7b) : Int) - line.count (Char.ofNat 0x7d)

/-- The definitions of the lines, at a given depth of braces and inside a definition or not. The
first result is the rest of the definition at hand. -/
def gather : (depth : Int) → (inside : Bool) → List (List Char) → List Char × List (List Char)
  | _, _, [] => ([], [])
  | depth, inside, line :: more =>
    let starts := depth == 0 && !inside && !isFiller line
    let within := inside || starts
    let depth := depth + braceDepth line
    let (rest, later) := gather depth (within && depth != 0) more
    let text := line ++ ['\n']
    if starts then ([], (text ++ rest) :: later)
    else (if within then text ++ rest else [], later)

/-- The function definitions of a source text. Blank lines and comments between them are left
out. -/
def splitDefinitions (source : String) : List String :=
  (gather 0 false (lines source.toList)).2.map String.ofList

end EscapeTime.Shader
