import EscapeTime.Text.Blank
import EscapeTime.Text.LowerCase

/-!
# Normalised text

The text of a formula as it is scanned: without white space, in lower case, and with its
abbreviations written out. Each character keeps the column it came from. What stands between double
quotes is raw and stays as it is.
-/

namespace EscapeTime

/-- A character of the normalised text. -/
structure Glyph where
  char : Char
  column : Nat
  /-- Set inside a quoted span. -/
  raw : Bool
  deriving DecidableEq, Repr

namespace Glyph

/-- The characters of a formula from `column` on, without white space and in lower case outside
quotes. -/
def spell : (inQuote : Bool) → (column : Nat) → List Char → List Glyph
  | _, _, [] => []
  | inQuote, column, c :: cs =>
    if c = '"' then ⟨c, column, false⟩ :: spell (!inQuote) (column + 1) cs
    else if inQuote then ⟨c, column, true⟩ :: spell inQuote (column + 1) cs
    else if Text.isBlank c then spell inQuote (column + 1) cs
    else ⟨Text.lowerCase c, column, false⟩ :: spell inQuote (column + 1) cs

/-- Whether the text starts with `word`, all of it outside quotes. -/
def startsWith : (word : List Char) → List Glyph → Bool
  | [], _ => true
  | _ :: _, [] => false
  | c :: word, g :: gs => !g.raw && g.char == c && startsWith word gs

/-- The characters of `word`, all from one column. -/
def spread (word : List Char) (column : Nat) : List Glyph :=
  word.map (⟨·, column, false⟩)

/-- The text after its first `skip` characters, with each `old` replaced by `new` from the left. The
new characters take the column of the first old one. -/
def substitute (old new : List Char) : (skip : Nat) → List Glyph → List Glyph
  | _, [] => []
  | skip + 1, _ :: gs => substitute old new skip gs
  | 0, g :: gs =>
    if startsWith old (g :: gs) then
      spread new g.column ++ substitute old new (old.length - 1) gs
    else g :: substitute old new 0 gs

/-- The text with each `old` replaced by `new`. -/
def replace (old new : String) (gs : List Glyph) : List Glyph :=
  substitute old.toList new.toList 0 gs

def isBar (g : Glyph) : Bool :=
  !g.raw && g.char == '|'

/-- The text with its next `paired` bars read in pairs: the first of a pair opens a call of `abs`,
the second closes it. -/
def pairBars : (paired : Nat) → List Glyph → List Glyph
  | _, [] => []
  | 0, gs => gs
  | paired + 1, g :: gs =>
    if g.isBar then
      spread (if paired % 2 = 1 then "abs(".toList else [')']) g.column ++ pairBars paired gs
    else g :: pairBars (paired + 1) gs

/-- The text with each `|x|` written `abs(x)`. Bars pair up from the left, and one left over
stays. -/
def absBars (gs : List Glyph) : List Glyph :=
  pairBars (gs.countP isBar / 2 * 2) gs

/-- The numeral that stands for pi. -/
def piNumeral : String := "3.1415926535897932"

/-- The normalised text of a formula. -/
def normalize (formula : List Char) : List Glyph :=
  let gs := spell false 0 formula
  let gs := replace "log" "ln" gs
  let gs := replace "**" "^" gs
  let gs := absBars gs
  let gs := replace "pi" piNumeral gs
  replace "π" piNumeral gs

/-- The characters without their columns. -/
def text (gs : List Glyph) : String :=
  String.ofList (gs.map char)

end Glyph

end EscapeTime
