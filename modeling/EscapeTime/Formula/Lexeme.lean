import EscapeTime.Formula.Error
import EscapeTime.Formula.Glyph

/-!
# Lexemes

A lexeme is the longest run of normalised characters that belongs together: an operator, a bracket,
a quoted span, a number, a word. `tokenize` reads a formula lexeme by lexeme.
-/

namespace EscapeTime

namespace Glyph

def isLetter (g : Glyph) : Bool :=
  'a' ≤ g.char && g.char ≤ 'z'

/-- Whether the character belongs to a number: a digit or a point. -/
def isDigit (g : Glyph) : Bool :=
  ('0' ≤ g.char && g.char ≤ '9') || g.char == '.'

/-- Whether the text starts a factor that multiplies what stands before it. -/
def startsFactor : List Glyph → Bool
  | [] => false
  | g :: _ => !g.raw && (g.isLetter || g.char == '(')

/-- The multiplication at `column` if the text after it is a factor. -/
def timesBefore (column : Nat) (gs : List Glyph) : List Token :=
  if startsFactor gs then [.times column] else []

/-- The letters of a word made of `i` and `z` only: a product of its letters. -/
def products : List Glyph → List Token
  | [] => []
  | g :: gs =>
    let letter : Token := ⟨if g.char = 'i' then .imaginary else .z, g.column, "", false⟩
    letter :: (gs.flatMap fun g =>
      [.times g.column, ⟨if g.char = 'i' then .imaginary else .z, g.column, "", false⟩])

/-- The tokens of a word. -/
def word (first : Glyph) (letters : List Glyph) : Except FormulaError (List Token) :=
  if letters.all fun g => g.char == 'i' || g.char == 'z' then .ok (products letters)
  else
    match Builtin.ofName? (text letters) with
    | some fn => .ok [⟨.function, first.column, fn.name, false⟩]
    | none => .error ⟨.parsing, first.column, .unknownFunction (text letters)⟩

/-- The tokens of the lexeme that `g` starts, and how many of the characters after `g` it takes. -/
def lexeme (g : Glyph) (rest : List Glyph) : Except FormulaError (List Token × Nat) :=
  let fail := fun (cause : Cause) => Except.error ⟨.parsing, g.column, cause⟩
  match Operator.ofSymbol? (toString g.char) with
  | some op => .ok ([⟨.op, g.column, op.symbol, false⟩], 0)
  | none =>
    if g.char = ',' then .ok ([⟨.comma, g.column, "", false⟩], 0)
    else if g.char = '(' then .ok ([⟨.parenOpen, g.column, "", false⟩], 0)
    else if g.char = ')' then
      .ok (⟨.parenClose, g.column, "", false⟩ :: timesBefore g.column rest, 0)
    else if g.char = '"' then
      let code := rest.takeWhile raw
      if code.length = rest.length then fail .unclosedQuote
      else .ok ([⟨.rawCode, g.column, text code, false⟩], code.length + 1)
    else if g.isDigit then
      let digits := g :: rest.takeWhile isDigit
      if digits.map char = ['.'] then fail .lonePoint
      else
        let lastColumn := (digits.getLastD g).column
        .ok (⟨.number, g.column, text digits, false⟩ ::
          timesBefore lastColumn (rest.dropWhile isDigit), digits.length - 1)
    else if g.isLetter then do
      let letters := g :: rest.takeWhile isLetter
      let tokens ← word g letters
      return (tokens, letters.length - 1)
    else fail (.unexpectedCharacter g.char)

/-- The tokens of the text after its first `skip` characters. -/
def scan : (skip : Nat) → List Glyph → Except FormulaError (List Token)
  | _, [] => .ok []
  | skip + 1, _ :: gs => scan skip gs
  | 0, g :: gs => do
    let (tokens, used) ← lexeme g gs
    let more ← scan used gs
    return tokens ++ more

end Glyph

/-- The tokens of a formula. -/
def tokenize (formula : List Char) : Except FormulaError (List Token) :=
  match Glyph.normalize formula with
  | [] => .error ⟨.parsing, 0, .emptyFormula⟩
  | gs => Glyph.scan 0 gs

end EscapeTime
