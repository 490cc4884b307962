import EscapeTime.Number.Numeral
import EscapeTime.Number.Whole
import EscapeTime.Text.Quoted

/-!
# Flags

Flags set options and may stand anywhere between the arguments of a command: `--name=value`,
`--name value`, `-n value`, `-nvalue` or `-n=value`. Flags that can stand alone take a value only
with `=`, and several of them may share one dash.
-/

namespace EscapeTime.Command

/-- Why a value is not one of a flag. -/
inductive ValueError where
  | word (text : String) (e : Number.NumeralError)
  | number (text : String) (e : Number.NumeralError)
  | truth (text : String)
  deriving DecidableEq, Repr

def numeralText : Number.NumeralError → String
  | .malformed => "invalid syntax"
  | .outOfRange => "value out of range"

def ValueError.message : ValueError → String
  | word text e => "strconv.ParseInt: parsing " ++ Text.quote text ++ ": " ++ numeralText e
  | number text e => "strconv.ParseFloat: parsing " ++ Text.quote text ++ ": " ++ numeralText e
  | truth text => "strconv.ParseBool: parsing " ++ Text.quote text ++ ": invalid syntax"

/-- A flag that changes options. -/
structure Flag (ω : Type) where
  name : String
  short : Option Char
  /-- The value of the flag when it stands alone, if it can. -/
  alone : Option String
  /-- What a value does. -/
  set : String → Except ValueError (ω → ω)

namespace Flag

variable {ω : Type}

/-- A flag of a whole number. -/
def word (name : String) (short : Option Char) (set : Int → ω → ω) : Flag ω :=
  ⟨name, short, none, fun s => match Number.readWord s with
    | .ok n => .ok (set n)
    | .error e => .error (.word s e)⟩

/-- A flag of a number. -/
def number (name : String) (set : Single → ω → ω) : Flag ω :=
  ⟨name, none, none, fun s => match Number.readSingle s with
    | .ok x => .ok (set x)
    | .error e => .error (.number s e)⟩

/-- A flag of a text. -/
def text (name : String) (short : Option Char) (set : String → ω → ω) : Flag ω :=
  ⟨name, short, none, fun s => .ok (set s)⟩

/-- The truth value that a text spells. -/
def truth? (s : String) : Option Bool :=
  if s ∈ ["1", "t", "T", "TRUE", "true", "True"] then some true
  else if s ∈ ["0", "f", "F", "FALSE", "false", "False"] then some false
  else none

/-- A flag that is on when it stands alone. -/
def switch (name : String) (short : Option Char) (set : Bool → ω → ω) : Flag ω :=
  ⟨name, short, some "true", fun s => match truth? s with
    | some b => .ok (set b)
    | none => .error (.truth s)⟩

/-- The flag as it is shown, with its short form first. -/
def shown (f : Flag ω) : String :=
  match f.short with
  | some c => "-" ++ toString c ++ ", --" ++ f.name
  | none => "--" ++ f.name

end Flag

/-- Why the flags of a command line cannot be read. -/
inductive FlagError where
  | badForm (word : String)
  | unknown (name : String)
  | unknownShort (letter : Char) (letters : String)
  | needsValue (name : String)
  | shortNeedsValue (letter : Char) (letters : String)
  | badValue (value shown : String) (cause : ValueError)
  deriving DecidableEq, Repr

/-- The letter of a short flag in a message. Letters outside ASCII are all shown alike. -/
def shownLetter (c : Char) : Char :=
  if c.toNat < 0x80 then c else Char.ofNat 0xc3

def FlagError.message : FlagError → String
  | badForm word => "bad flag syntax: " ++ word
  | unknown name => "unknown flag: --" ++ name
  | unknownShort c letters =>
    "unknown shorthand flag: " ++ Text.quoteChar (shownLetter c) ++ " in -" ++ letters
  | needsValue name => "flag needs an argument: --" ++ name
  | shortNeedsValue c letters =>
    "flag needs an argument: " ++ Text.quoteChar c ++ " in -" ++ letters
  | badValue value shown cause =>
    "invalid argument " ++ Text.quote value ++ " for " ++ Text.quote shown ++ " flag: " ++
      cause.message

/-! ### Reading flags -/

variable {ω : Type}

/-- The options with a flag set. -/
def setFlag (f : Flag ω) (value : String) (o : ω) : Except FlagError ω :=
  match f.set value with
  | .ok change => .ok (change o)
  | .error cause => .error (.badValue value f.shown cause)

/-- A flag that waits for its value, and what is wrong if none follows. -/
structure Waiting (ω : Type) where
  flag : Flag ω
  missing : FlagError

/-- The text before the first `=` and the text after it, if there is one. -/
def splitValue (cs : List Char) : List Char × Option (List Char) :=
  (cs.takeWhile (· != '='), match cs.dropWhile (· != '=') with
    | [] => none
    | _ :: value => some value)

/-- The options after a word with two dashes, and the flag that waits for the next word. -/
def readLong (flags : List (Flag ω)) (cs : List Char) (o : ω) :
    Except FlagError (ω × Option (Waiting ω)) :=
  match cs with
  | '-' :: _ | '=' :: _ => .error (.badForm (String.ofList ('-' :: '-' :: cs)))
  | cs =>
    let (name, value) := splitValue cs
    let name := String.ofList name
    match flags.find? (·.name == name) with
    | none => .error (.unknown name)
    | some f =>
      match value, f.alone with
      | some value, _ => (setFlag f (String.ofList value) o).map (·, none)
      | none, some value => (setFlag f value o).map (·, none)
      | none, none => .ok (o, some ⟨f, .needsValue name⟩)

/-- The options after the letters behind one dash, and the flag that waits for the next word.
Letters that start with `test.` mean nothing. -/
def readShort (flags : List (Flag ω)) : List Char → ω → Except FlagError (ω × Option (Waiting ω))
  | [], o => .ok (o, none)
  | c :: cs, o =>
    if (c :: cs).take 5 = "test.".toList then .ok (o, none)
    else
      match flags.find? (·.short == some c) with
      | none => .error (.unknownShort c (String.ofList (c :: cs)))
      | some f =>
        match cs, f.alone with
        | '=' :: d :: value, _ => (setFlag f (String.ofList (d :: value)) o).map (·, none)
        | cs, some value =>
          match setFlag f value o with
          | .error e => .error e
          | .ok o => readShort flags cs o
        | [], none => .ok (o, some ⟨f, .shortNeedsValue c (String.ofList [c])⟩)
        | cs, none => (setFlag f (String.ofList cs) o).map (·, none)

/-- The options and the arguments of a command line. Two dashes alone end the flags. -/
def readFlags (flags : List (Flag ω)) :
    Option (Waiting ω) → List String → ω → Except FlagError (ω × List String)
  | none, [], o => .ok (o, [])
  | some w, [], _ => .error w.missing
  | some w, word :: words, o => do
    let o ← setFlag w.flag word o
    readFlags flags none words o
  | none, word :: words, o =>
    match word.toList with
    | ['-', '-'] => .ok (o, words)
    | '-' :: '-' :: cs => do
      let (o, w) ← readLong flags cs o
      readFlags flags w words o
    | '-' :: c :: cs => do
      let (o, w) ← readShort flags (c :: cs) o
      readFlags flags w words o
    | _ => do
      let (o, arguments) ← readFlags flags none words o
      return (o, word :: arguments)

/-! ### Words that are no flags -/

/-- Whether the next word is the value of this one. -/
def takesNext (flags : List (Flag ω)) (word : String) : Bool :=
  match word.toList with
  | '-' :: '-' :: name =>
    !name.contains '=' &&
      !flags.any fun f => f.name == String.ofList name && f.alone.isSome
  | ['-', c] =>
    c != '=' && c.toNat < 0x80 && !flags.any fun f => f.short == some c && f.alone.isSome
  | _ => false

/-- The words that are neither flags nor their values. A last word counts as a value if it can be
one. -/
def operands (flags : List (Flag ω)) : List String → List String
  | [] => []
  | word :: words =>
    if word = "--" then []
    else if takesNext flags word then
      match words with
      | [] => []
      | [_] => []
      | _ :: next :: rest => operands flags (next :: rest)
    else if word ≠ "" ∧ word.toList.head? ≠ some '-' then word :: operands flags words
    else operands flags words

/-- The words without the first that is `operand` and no value of a flag. -/
def withoutOperand (flags : List (Flag ω)) (operand : String) : List String → List String
  | [] => []
  | word :: words =>
    if word = "--" then word :: words
    else if takesNext flags word then
      match words with
      | [] => [word]
      | value :: rest => word :: value :: withoutOperand flags operand rest
    else if word.toList.head? ≠ some '-' ∧ word = operand then words
    else word :: withoutOperand flags operand words

end EscapeTime.Command
