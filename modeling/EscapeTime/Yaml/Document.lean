import EscapeTime.Yaml.Scalar
import EscapeTime.Text.Quoted

/-!
# Documents of settings files

A document is a list of lines `key: value`, with comments and blank lines between them. Keys and
values are plain or quoted.
-/

namespace EscapeTime.Yaml

/-- What stands behind a key. -/
inductive Content where
  | scalar (text : String) (value : Value)
  | sequence
  | mapping

/-- A line of a document. -/
structure Entry where
  line : Nat
  key : String
  /-- Whether the key is null, so that the line means nothing. -/
  ignored : Bool
  content : Content

inductive Document where
  | entries (es : List Entry)
  /-- A single value without a key. -/
  | single (line : Nat) (content : Content)

/-- A line that cannot be read. -/
structure FormatError where
  line : Nat
  problem : String
  deriving DecidableEq, Repr

/-- The error in words. The first line is not named. -/
def FormatError.message (e : FormatError) : String :=
  (if e.line ≤ 1 then "" else "line " ++ toString e.line ++ ": ") ++ e.problem

/-! ### Quoted scalars -/

/-- The character after a backslash that stands for one character, and that character. -/
def escaped? (c : Char) : Option Char :=
  match c with
  | '0' => some (Char.ofNat 0)
  | 'a' => some (Char.ofNat 7)
  | 'b' => some (Char.ofNat 8)
  | 't' | '\t' => some (Char.ofNat 9)
  | 'n' => some (Char.ofNat 10)
  | 'v' => some (Char.ofNat 11)
  | 'f' => some (Char.ofNat 12)
  | 'r' => some (Char.ofNat 13)
  | 'e' => some (Char.ofNat 27)
  | 'N' => some (Char.ofNat 0x85)
  | '_' => some (Char.ofNat 0xa0)
  | 'L' => some (Char.ofNat 0x2028)
  | 'P' => some (Char.ofNat 0x2029)
  | ' ' | '"' | '/' | '\\' => some c
  | c => if c = Text.apostrophe then some c else none

/-- How many hexadecimal digits follow the mark of a code point. -/
def codeWidth? (c : Char) : Option Nat :=
  match c with
  | 'x' => some 2
  | 'u' => some 4
  | 'U' => some 8
  | _ => none

/-- The text between double quotes and what follows it, after the opening quote. The first `skip`
characters were read already. -/
def doubleQuoted? : (skip : Nat) → List Char → Option (List Char × List Char)
  | _, [] => none
  | skip + 1, _ :: cs => doubleQuoted? skip cs
  | 0, '"' :: cs => some ([], cs)
  | 0, '\\' :: mark :: cs =>
    match codeWidth? mark with
    | some width =>
      let digits := cs.take width
      if digits.length = width ∧ digits.all (Number.isDigitOf 16) then
        (doubleQuoted? width cs).map fun (text, rest) =>
          (Char.ofNat (Number.digitsValue 16 digits) :: text, rest)
      else none
    | none =>
      match escaped? mark with
      | some c => (doubleQuoted? 0 cs).map fun (text, rest) => (c :: text, rest)
      | none => none
  | 0, c :: cs => (doubleQuoted? 0 cs).map fun (text, rest) => (c :: text, rest)

/-- The text between single quotes and what follows it, after the opening quote. A doubled quote is
one in the text. -/
def singleQuoted? : List Char → Option (List Char × List Char)
  | [] => none
  | [c] => if c = Text.apostrophe then some ([], []) else none
  | c :: d :: cs =>
    if c = Text.apostrophe then
      if d = Text.apostrophe then (singleQuoted? cs).map fun (text, rest) => (c :: text, rest)
      else some ([], d :: cs)
    else (singleQuoted? (d :: cs)).map fun (text, rest) => (c :: text, rest)

/-- A quoted scalar at the start of a text and what follows it; `none` if none starts there. -/
def quoted? : List Char → Option (Option (List Char × List Char))
  | [] => none
  | c :: cs =>
    if c = '"' then some (doubleQuoted? 0 cs)
    else if c = Text.apostrophe then some (singleQuoted? cs)
    else none

/-! ### Lines -/

def isGap (c : Char) : Bool :=
  c == ' ' || c == '\t'

/-- The text without gaps at its end. -/
def trimEnd (cs : List Char) : List Char :=
  (cs.reverse.dropWhile isGap).reverse

/-- Whether nothing or only a comment is left. -/
def isRest (cs : List Char) : Bool :=
  match cs.dropWhile isGap with
  | [] => true
  | c :: _ => c == '#'

/-- The text up to a comment, which starts after a gap. -/
def beforeComment : (afterGap : Bool) → List Char → List Char
  | _, [] => []
  | afterGap, c :: cs =>
    if afterGap && c == '#' then [] else c :: beforeComment (isGap c) cs

/-- The text before the colon that ends a plain key, and what follows the colon. -/
def splitKey? : List Char → Option (List Char × List Char)
  | [] => none
  | ':' :: [] => some ([], [])
  | ':' :: c :: cs =>
    if isGap c then some ([], c :: cs)
    else (splitKey? (c :: cs)).map fun (key, rest) => (':' :: key, rest)
  | c :: cs => (splitKey? cs).map fun (key, rest) => (c :: key, rest)

def noColon : String := "could not find expected ':'"

def nestedMapping : String := "mapping values are not allowed in this context"

def openQuote : String := "found unexpected end of stream"

def noStart : String := "found character that cannot start any token"

def sequenceInside : String := "block sequence entries are not allowed in this context"

def notAKey : String := "did not find expected key"

/-- What a value says, without gaps in front. -/
def readContent (line : Nat) (cs : List Char) : Except FormatError Content :=
  match quoted? cs with
  | some none => .error ⟨line, openQuote⟩
  | some (some (text, rest)) =>
    if isRest rest then .ok (.scalar (String.ofList text) .text) else .error ⟨line, notAKey⟩
  | none =>
    let plain := trimEnd (beforeComment true cs)
    match plain with
    | [] => .ok (.scalar "" .null)
    | c :: _ =>
      if plain = ['-'] ∨ plain.take 2 = ['-', ' '] then .error ⟨line, sequenceInside⟩
      else if c = '[' then .ok .sequence
      else if c = '\x7b' then .ok .mapping
      else if c = '@' ∨ c = '%' ∨ c.toNat = 96 then .error ⟨line, noStart⟩
      else if (splitKey? plain).isSome then .error ⟨line, nestedMapping⟩
      else .ok (.scalar (String.ofList plain) (.ofPlain (String.ofList plain)))

/-- A line as its key and what stands behind the colon, or as a scalar. -/
inductive LineForm where
  | entry (key : String) (ignored : Bool) (rest : List Char)
  | scalar (cs : List Char)

/-- The form of a line that is neither blank nor a comment, without gaps in front. -/
def lineForm (line : Nat) (cs : List Char) : Except FormatError LineForm :=
  match quoted? cs with
  | some none => .error ⟨line, openQuote⟩
  | some (some (key, rest)) =>
    match rest.dropWhile isGap with
    | ':' :: rest => .ok (.entry (String.ofList key) false rest)
    | _ => .ok (.scalar cs)
  | none =>
    match splitKey? cs with
    | none => .ok (.scalar cs)
    | some (key, rest) =>
      let key := String.ofList (trimEnd key)
      let ignored := match Value.ofPlain key with
        | .null => true
        | _ => false
      .ok (.entry key ignored rest)

/-- The lines of a text without their ends. -/
def splitLines : List Char → List (List Char)
  | [] => [[]]
  | c :: cs =>
    if c = '\n' then [] :: splitLines cs
    else if c = '\r' && (cs.head? == some '\n' || cs.isEmpty) then splitLines cs
    else
      match splitLines cs with
      | l :: ls => (c :: l) :: ls
      | [] => [[c]]

/-- The lines of the first document that say something, with their numbers. -/
def contentLines (cs : List Char) : List (Nat × List Char) :=
  let lines := (splitLines cs).zipIdx.map fun (l, i) => (i + 1, l)
  let isMarker := fun mark (l : Nat × List Char) => l.2.take 3 == mark && isRest (l.2.drop 3)
  let starts := isMarker "---".toList
  let spoken := lines.filter fun (_, l) => !isRest l
  let body := match spoken with
    | l :: ls => if starts l then ls else l :: ls
    | [] => []
  (body.takeWhile fun l => !starts l && !isMarker "...".toList l).map fun (n, l) =>
    (n, l.dropWhile isGap)

/-- The entries of lines, all of which have a key. -/
def readEntries : List (Nat × List Char) → Except FormatError (List Entry)
  | [] => .ok []
  | (line, cs) :: lines => do
    match ← lineForm line cs with
    | .scalar _ => throw ⟨line, noColon⟩
    | .entry key ignored rest =>
      let content ← readContent line (rest.dropWhile isGap)
      let entries ← readEntries lines
      return ⟨line, key, ignored, content⟩ :: entries

/-- Whether a character may stand in a document. -/
def isAllowed (c : Char) : Bool :=
  let n := c.toNat
  n == 9 || n == 10 || n == 13 || (0x20 ≤ n && n ≤ 0x7e) || n == 0x85 ||
    (0xa0 ≤ n && n ≤ 0xfffd && n != 0xfeff) || 0x10000 ≤ n

/-- The text without the mark of its encoding. -/
def withoutMark : List Char → List Char
  | [] => []
  | c :: cs => if c.toNat = 0xfeff then cs else c :: cs

/-- The first of the lines that has a key. -/
def firstEntry? : List (Nat × List Char) → Option Nat
  | [] => none
  | (line, cs) :: lines => if (splitKey? cs).isSome then some line else firstEntry? lines

/-- The text of lines that go on with one plain scalar. -/
def foldedText (lines : List (Nat × List Char)) : String :=
  " ".intercalate (lines.map fun (_, cs) => String.ofList (trimEnd (beforeComment true cs)))

/-- The value that starts with the first of the lines. -/
def readSingle (line : Nat) (cs : List Char) (more : List (Nat × List Char)) :
    Except FormatError Document :=
  match firstEntry? more with
  | some later => .error ⟨later, nestedMapping⟩
  | none => do
    let content ← readContent line cs
    if more.isEmpty then return .single line content
    let text := foldedText ((line, cs) :: more)
    return .single line (.scalar text (.ofPlain text))

/-- The document of a text. -/
def readDocument (text : List Char) : Except FormatError Document :=
  let text := withoutMark text
  if !text.all isAllowed then .error ⟨1, "control characters are not allowed"⟩
  else
    match contentLines text with
    | [] => .ok (.entries [])
    | (line, cs) :: lines => do
      match ← lineForm line cs with
      | .entry .. => return .entries (← readEntries ((line, cs) :: lines))
      | .scalar cs => readSingle line cs lines

end EscapeTime.Yaml
