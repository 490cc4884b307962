import EscapeTime.Command.Options
import EscapeTime.Formula.Report
import EscapeTime.Picture.Render
import EscapeTime.Picture.Texture
import EscapeTime.Settings.Search
import EscapeTime.Shader.Library

/-!
# Running commands

`compile` writes a formula as shader code, `render` draws it into an image file, and `view` would
open a window. Settings are checked before the formula is read, and the formula before output is
written.
-/

namespace EscapeTime.Command

open Files

/-- How a command fails. -/
inductive CommandError where
  | report (r : Report)
  /-- Something that must not happen. -/
  | fault (message : String)
  deriving DecidableEq, Repr

def CommandError.plain (text : String) : CommandError :=
  .report (.plain text)

def CommandError.text : CommandError → String
  | report r => r.text
  | fault message => message

/-- The text without null characters at its end. -/
def withoutNulls (s : String) : String :=
  String.ofList (s.toList.reverse.dropWhile (·.toNat == 0)).reverse

/-! ### Pure parts -/

/-- The formula of an argument. Errors are marked in it. -/
def readFormula (text : String) : Except CommandError Formula :=
  match Formula.parse text with
  | .ok f => .ok f
  | .error (.broken fault) => .error (.fault fault.message)
  | .error (.rejected e) =>
    let r := Report.ofFormula e
    .error (.report ((r.pointAt? text).getD r))

/-- The names of what `compile` can write. -/
def shaderNames : List String :=
  "expr" :: Shader.ProgramKind.all.map Shader.ProgramKind.name

/-- The generator with functions added. -/
def withFunctions (p : Shader.Generator) (fs : List Shader.Function) :
    Except CommandError Shader.Generator :=
  match p.addFunctions fs with
  | (p, none) => .ok p
  | (_, some e) => .error (.plain e.message)

/-- The generator of settings, with all helpers. -/
def generator (s : Settings) : Except CommandError Shader.Generator :=
  withFunctions
    { Shader.Generator.default with iterations := s.iterations, radius2 := s.radius2 }
    Shader.helperLibrary

/-- What `compile` writes. -/
def shaderText (p : Shader.Generator) (shader : String) (f : Formula) :
    Except CommandError String :=
  if shader = "expr" then
    match f.code with
    | .ok code => .ok (code ++ "\n")
    | .error fault => .error (.fault fault.message)
  else
    match Shader.ProgramKind.ofName? shader with
    | none =>
      .error (.plain ("unknown shader kind " ++ Text.quote shader ++ ", want one of [" ++
        " ".intercalate shaderNames ++ "]"))
    | some kind =>
      match p.write kind (some f) with
      | .ok text => .ok (withoutNulls text)
      | .error (.broken fault) => .error (.fault fault.message)
      | .error e => .error (.plain e.message)

/-- The picture that settings ask for. -/
def pictureConfig (s : Settings) (palette : Option Palette) : PictureConfig where
  width := s.width
  height := s.height
  zoom := s.zoom
  offset := ⟨s.offsetX, s.offsetY⟩
  iterations := s.iterations
  radius2 := s.radius2
  palette := palette
  label := ""
  font := none
  useGpu := s.useGpu
  enableCaching := false

/-- The window that settings ask for. -/
def windowConfig (s : Settings) : WindowConfig :=
  ⟨s.width, s.height, s.zoom, ⟨s.offsetX, s.offsetY⟩⟩

def pictureError : PictureError → CommandError
  | .render (.memory fault) => .fault fault.message
  | .render (.evaluation (.pool fault)) => .fault fault.message
  | .render (.evaluation (.iteration _ (.broken fault))) => .fault fault.message
  | e => .plain e.message

/-- Whether the steps of rendering are told. -/
def tellsSteps (o : Options) : Bool :=
  o.output != "-" && 1 ≤ o.verbosity && o.verbosity < Nat.pow 2 31

/-- The only argument. -/
def onlyArgument : List String → Except CommandError String
  | [] => .error (.plain "missing formula argument")
  | [text] => .ok text
  | texts => .error (.plain ("accepts 1 arg(s), received " ++ toString texts.length))

/-! ### Commands -/

variable {m : Type → Type} [Monad m] [FileSystem m]

/-- An action on files as part of a command. -/
def onFiles {α : Type} (action : m (Except FileError α)) : ExceptT CommandError m α :=
  .mk do return (← action).mapError fun e => .plain e.message

/-- The overrides in the settings file of the options, or else in the nearest one. -/
def fileSettings (o : Options) : ExceptT CommandError m Overrides := do
  if o.config ≠ "" then
    .mk do return (← loadSettings o.config).mapError fun e => .plain e.message
  else
    let directory ← onFiles FileSystem.workingDirectory
    let found : Option (String × Overrides) ←
      .mk do return (← searchSettings directory).mapError fun e => .plain e.message
    return (found.map (·.2)).getD .none

/-- The settings: defaults, then the file, then the flags. -/
def resolveSettings (o : Options) : ExceptT CommandError m Settings := do
  let s := (Settings.default.override (← fileSettings o)).override o.settings
  match s.complaint? with
  | some text => throw (.plain ("invalid settings: " ++ text))
  | none => return s

/-- The texture of settings that name one. -/
def settingsTexture (s : Settings) : ExceptT CommandError m (Option Image) := do
  if s.texture = "" then return none
  else
    let img ← .mk do return (← loadTexture s.texture).mapError fun e => .plain e.message
    return some img

/-- Writes a formula as shader code. The output file is made before the code is written. -/
def compile (o : Options) (text : String) : ExceptT CommandError m Unit := do
  let s ← resolveSettings o
  let f ← readFormula text
  if o.output ≠ "" then onFiles (FileSystem.create o.output)
  let p ← generator s
  let code ← shaderText p o.shader f
  if o.output ≠ "" then onFiles (FileSystem.write o.output code.toUTF8.toList)
  else FileSystem.print (m := m) code.toUTF8.toList

/-- The palette of settings. -/
def settingsPalette (s : Settings) : ExceptT CommandError m (Option Palette) := do
  match ← settingsTexture s with
  | none => return none
  | some img =>
    match Palette.lookup? img with
    | some p => return some p
    | none => throw (.plain (s.texture ++ ": " ++ Palette.emptyTextureMessage))

/-- Draws a formula into an image file. -/
def render (o : Options) (text : String) : ExceptT CommandError m Unit := do
  let s ← resolveSettings o
  let f ← readFormula text
  let c := pictureConfig s (← settingsPalette s)
  let (steps, result) := drawFormula (some f)
    { c with enableCaching := o.cache, label := if s.label then f.source else "" }
  if tellsSteps o then
    for line in steps do
      FileSystem.log (m := m) line
  match result with
  | .error e => throw (pictureError e)
  | .ok img =>
    let bytes := Png.encode img
    if o.output = "-" then FileSystem.print (m := m) bytes
    else
      onFiles (FileSystem.create o.output)
      onFiles (FileSystem.write o.output bytes)
      onFiles (FileSystem.sync o.output)

/-- Opens a window on a formula. -/
def view (o : Options) (text : String) : ExceptT CommandError m Unit := do
  let s ← resolveSettings o
  let f ← readFormula text
  let _ ← settingsTexture s
  throw (.plain (openWindow (some f) (windowConfig s)).message)

/-- What the program can do. -/
def usage : String :=
  "Compile, render and view Julia fractal formulas.\n\n" ++
  "Usage:\n" ++
  "  gjulia compile [flags] FORMULA\n" ++
  "  gjulia render [flags] FORMULA\n" ++
  "  gjulia view [flags] FORMULA\n"

/-- Runs a command line. -/
def run (words : List String) : ExceptT CommandError m Unit := do
  match choose words with
  | .unknown name => throw (.plain (unknownMessage name))
  | .chosen verb words =>
    let (o, arguments) ← (readFlags (flagsOf verb) none words (.default verb)).mapError
      fun e => CommandError.plain e.message
    if o.help then FileSystem.print (m := m) usage.toUTF8.toList
    else
      match verb with
      | some .compile => compile o (← onlyArgument arguments)
      | some .render => render o (← onlyArgument arguments)
      | some .view => view o (← onlyArgument arguments)
      | _ => FileSystem.print (m := m) usage.toUTF8.toList

end EscapeTime.Command
