import EscapeTime.Settings.Basic
import EscapeTime.Yaml.Document
import EscapeTime.Text.Utf8

/-!
# Settings files

A settings file is a document whose keys are the names of settings. All that is wrong with its
entries is reported together.
-/

namespace EscapeTime

/-- The settings that a file can name. -/
inductive SettingsField where
  | width
  | height
  | zoom
  | offsetX
  | offsetY
  | iterations
  | escapeRadius
  | texture
  | label
  | useGpu
  deriving DecidableEq, Repr

namespace SettingsField

def all : List SettingsField :=
  [width, height, zoom, offsetX, offsetY, iterations, escapeRadius, texture, label, useGpu]

/-- The key of the setting. -/
def key : SettingsField → String
  | width => "width"
  | height => "height"
  | zoom => "zoom"
  | offsetX => "offsetX"
  | offsetY => "offsetY"
  | iterations => "iterations"
  | escapeRadius => "escapeRadius"
  | texture => "lut"
  | label => "label"
  | useGpu => "gpu"

def ofKey? (s : String) : Option SettingsField :=
  all.find? (·.key == s)

/-- The name of the type of the setting. -/
def typeName : SettingsField → String
  | width | height | iterations => "int"
  | zoom | offsetX | offsetY | escapeRadius => "float32"
  | texture => "string"
  | label | useGpu => "bool"

/-- The overrides with a setting read from a scalar, if it has the right type. -/
def assign? (f : SettingsField) (text : String) (v : Yaml.Value) (o : Overrides) :
    Option Overrides :=
  match f with
  | width => v.toInt?.map fun n => { o with width := some n }
  | height => v.toInt?.map fun n => { o with height := some n }
  | iterations => v.toInt?.map fun n => { o with iterations := some n }
  | zoom => v.toSingle?.map fun x => { o with zoom := some x }
  | offsetX => v.toSingle?.map fun x => { o with offsetX := some x }
  | offsetY => v.toSingle?.map fun x => { o with offsetY := some x }
  | escapeRadius => v.toSingle?.map fun x => { o with escapeRadius := some x }
  | texture => some { o with texture := some text }
  | label => (v.toBool? text).map fun b => { o with label := some b }
  | useGpu => (v.toBool? text).map fun b => { o with useGpu := some b }

end SettingsField

/-- What is wrong with an entry. -/
inductive EntryProblem where
  | repeated (line : Nat) (key : String) (first : Nat)
  | unknown (line : Nat) (key : String)
  | wrongType (line : Nat) (content : Yaml.Content) (typeName : String)

/-- The value in a message: at most ten bytes, else the first seven. -/
def shownValue (text : String) : String :=
  let bytes := text.toUTF8.toList
  if 10 < bytes.length then Text.decodeUtf8 (bytes.take 7) ++ "..." else text

/-- The type of an entry, and its value if it is a scalar. -/
def shownContent : Yaml.Content → String
  | .scalar text value => value.tag ++ " `" ++ shownValue text ++ "`"
  | .sequence => "!!seq"
  | .mapping => "!!map"

def EntryProblem.message : EntryProblem → String
  | repeated line key first =>
    "line " ++ toString line ++ ": mapping key " ++ Text.quote key ++ " already defined at line " ++
      toString first
  | unknown line key =>
    "line " ++ toString line ++ ": field " ++ key ++ " not found in type config.Config"
  | wrongType line content typeName =>
    "line " ++ toString line ++ ": cannot unmarshal " ++ shownContent content ++ " into " ++
      typeName

/-- Why a file gives no settings. -/
inductive SettingsFileError where
  | format (e : Yaml.FormatError)
  | entries (problems : List EntryProblem)

def SettingsFileError.message : SettingsFileError → String
  | format e => "yaml: " ++ e.message
  | entries problems =>
    "yaml: unmarshal errors:\n  " ++ "\n  ".intercalate (problems.map EntryProblem.message)

/-- Each later entry that repeats a key, by the entry whose key it repeats. -/
def repeatedKeys : List Yaml.Entry → List EntryProblem
  | [] => []
  | e :: es =>
    (es.filter (·.key == e.key)).map (fun e' => .repeated e'.line e'.key e.line) ++ repeatedKeys es

/-- The overrides of entries, and what is wrong with them. -/
def readSettings : List Yaml.Entry → Overrides → Overrides × List EntryProblem
  | [], o => (o, [])
  | e :: es, o =>
    if e.ignored then readSettings es o
    else
      let fails := fun problem =>
        let (o, problems) := readSettings es o
        (o, problem :: problems)
      match SettingsField.ofKey? e.key with
      | none => fails (.unknown e.line e.key)
      | some f =>
        let wrong := EntryProblem.wrongType e.line e.content f.typeName
        match e.content with
        | .scalar _ .null => readSettings es o
        | .scalar text value =>
          match f.assign? text value o with
          | some o => readSettings es o
          | none => fails wrong
        | _ => fails wrong

/-- The settings in the bytes of a file. -/
def readSettingsFile (bytes : List UInt8) : Except SettingsFileError Overrides :=
  match Yaml.readDocument (Text.decodeUtf8 bytes).toList with
  | .error e => .error (.format e)
  | .ok (.single _ (.scalar _ .null)) => .ok .none
  | .ok (.single line content) => .error (.entries [.wrongType line content "config.Config"])
  | .ok (.entries es) =>
    match repeatedKeys es with
    | [] =>
      match readSettings es .none with
      | (o, []) => .ok o
      | (_, problems) => .error (.entries problems)
    | problems => .error (.entries problems)

end EscapeTime
