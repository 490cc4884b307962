import EscapeTime.Command.Flag
import EscapeTime.Settings.Basic
import EscapeTime.Text.Distance
import EscapeTime.Text.LowerCase

/-!
# Commands and their options

A command line names a command and sets options by flags. The flags of all commands may also stand
in front of the name.
-/

namespace EscapeTime.Command

/-- The commands. -/
inductive Verb where
  | compile
  | render
  | view
  | completion
  | help
  deriving DecidableEq, Repr

namespace Verb

def all : List Verb :=
  [compile, render, view, completion, help]

def name : Verb → String
  | compile => "compile"
  | render => "render"
  | view => "view"
  | completion => "completion"
  | help => "help"

def ofName? (s : String) : Option Verb :=
  all.find? (·.name == s)

end Verb

structure Options where
  verbosity : Int
  logToStderr : Bool
  /-- The path of a settings file, empty to look for one. -/
  config : String
  help : Bool
  shader : String
  output : String
  cache : Bool
  settings : Overrides

/-- The options of a command without flags. -/
def Options.default (verb : Option Verb) : Options where
  verbosity := 0
  logToStderr := false
  config := ""
  help := false
  shader := "expr"
  output := if verb = some .render then "julia.png" else ""
  cache := false
  settings := .none

/-! ### Flags -/

/-- The flags of all commands. -/
def globalFlags : List (Flag Options) := [
  .word "verbose" (some 'v') fun n o => { o with verbosity := n },
  .switch "logtostderr" none fun b o => { o with logToStderr := b },
  .text "config" none fun s o => { o with config := s }]

/-- A change of the settings among the options. -/
def setting (change : Overrides → Overrides) (o : Options) : Options :=
  { o with settings := change o.settings }

/-- The flags that override settings. -/
def overrideFlags : List (Flag Options) := [
  .word "width" none fun n => setting ({ · with width := some n }),
  .word "height" none fun n => setting ({ · with height := some n }),
  .number "zoom" fun x => setting ({ · with zoom := some x }),
  .number "offset-x" fun x => setting ({ · with offsetX := some x }),
  .number "offset-y" fun x => setting ({ · with offsetY := some x }),
  .word "iterations" none fun n => setting ({ · with iterations := some n }),
  .number "escape-radius" fun x => setting ({ · with escapeRadius := some x }),
  .text "lut" none fun s => setting ({ · with texture := some s }),
  .switch "label" none fun b => setting ({ · with label := some b }),
  .switch "gpu" none fun b => setting ({ · with useGpu := some b })]

def helpFlag : Flag Options :=
  .switch "help" (some 'h') fun b o => { o with help := b }

def outputFlag : Flag Options :=
  .text "output" (some 'o') fun s o => { o with output := s }

/-- The flags of a command, or of a line without one. -/
def flagsOf : Option Verb → List (Flag Options)
  | some .compile =>
    globalFlags ++ overrideFlags ++
      [helpFlag, outputFlag, .text "shader" none fun s o => { o with shader := s }]
  | some .render =>
    globalFlags ++ overrideFlags ++
      [helpFlag, outputFlag, .switch "cache" none fun b o => { o with cache := b }]
  | some .view => globalFlags ++ overrideFlags ++ [helpFlag]
  | _ => globalFlags ++ [helpFlag]

/-! ### Choosing a command -/

/-- The command that a line names and the words without its name. -/
inductive Choice where
  | chosen (verb : Option Verb) (words : List String)
  | unknown (name : String)

/-- The first word that is no flag names the command. -/
def choose (words : List String) : Choice :=
  match operands globalFlags words with
  | [] => .chosen none words
  | name :: _ =>
    match Verb.ofName? name with
    | some verb => .chosen (some verb) (withoutOperand globalFlags name words)
    | none => .unknown name

def lowerText (s : String) : String :=
  s.map Text.lowerCase

/-- Whether a command may have been meant: at most two letters are wrong, or the end is missing. -/
def isNear (typed : String) (verb : Verb) : Bool :=
  let typed := lowerText typed
  Text.editDistance typed.toUTF8.toList verb.name.toUTF8.toList ≤ 2 || verb.name.startsWith typed

/-- The commands that may have been meant. -/
def suggestions (typed : String) : List Verb :=
  [Verb.compile, .render, .view, .completion].filter (isNear typed)

/-- What is said of an unknown command. -/
def unknownMessage (typed : String) : String :=
  "unknown command " ++ Text.quote typed ++ " for \"gjulia\"" ++
    match suggestions typed with
    | [] => ""
    | verbs => "\n\nDid you mean this?\n" ++ String.join (verbs.map fun v => "\t" ++ v.name ++ "\n")

end EscapeTime.Command
