import EscapeTime.Files.Path
import EscapeTime.Files.System
import EscapeTime.Settings.File

/-!
# Finding settings files

Settings are looked for in a directory and then in those it lies in. The nearest file counts.
-/

namespace EscapeTime

open Files

/-- The names of settings files, the preferred one first. -/
def settingsFileNames : List String :=
  ["gjulia.yaml", ".gjulia.yaml"]

/-- Why a settings file gives no settings. -/
inductive SettingsLoadError where
  | file (e : FileError)
  | contents (path : String) (e : SettingsFileError)

def SettingsLoadError.message : SettingsLoadError → String
  | file e => e.message
  | contents path e => path ++ ": " ++ e.message

variable {m : Type → Type} [Monad m] [FileSystem m]

/-- The settings in the file at a path. -/
def loadSettings (path : String) : m (Except SettingsLoadError Overrides) := do
  match ← FileSystem.read path with
  | .error e => return .error (.file e)
  | .ok bytes => return (readSettingsFile bytes).mapError (.contents path)

/-- The first of the paths that there is something at. -/
def firstPresent : List String → m (Option String)
  | [] => return none
  | path :: paths => do
    if ← FileSystem.isPresent path then return some path
    firstPresent paths

/-- The settings file of a directory or of the nearest above it, looking at no more than `fuel` of
them. -/
def searchUp : (fuel : Nat) → (directory : String) → m (Option String)
  | 0, _ => return none
  | fuel + 1, directory => do
    match ← firstPresent (settingsFileNames.map (inDirectory directory)) with
    | some path => return some path
    | none =>
      let parent := directoryOf directory
      if parent = directory then return none else searchUp fuel parent

/-- The path of the nearest settings file. Each directory is shorter than the one below it. -/
def findSettings (directory : String) : m (Option String) :=
  searchUp (directory.length + 2) directory

/-- The settings of the nearest settings file, with its path. -/
def searchSettings (directory : String) :
    m (Except SettingsLoadError (Option (String × Overrides))) := do
  match ← findSettings directory with
  | none => return .ok none
  | some path => return (← loadSettings path).map fun o => some (path, o)

end EscapeTime
