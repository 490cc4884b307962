/-!
# File systems

What a command needs of the world: files, and a place to print. `FileSystem` is implemented by the
operating system and by a tree of files in memory.
-/

namespace EscapeTime.Files

/-- What was attempted. -/
inductive FileAction where
  | findDirectory
  | openFile (path : String)
  | readFile (path : String)
  | writeFile (path : String)
  | syncFile (path : String)
  deriving DecidableEq, Repr

/-- Why it did not work. -/
inductive FileCause where
  | notFound
  | isDirectory
  | notDirectory
  | noSpace
  | invalid
  | other (text : String)
  deriving DecidableEq, Repr

structure FileError where
  action : FileAction
  cause : FileCause
  deriving DecidableEq, Repr

def FileAction.message : FileAction → String
  | findDirectory => "getwd"
  | openFile path => "open " ++ path
  | readFile path => "read " ++ path
  | writeFile path => "write " ++ path
  | syncFile path => "sync " ++ path

def FileCause.message : FileCause → String
  | notFound => "no such file or directory"
  | isDirectory => "is a directory"
  | notDirectory => "not a directory"
  | noSpace => "no space left on device"
  | invalid => "invalid argument"
  | other text => text

def FileError.message (e : FileError) : String :=
  e.action.message ++ ": " ++ e.cause.message

/-- Files by their paths. -/
class FileSystem (m : Type → Type) where
  /-- The directory that relative paths start in. -/
  workingDirectory : m (Except FileError String)
  /-- Whether there is something at a path. -/
  isPresent : String → m Bool
  /-- The bytes of a file. -/
  read : String → m (Except FileError (List UInt8))
  /-- Makes an empty file, in place of a file that is there. -/
  create : String → m (Except FileError Unit)
  /-- Adds bytes at the end of a file that was created. -/
  write : String → List UInt8 → m (Except FileError Unit)
  /-- Waits until what was written is stored. -/
  sync : String → m (Except FileError Unit)
  /-- Adds bytes to the output. -/
  print : List UInt8 → m Unit
  /-- Tells how the work goes on. -/
  log : String → m Unit

end EscapeTime.Files
