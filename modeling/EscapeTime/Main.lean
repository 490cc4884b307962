import EscapeTime.Command.Run

/-!
# The program

Commands run on the files of the operating system. An error is printed, and then the program ends
with code one.
-/

namespace EscapeTime.Program

open Files

/-- Why the operating system refused something. -/
def causeOf (e : IO.Error) : FileCause :=
  match e with
  | .noFileOrDirectory .. => .notFound
  | .resourceExhausted .. => .noSpace
  | .inappropriateType .. => .isDirectory
  | .invalidArgument .. => .invalid
  | e => .other (toString e)

/-- The result of an action of the operating system. -/
def attempt {α : Type} (what : FileAction) (action : IO α) : IO (Except FileError α) := do
  match ← action.toBaseIO with
  | .ok a => return .ok a
  | .error e => return .error ⟨what, causeOf e⟩

/-- Whether there is a directory at a path. -/
def isDirectory (path : String) : IO Bool := do
  match ← (IO.FS.realPath path).toBaseIO with
  | .ok real => real.isDir
  | .error _ => return false

/-- The bytes of a file. -/
def readFile (path : String) : IO (Except FileError (List UInt8)) := do
  if ← isDirectory path then return .error ⟨.readFile path, .isDirectory⟩
  return (← attempt (.openFile path) (IO.FS.readBinFile path)).map ByteArray.toList

/-- Makes an empty file. -/
def createFile (path : String) : IO (Except FileError Unit) := do
  if ← isDirectory path then return .error ⟨.openFile path, .isDirectory⟩
  attempt (.openFile path) (IO.FS.writeBinFile path ByteArray.empty)

/-- Adds bytes at the end of a file. -/
def writeFile (path : String) (bytes : List UInt8) : IO (Except FileError Unit) :=
  attempt (.writeFile path) do
    let handle ← IO.FS.Handle.mk path .append
    handle.write bytes.toByteArray
    handle.flush

/-- Adds bytes to the standard output. -/
def printBytes (bytes : List UInt8) : IO Unit := do
  let out ← IO.getStdout
  out.write bytes.toByteArray
  out.flush

instance : FileSystem IO where
  workingDirectory := attempt .findDirectory do return (← IO.currentDir).toString
  isPresent path := do return (← (IO.FS.realPath path).toBaseIO).toOption.isSome
  read := readFile
  create := createFile
  write := writeFile
  sync _ := return .ok ()
  print := printBytes
  log line := printBytes (line ++ "\n").toUTF8.toList

end EscapeTime.Program

def main (args : List String) : IO UInt32 := do
  match ← (EscapeTime.Command.run args).run with
  | .ok _ => return 0
  | .error e =>
    IO.eprintln ("error: " ++ e.text)
    return 1
