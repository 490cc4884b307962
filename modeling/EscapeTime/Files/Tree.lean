import EscapeTime.Files.Path
import EscapeTime.Files.System

/-!
# Trees of files

A file system in memory. Every file and directory is known by the names on the way to it from the
root; two devices take all bytes or none.
-/

namespace EscapeTime.Files

inductive Device where
  /-- Takes all bytes. -/
  | sink
  /-- Takes no bytes. -/
  | full
  deriving DecidableEq, Repr

inductive FileNode where
  | file (bytes : List UInt8)
  | directory
  | device (d : Device)
  deriving DecidableEq, Repr

/-- The names on the way from the root. -/
abbrev Location := List String

structure FileTree where
  nodes : List (Location × FileNode)
  /-- The working directory, which may have been removed. -/
  directory : Location
  /-- What was printed. -/
  output : List UInt8
  /-- What was told, line by line. -/
  logged : List String

namespace FileTree

/-- A tree with the devices and an empty working directory. -/
def empty (directory : Location) : FileTree where
  nodes := [(["dev"], .directory), (["dev", "null"], .device .sink),
    (["dev", "full"], .device .full)]
  directory := directory
  output := []
  logged := []

/-- What is at a location. -/
def node? (t : FileTree) (l : Location) : Option FileNode :=
  if l = [] then some .directory else t.nodes.lookup l

/-- The tree with another node at a location. -/
def put (t : FileTree) (l : Location) (n : FileNode) : FileTree :=
  { t with nodes := (l, n) :: t.nodes.filter (·.1 != l) }

/-- The tree without what is at a location. -/
def remove (t : FileTree) (l : Location) : FileTree :=
  { t with nodes := t.nodes.filter (·.1 != l) }

/-- The tree with a directory, and with the directories it lies in. -/
def makeDirectory (t : FileTree) (l : Location) : FileTree :=
  (List.range l.length).foldl (fun t i =>
    let l := l.take (i + 1)
    match t.node? l with
    | some _ => t
    | none => t.put l .directory) t

/-- The location that parts lead to. All but the last must be directories; whether the last is there
is left open. -/
def walk (t : FileTree) : Location → List String → Except FileCause Location
  | l, [] => .ok l
  | l, name :: names =>
    if name = "" ∨ name = "." then t.walk l names
    else if name = ".." then t.walk l.dropLast names
    else
      match t.node? l with
      | none => .error .notFound
      | some .directory =>
        if names.isEmpty then .ok (l ++ [name])
        else
          match t.node? (l ++ [name]) with
          | none => .error .notFound
          | some .directory => t.walk (l ++ [name]) names
          | some _ => .error .notDirectory
      | some _ => .error .notDirectory

/-- The location of a path. -/
def locate (t : FileTree) (path : String) : Except FileCause Location :=
  let names := (parts path.toList).map String.ofList
  if path.isEmpty then .error .notFound
  else t.walk (if path.toList.head? = some '/' then [] else t.directory) names

/-- What is at a path. -/
def find (t : FileTree) (path : String) : Except FileCause FileNode := do
  let l ← t.locate path
  if l = t.directory then return .directory
  match t.node? l with
  | some n => return n
  | none => throw .notFound

/-- The bytes of the file at a path. -/
def readFile (t : FileTree) (path : String) : Except FileError (List UInt8) :=
  match t.find path with
  | .error cause => .error ⟨.openFile path, cause⟩
  | .ok .directory => .error ⟨.readFile path, .isDirectory⟩
  | .ok (.device _) => .ok []
  | .ok (.file bytes) => .ok bytes

/-- The path without slashes at its end, unless there is nothing else. -/
def withoutSlash (path : String) : String :=
  match path.toList.reverse.dropWhile (· == '/') with
  | [] => path
  | cs => String.ofList cs.reverse

/-- The tree with an empty file at a location. A `slash` behind the path asks for a directory. -/
def emptyFile (t : FileTree) (slash : Bool) (l : Location) : Except FileCause FileTree :=
  if l = t.directory then .error .isDirectory
  else
    match t.node? l with
    | some .directory => .error .isDirectory
    | some (.device _) => if slash then .error .notDirectory else .ok t
    | some (.file _) => if slash then .error .notDirectory else .ok (t.put l (.file []))
    | none => if slash then .error .isDirectory else .ok (t.put l (.file []))

/-- The tree with an empty file at a path. -/
def createFile (t : FileTree) (path : String) : Except FileError FileTree :=
  let bare := withoutSlash path
  match t.locate bare with
  | .error cause => .error ⟨.openFile path, cause⟩
  | .ok l => (t.emptyFile (bare != path) l).mapError fun cause => ⟨.openFile path, cause⟩

/-- The tree with bytes added to the file at a path. -/
def writeFile (t : FileTree) (path : String) (bytes : List UInt8) : Except FileError FileTree :=
  match t.locate path with
  | .error cause => .error ⟨.writeFile path, cause⟩
  | .ok l =>
    match t.node? l with
    | some (.file old) => .ok (t.put l (.file (old ++ bytes)))
    | some (.device .full) =>
      if bytes.isEmpty then .ok t else .error ⟨.writeFile path, .noSpace⟩
    | some (.device .sink) => .ok t
    | _ => .error ⟨.writeFile path, .invalid⟩

/-- Why the file at a path cannot be synchronised, if it cannot. -/
def syncFile (t : FileTree) (path : String) : Except FileError Unit :=
  match t.find path with
  | .ok (.file _) => .ok ()
  | _ => .error ⟨.syncFile path, .invalid⟩

/-- The path of the working directory, unless it was removed. -/
def workingDirectory (t : FileTree) : Except FileError String :=
  match t.node? t.directory with
  | some .directory => .ok ("/" ++ "/".intercalate t.directory)
  | _ => .error ⟨.findDirectory, .notFound⟩

/-- A change that may fail, as a step on the tree. -/
def attempt (change : FileTree → Except FileError FileTree) :
    StateM FileTree (Except FileError Unit) := fun t =>
  match change t with
  | .ok t => (.ok (), t)
  | .error e => (.error e, t)

instance : FileSystem (StateM FileTree) where
  workingDirectory := fun t => (t.workingDirectory, t)
  isPresent path := fun t => ((t.find path).toOption.isSome, t)
  read path := fun t => (t.readFile path, t)
  create path := attempt (·.createFile path)
  write path bytes := attempt (·.writeFile path bytes)
  sync path := fun t => (t.syncFile path, t)
  print bytes := fun t => ((), { t with output := t.output ++ bytes })
  log line := fun t => ((), { t with logged := t.logged ++ [line] })

end FileTree

end EscapeTime.Files
