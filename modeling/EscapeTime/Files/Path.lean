/-!
# Paths

Paths are taken apart and put together as texts: `clean` gives the shortest path that names the same
place as long as no part of it is a link.
-/

namespace EscapeTime.Files

/-- The parts of a path between slashes. -/
def parts : List Char → List (List Char)
  | [] => [[]]
  | c :: cs =>
    if c = '/' then [] :: parts cs
    else
      match parts cs with
      | p :: ps => (c :: p) :: ps
      | [] => [[c]]

/-- Parts with slashes between them. -/
def join : List (List Char) → List Char
  | [] => []
  | [p] => p
  | p :: ps => p ++ '/' :: join ps

def here : List Char := ['.']

def above : List Char := ['.', '.']

/-- One part added to a clean path, whose last part comes first. A path from the root cannot leave
it. -/
def addPart (rooted : Bool) (path : List (List Char)) (part : List Char) : List (List Char) :=
  if part = [] ∨ part = here then path
  else if part = above then
    match path with
    | [] => if rooted then [] else [above]
    | last :: rest => if last = above then above :: path else rest
  else part :: path

/-- The shortest path to the same place. -/
def cleanChars (path : List Char) : List Char :=
  let rooted := path.head? == some '/'
  let clean := join ((parts path).foldl (addPart rooted) []).reverse
  if rooted then '/' :: clean
  else if clean = [] then here
  else clean

/-- The path of a file in a directory. -/
def inDirectory (directory name : String) : String :=
  if directory.isEmpty then String.ofList (cleanChars name.toList)
  else String.ofList (cleanChars (directory.toList ++ '/' :: name.toList))

/-- The directory that a path lies in. -/
def directoryOf (path : String) : String :=
  String.ofList (cleanChars (path.toList.reverse.dropWhile (· != '/')).reverse)

end EscapeTime.Files
