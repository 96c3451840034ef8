/-!
# Paths

A path is a text of names between slashes.  Several spellings name the same place: repeated
slashes, a slash at the end and a dot within a path say nothing.  A dot at the beginning and a
step upwards are kept, since taking them out needs knowledge of the files.
-/

namespace WireSchema
namespace Files

/-- The pieces of a list between separators, at least one. -/
def pieces (separator : Char) : List Char → List (List Char)
  | [] => [[]]
  | c :: rest =>
    if c = separator then [] :: pieces separator rest
    else
      match pieces separator rest with
      | first :: others => (c :: first) :: others
      | [] => [[c]]

/-- The names in a path as they are written, empty ones included. -/
def pathParts (path : String) : List String := (pieces '/' path.toList).map String.ofList

def currentDirectory : String := "."

def parentDirectory : String := ".."

def rootComponent : String := "/"

/-- The names that count: none that is empty, and no dot. -/
def properNames (parts : List String) : List String :=
  parts.filter fun part => !part.isEmpty && part != currentDirectory

/-- What all spellings of a path have in common. -/
def components (path : String) : List String :=
  match pathParts path with
  | first :: rest =>
    if first.isEmpty then (if rest.isEmpty then [] else rootComponent :: properNames rest)
    else if first = currentDirectory then currentDirectory :: properNames rest
    else properNames (first :: rest)
  | [] => []

def samePath (a b : String) : Bool := components a == components b

/-- The name of what a path leads to, if it ends in a name. -/
def fileName? (path : String) : Option String :=
  match (components path).getLast? with
  | some name =>
    if name = rootComponent || name = currentDirectory || name = parentDirectory then none
    else some name
  | none => none

/-- The part of a name before its last dot, and the extension after it.  A dot at the beginning
of a name does not count. -/
def splitName (name : String) : String × Option String :=
  let reversed := name.toList.reverse
  let extension := reversed.takeWhile (· ≠ '.')
  match reversed.dropWhile (· ≠ '.') with
  | '.' :: stem@(_ :: _) => (String.ofList stem.reverse, some (String.ofList extension.reverse))
  | _ => (name, none)

def stem (name : String) : String := (splitName name).1

/-- The extension of what a path leads to. -/
def extension? (path : String) : Option String :=
  (fileName? path).bind fun name => (splitName name).2

/-- The path of a name in a directory. -/
def join (directory name : String) : String :=
  match directory.toList.getLast? with
  | none => name
  | some '/' => directory ++ name
  | some _ => directory ++ "/" ++ name

/-- The paths of the directories above the last component, from the outermost on. -/
def outerDirectories (path : String) : List String :=
  let names := components path
  (List.range (names.length - 1)).map fun count =>
    (names.take (count + 1)).foldl join ""

example : components "a//b/./c/" = ["a", "b", "c"] := by decide

example : extension? "s/a.b.json" = some "json" ∧ stem "a.b.json" = "a.b" := by decide

example : extension? ".json" = none ∧ splitName "..json" = (".", some "json") := by decide

end Files
end WireSchema
