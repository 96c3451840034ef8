import WireSchema.Generator.Run

/-!
# The program

Files are accessed through the operating system.
-/

namespace WireSchema

/-- The result of an action, if it succeeds. -/
def attempt {α : Type} (action : IO α) : IO (Option α) := do
  try
    return some (← action)
  catch _ => return none

/-- A path as the root of what is below it. -/
def place (path : String) : IO.FS.DirEntry := { root := path, fileName := "" }

def isType (type : IO.FS.FileType) (path : String) : IO Bool := do
  return (← attempt (place path).root.metadata).any (·.type == type)

def listDirectory (path : String) : IO (Option (List String)) :=
  attempt do return (← (place path).root.readDir).toList.map (·.fileName)

def readWhole (path : String) : IO (Option (List UInt8)) :=
  attempt do return (← IO.FS.readBinFile path).data.toList

instance : FileAccess IO where
  isDirectory := isType .dir
  isFile := isType .file
  names? path := do return (← listDirectory path).map (·.map Text.utf8)
  read? := readWhole
  makeDirectories path := do return (← attempt (IO.FS.createDirAll path)).isSome
  write path bytes := do
    return (← attempt (IO.FS.writeBinFile path ⟨bytes.toArray⟩)).isSome

end WireSchema

def main (arguments : List String) : IO UInt32 := do
  let outcome ← WireSchema.Generator.run (m := IO) arguments
  IO.print outcome.output
  match outcome.failure with
  | some reason => IO.eprintln reason
  | none => pure ()
  return outcome.exitCode
