/-!
# Access to files

What the library asks of files, in any monad that can answer.  An answer says whether a request
succeeded, and not why it failed.
-/

namespace WireSchema

class FileAccess (m : Type → Type) where
  isDirectory : String → m Bool
  isFile : String → m Bool
  /-- The names in a directory, in an order of its own.  They are bytes, which may be no text. -/
  names? : String → m (Option (List (List UInt8)))
  read? : String → m (Option (List UInt8))
  /-- Makes a directory and those above it that are missing. -/
  makeDirectories : String → m Bool
  /-- Writes a whole file, which is made if it is missing. -/
  write : String → List UInt8 → m Bool

end WireSchema
