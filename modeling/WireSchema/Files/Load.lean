import WireSchema.Files.Access
import WireSchema.Files.Path
import WireSchema.Schema.Declaration
import WireSchema.Text.Units

/-!
# Loading documents

A directory holds one document per file with the extension `json`; the stem of the file's name is
the namespace.  All documents are loaded or only those named.  Files are read in the order in which
the directory lists them, and the documents are sorted by namespace.  Names that are no text are
passed over.
-/

namespace WireSchema
namespace Files

variable {m : Type → Type} [Monad m] [FileAccess m]

def documentExtension : String := "json"

/-- The file that a name asks for: the extension may be left out. -/
def documentFile (name : String) : String :=
  if extension? name = some documentExtension then name else name ++ "." ++ documentExtension

/-- The names in ascending order, each once. -/
def sortedNames (names : List String) : List String :=
  (names.mergeSort fun a b => !decide (b < a)).eraseReps

/-- Whether an entry of a directory is a document that is asked for. -/
def isWanted (directory : String) (wanted : List String) (name : String) : m Bool := do
  if (← FileAccess.isFile (join directory name)) && extension? name = some documentExtension then
    return wanted.isEmpty || wanted.contains name
  else return false

/-- The document in a file of a directory. -/
def loadDocument (directory name : String) : ExceptT SchemaError m Document := do
  let path := join directory name
  match (← FileAccess.read? (m := m) path).bind Text.ofUtf8? with
  | some text => liftExcept (Document.ofText (stem name) text)
  | none => throw (.unreadable path)
where
  liftExcept {α : Type} (result : Except SchemaError α) : ExceptT SchemaError m α :=
    ExceptT.mk (pure result)

/-- The documents of a directory, by namespace.  No names stand for all documents. -/
def loadDirectory (directory : String) (names : List String) :
    ExceptT SchemaError m (List Document) := do
  if !(← FileAccess.isDirectory (m := m) directory) then throw (.directoryNotFound directory)
  let wanted := sortedNames (names.map documentFile)
  match ← FileAccess.names? (m := m) directory with
  | none => throw (.unreadable directory)
  | some listed =>
    let found ← (listed.filterMap Text.ofUtf8?).filterM fun name =>
      isWanted (m := m) directory wanted name
    match wanted.find? fun name => !found.contains name with
    | some name => throw (.fileNotFound name)
    | none =>
      if found.isEmpty then throw (.noDocuments directory)
      let documents ← found.mapM (loadDocument directory)
      return documents.mergeSort fun a b => !decide (b.space < a.space)

end Files
end WireSchema
