/-!
# Schema errors

The ways in which a document, a batch of documents or a directory of them can be wrong.  An error
holds its cause; `SchemaError.message` words it.
-/

namespace WireSchema

/-- What a name in a document stands for. -/
inductive Subject where
  | node
  | enum
  | object
  | message
  | request
  | response
  | field
  | enumValue
  deriving DecidableEq, Repr

def Subject.text : Subject → String
  | .node => "node"
  | .enum => "enum"
  | .object => "object"
  | .message => "message"
  | .request => "request"
  | .response => "response"
  | .field => "field"
  | .enumValue => "enum value"

/-- What members of a declaration are called. -/
inductive MemberKind where
  | field
  | value
  deriving DecidableEq, Repr

def MemberKind.text : MemberKind → String
  | .field => "field"
  | .value => "value"

/-- What a link may lead to. -/
inductive LinkTarget where
  | object
  | enumOrObject
  deriving DecidableEq, Repr

def LinkTarget.text : LinkTarget → String
  | .object => "object"
  | .enumOrObject => "enum/object"

/-- A document is named by its namespace, `space`.  A declaration is named by its key or tag. -/
inductive SchemaError where
  | notAMapping (space : String)
  | duplicateNamespace (space : String)
  | invalidDeclaration (space key : String)
  | emptyName (space : String) (what : Subject) (key : String)
  | reservedName (space : String) (what : Subject) (key name : String)
  | duplicateType (space name key : String)
  | duplicateMember (space owner : String) (what : MemberKind) (key name : String)
  | invalidFieldType (space owner field token : String)
  | emptyReference (space owner field target : String)
  | unknownNamespace (space owner target : String)
  | unresolvedReference (space owner target tag : String) (expected : LinkTarget)
  | inheritedFieldConflict (space owner field ancestor : String)
  | inheritanceCycle (chain : List String)
  | payloadInheritance (space : String) (what : Subject) (key : String)
  | tooManyEnumValues (space key : String) (count : Nat)
  | idCollision (id : UInt32) (first second : String)
  | kindTagCollision (tag : UInt32) (root first second : String)
  | directoryNotFound (path : String)
  | fileNotFound (name : String)
  | noDocuments (path : String)
  | unreadable (path : String)
  | malformed (space : String)
  deriving DecidableEq, Repr

namespace SchemaError

def validTypes : String :=
  "bool, int8, uint8, int16, uint16, int32, uint32, int64, uint64, float, double, datetime, " ++
    "string, binaryN, [<type>], @reference or an embedded object"

def inFile (space : String) : String := " in " ++ space ++ ".json"

def inQuotes (text : String) : String := "\"" ++ text ++ "\""

def message : SchemaError → String
  | .notAMapping space => space ++ ".json must contain a mapping of declarations"
  | .duplicateNamespace space =>
    "document " ++ space ++ ".json appears more than once in the batch"
  | .invalidDeclaration space key =>
    "node " ++ inQuotes key ++ inFile space ++ " has invalid format: use an array of strings " ++
      "for an enum, a mapping for an object, or an array of 1 or 2 mappings for a message or request"
  | .emptyName space what key =>
    what.text ++ " " ++ inQuotes key ++ inFile space ++ " resolves to an empty name"
  | .reservedName space what key name =>
    what.text ++ " " ++ inQuotes key ++ inFile space ++ " resolves to " ++ inQuotes name ++
      ", which is a reserved word"
  | .duplicateType space name key =>
    "type " ++ inQuotes name ++ " is declared more than once" ++ inFile space ++ " (again by " ++
      inQuotes key ++ ")"
  | .duplicateMember space owner what key name =>
    inQuotes owner ++ inFile space ++ " has " ++ what.text ++ " " ++ inQuotes key ++
      " resolving to duplicate name " ++ inQuotes name
  | .invalidFieldType space owner field token =>
    "field " ++ inQuotes field ++ " of " ++ inQuotes owner ++ inFile space ++
      " has invalid type " ++ token ++ "; valid types are " ++ validTypes
  | .emptyReference space owner field target =>
    "field " ++ inQuotes field ++ " of " ++ inQuotes owner ++ inFile space ++
      " names document " ++ inQuotes target ++ " but no node"
  | .unknownNamespace space owner target =>
    inQuotes owner ++ inFile space ++ " refers to " ++ target ++
      ".json, which is not part of this compilation"
  | .unresolvedReference space owner target tag expected =>
    inQuotes owner ++ inFile space ++ " refers to " ++ inQuotes tag ++ inFile target ++
      ", but no such " ++ expected.text ++ " exists"
  | .inheritedFieldConflict space owner field ancestor =>
    inQuotes owner ++ inFile space ++ " declares field " ++ inQuotes field ++
      " already inherited from " ++ inQuotes ancestor
  | .inheritanceCycle chain => "inheritance cycle: " ++ String.intercalate " -> " chain
  | .payloadInheritance space what key =>
    what.text ++ " " ++ inQuotes key ++ inFile space ++ " cannot inherit from another node"
  | .tooManyEnumValues space key count =>
    "enum " ++ inQuotes key ++ inFile space ++ " has " ++ toString count ++
      " values, at most 256 fit the wire ordinal"
  | .idCollision id first second =>
    "wire id " ++ toString id ++ " of " ++ second ++ " collides with " ++ first
  | .kindTagCollision tag root first second =>
    "kind tag " ++ toString tag ++ " of " ++ second ++ " collides with " ++ first ++
      " under root " ++ root
  | .directoryNotFound path => "schema directory not found: " ++ path
  | .fileNotFound name => "schema file not found: " ++ name
  | .noDocuments path => "no schema documents found in " ++ path
  | .unreadable path => "unable to read " ++ path
  | .malformed space => "unable to parse " ++ space ++ ".json"

end SchemaError
end WireSchema
