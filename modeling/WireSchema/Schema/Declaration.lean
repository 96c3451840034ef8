import WireSchema.Json.Reader
import WireSchema.Schema.Error
import WireSchema.Schema.Primitive

/-!
# Declarations

What one document declares, before the other documents of its batch are known: enums, and objects
in the order in which they are completed.  Links to other declarations are kept as they are
written, by namespace and tag.
-/

namespace WireSchema

/-- A document before it is looked at: its namespace and the JSON value of its text. -/
structure Document where
  space : String
  root : Json
  deriving Inhabited

def Document.ofText (space text : String) : Except SchemaError Document :=
  match Json.ofText? Json.documentLevels text with
  | some root => .ok ⟨space, root⟩
  | none => .error (.malformed space)

/-- Where an object comes from.  Messages, requests and responses are payloads: they are sent on
their own, with a header. -/
inductive Role where
  | object
  | embedded
  | message
  | request
  | response
  deriving DecidableEq, Repr, Inhabited

def Role.isPayload : Role → Bool
  | .message | .request | .response => true
  | .object | .embedded => false

def Role.text : Role → String
  | .object => "object"
  | .embedded => "embedded"
  | .message => "message"
  | .request => "request"
  | .response => "response"

/-- A link to a top-level declaration, possibly of another namespace. -/
structure Link where
  space : String
  tag : String
  deriving DecidableEq, Repr

namespace Declaration

/-- The type of a field as declared.  An embedded object is given by its place among the objects
of the document. -/
inductive Shape where
  | primitive (kind : Primitive)
  | text
  | binary (length : Nat)
  | array (element : Shape)
  | link (target : Link)
  | embedded (index : Nat)
  deriving DecidableEq, Repr

/-- A field: its key as written, and the name made of it. -/
structure Field where
  key : String
  name : String
  isOptional : Bool
  shape : Shape
  deriving DecidableEq, Repr

structure Enum where
  tag : String
  name : String
  values : List String
  deriving DecidableEq, Repr

/-- An object.  Its tag is the key without what it inherits from; a payload has the type name of
which, with the namespace, its wire id is the hash; a request knows the place of its response. -/
structure Object where
  tag : String
  name : String
  role : Role
  parent : Option Link
  fields : List Field
  wireName : Option String
  response : Option Nat
  deriving DecidableEq, Repr

end Declaration

/-- The declarations of one document. -/
structure Outline where
  space : String
  enums : List Declaration.Enum
  objects : List Declaration.Object
  deriving DecidableEq, Repr

namespace Outline

/-- The place of the first top-level object with a tag. -/
def objectIndex? (outline : Outline) (tag : String) : Option Nat :=
  outline.objects.findIdx? fun o => o.role == .object && o.tag == tag

/-- The place of the first enum with a tag. -/
def enumIndex? (outline : Outline) (tag : String) : Option Nat :=
  outline.enums.findIdx? (·.tag == tag)

end Outline
end WireSchema
