import WireSchema.Json.Writer
import WireSchema.Schema.Graph

/-!
# Contracts

The contract of a namespace is the form in which a resolved schema is handed to code emitters.
It states everything that resolution computed, so that an emitter need not resolve anything
itself: flattened fields with their presence bits, kind tags, least sizes, wire ids, dispatch
tables.  Types are named by tokens, declarations by their qualified names.
-/

namespace WireSchema
namespace Contract

def version : Nat := 1

structure EnumValue where
  name : String
  ordinal : Nat
  deriving DecidableEq, Repr

structure Enum where
  name : String
  tag : String
  values : List EnumValue
  deriving DecidableEq, Repr

structure Field where
  name : String
  key : String
  /-- The token of the type: a primitive, `string`, `binaryN`, `@namespace:Name` or `[token]`. -/
  type : String
  isOptional : Bool
  isInherited : Bool
  flagBit : Option Nat
  staticSize : Option Nat
  deriving DecidableEq, Repr

structure Object where
  name : String
  tag : String
  role : Role
  parent : Option String
  root : String
  kindTag : UInt32
  isPolymorphic : Bool
  flagBytes : Nat
  staticMinSize : Nat
  wireId : Option UInt32
  response : Option String
  request : Option String
  fields : List Field
  deriving DecidableEq, Repr

structure DispatchEntry where
  kindTag : UInt32
  type : String
  deriving DecidableEq, Repr

structure Dispatch where
  root : String
  entries : List DispatchEntry
  deriving DecidableEq, Repr

structure FactoryEntry where
  wireId : UInt32
  type : String
  deriving DecidableEq, Repr

/-- The contract of one namespace. -/
structure Manifest where
  space : String
  enums : List Enum
  objects : List Object
  dispatch : List Dispatch
  factory : List FactoryEntry
  deriving DecidableEq, Repr

def qualifiedName (graph : Graph) (id : ObjectId) : String := (graph.object id).qualifiedName

def typeToken (graph : Graph) : FieldType → String
  | .primitive kind => kind.token
  | .text => "string"
  | .binary length => "binary" ++ toString length
  | .enum id => "@" ++ (graph.enum id).space ++ ":" ++ (graph.enum id).name
  | .object id => "@" ++ qualifiedName graph id
  | .array element => "[" ++ typeToken graph element ++ "]"

/-- The values of an enum with their ordinals; an ordinal is a byte. -/
def enumValues (values : List String) : List EnumValue :=
  (values.take 256).zipIdx.map fun (name, ordinal) => ⟨name, ordinal⟩

def ofEnum (type : EnumType) : Enum := ⟨type.name, type.tag, enumValues type.values⟩

def ofField (graph : Graph) (ownStart : Nat) (field : WireSchema.Field) (index : Nat) : Field :=
  { name := field.name
    key := field.key
    type := typeToken graph field.type
    isOptional := field.isOptional
    isInherited := index < ownStart
    flagBit := field.flagBit
    staticSize := field.type.staticSize? }

def ofObject (graph : Graph) (type : ObjectType) : Object :=
  { name := type.name
    tag := type.tag
    role := type.role
    parent := type.parent.map (qualifiedName graph)
    root := qualifiedName graph type.root
    kindTag := type.kindTag
    isPolymorphic := type.isPolymorphic
    flagBytes := type.layout.flagBytes
    staticMinSize := type.layout.minSize.toNat
    wireId := type.wireId
    response := type.response.map (qualifiedName graph)
    request := type.request.map (qualifiedName graph)
    fields := type.fields.zipIdx.map fun (field, index) => ofField graph type.ownStart field index }

def ofTable (graph : Graph) (table : DispatchTable) : Dispatch :=
  { root := qualifiedName graph table.root
    entries := table.members.entries.map fun (tag, id) => ⟨tag, qualifiedName graph id⟩ }

/-- All objects of a namespace, by their numbers in ascending order. -/
def objectIds (space : Namespace) : List ObjectId :=
  (space.objects ++ space.messages ++ space.requests ++ space.responses).mergeSort
    fun a b => a.index ≤ b.index

def ofNamespace (graph : Graph) (space : Namespace) : Manifest :=
  { space := space.name
    enums := space.enums.map fun id => ofEnum (graph.enum id)
    objects := (objectIds space).map fun id => ofObject graph (graph.object id)
    dispatch :=
      (graph.tables.filter fun table => (graph.object table.root).space == space.name).map
        (ofTable graph)
    factory := (graph.factoryIds space.name).map fun (id, object) =>
      ⟨id, qualifiedName graph object⟩ }

/-- The contract of a namespace, if the graph has it. -/
def ofGraph? (graph : Graph) (space : String) : Option Manifest :=
  (graph.namespace? space).map (ofNamespace graph)

/-- The contracts of all namespaces, in their order. -/
def all (graph : Graph) : List Manifest :=
  graph.namespaces.filterMap fun space => ofGraph? graph space.name

/-! ## As JSON -/

/-- A member that is left out when it has no value. -/
def optional {α : Type} (name : String) (encode : α → Json) (value : Option α) :
    List (String × Json) :=
  match value with
  | some value => [(name, encode value)]
  | none => []

def wordJson (word : UInt32) : Json := .ofNat word.toNat

def EnumValue.toJson (value : EnumValue) : Json :=
  .object [("name", .string value.name), ("ordinal", .ofNat value.ordinal)]

def Enum.toJson (type : Enum) : Json :=
  .object [("name", .string type.name), ("tag", .string type.tag),
    ("values", .array (type.values.map EnumValue.toJson))]

def Field.toJson (field : Field) : Json :=
  .object ([("name", .string field.name), ("key", .string field.key),
    ("type", .string field.type), ("optional", .bool field.isOptional),
    ("inherited", .bool field.isInherited)] ++
    optional "flag_bit" Json.ofNat field.flagBit ++
    optional "static_size" Json.ofNat field.staticSize)

def Object.toJson (object : Object) : Json :=
  .object ([("name", .string object.name), ("tag", .string object.tag),
    ("role", .string object.role.text)] ++
    optional "parent" Json.string object.parent ++
    [("root", .string object.root), ("kind_tag", wordJson object.kindTag),
     ("polymorphic", .bool object.isPolymorphic), ("flag_bytes", .ofNat object.flagBytes),
     ("static_min_size", .ofNat object.staticMinSize)] ++
    optional "wire_id" wordJson object.wireId ++
    optional "response" Json.string object.response ++
    optional "request" Json.string object.request ++
    [("fields", .array (object.fields.map Field.toJson))])

def DispatchEntry.toJson (entry : DispatchEntry) : Json :=
  .object [("kind_tag", wordJson entry.kindTag), ("type", .string entry.type)]

def Dispatch.toJson (dispatch : Dispatch) : Json :=
  .object [("root", .string dispatch.root),
    ("entries", .array (dispatch.entries.map DispatchEntry.toJson))]

def FactoryEntry.toJson (entry : FactoryEntry) : Json :=
  .object [("wire_id", wordJson entry.wireId), ("type", .string entry.type)]

def Manifest.toJson (manifest : Manifest) : Json :=
  .object [("version", .ofNat version), ("namespace", .string manifest.space),
    ("enums", .array (manifest.enums.map Enum.toJson)),
    ("objects", .array (manifest.objects.map Object.toJson)),
    ("dispatch", .array (manifest.dispatch.map Dispatch.toJson)),
    ("factory", .array (manifest.factory.map FactoryEntry.toJson))]

/-- The text of a contract, on one line or spread over lines. -/
def Manifest.text (manifest : Manifest) (spread : Bool) : String :=
  if spread then manifest.toJson.pretty 0 else manifest.toJson.compact

end Contract
end WireSchema
