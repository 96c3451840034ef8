import WireSchema.Schema.Declaration
import WireSchema.Schema.Layout
import WireSchema.TagMap

/-!
# Type graphs

A type graph holds the enums and objects of a whole batch of documents, with every link resolved:
a declaration refers to another by its number in the graph.  Objects carry all their fields, the
inherited ones first, and everything that the wire format needs to know about them.

Objects that inherit from one another form families.  The object at the top of a family is its
root; it owns a dispatch table, which maps the kind tags written on the wire to the members of
the family.
-/

namespace WireSchema

/-- The number of an object in its graph. -/
structure ObjectId where
  index : Nat
  deriving DecidableEq, Repr, Inhabited

/-- The number of an enum in its graph. -/
structure EnumId where
  index : Nat
  deriving DecidableEq, Repr, Inhabited

inductive FieldType where
  | primitive (kind : Primitive)
  | text
  | binary (length : Nat)
  | enum (id : EnumId)
  | object (id : ObjectId)
  | array (element : FieldType)
  deriving DecidableEq, Repr, Inhabited

/-- The width on the wire, where it does not depend on the value. -/
def FieldType.staticSize? : FieldType → Option Nat
  | .primitive kind => some kind.size
  | .binary length => some length
  | .enum _ => some 1
  | .text | .object _ | .array _ => none

/-- A field of an object.  `declaredIn` is the object that declares it, which may be an ancestor
of its holder; an optional field has the number of its presence bit. -/
structure Field where
  key : String
  name : String
  isOptional : Bool
  type : FieldType
  declaredIn : ObjectId
  flagBit : Option Nat
  deriving DecidableEq, Repr, Inhabited

/-- Required fields of fixed width count towards the least size of their object. -/
def Field.isStatic (field : Field) : Bool := !field.isOptional && field.type.staticSize?.isSome

def Layout.ofFields (fields : List Field) (isPayload isPolymorphic : Bool) : Layout :=
  .of (fields.countP (·.isOptional))
    (((fields.filter (·.isStatic)).filterMap (·.type.staticSize?)).foldr (.ofNat · + ·) 0)
    isPayload isPolymorphic

structure EnumType where
  space : String
  tag : String
  name : String
  values : List String
  deriving DecidableEq, Repr, Inhabited

namespace EnumType

/-- The place of a value, as the byte that stands for it. -/
def ordinal? (type : EnumType) (value : String) : Option UInt8 :=
  (type.values.findIdx? (· == value)).bind fun index =>
    if index < 256 then some (UInt8.ofNat index) else none

def value? (type : EnumType) (ordinal : UInt8) : Option String := type.values[ordinal.toNat]?

end EnumType

structure ObjectType where
  space : String
  tag : String
  name : String
  role : Role
  parent : Option ObjectId
  root : ObjectId
  fields : List Field
  /-- How many of the fields are inherited. -/
  ownStart : Nat
  wireId : Option UInt32
  response : Option ObjectId
  request : Option ObjectId
  kindTag : UInt32
  isPolymorphic : Bool
  layout : Layout
  deriving DecidableEq, Repr, Inhabited

namespace ObjectType

def fieldIndex? (type : ObjectType) (name : String) : Option Nat :=
  type.fields.findIdx? (·.name == name)

def field? (type : ObjectType) (name : String) : Option Field :=
  type.fields.find? (·.name == name)

def isPayload (type : ObjectType) : Bool := type.role.isPayload

def qualifiedName (type : ObjectType) : String := type.space ++ ":" ++ type.name

end ObjectType

/-- The kind tags of a family of objects.  Tag zero is the root's. -/
structure DispatchTable where
  root : ObjectId
  members : TagMap ObjectId

namespace DispatchTable

def rootTag : UInt32 := 0

def ofRoot (root : ObjectId) : DispatchTable := ⟨root, TagMap.empty.insert rootTag root⟩

/-- Adds a member; a tag that is taken is refused, with its holder. -/
def insert (table : DispatchTable) (tag : UInt32) (object : ObjectId) :
    Except ObjectId DispatchTable :=
  match table.members.find? tag with
  | some holder => .error holder
  | none => .ok { table with members := table.members.insert tag object }

/-- The member with a tag; the root stands in for an unknown one. -/
def resolve (table : DispatchTable) (tag : UInt32) : ObjectId :=
  (table.members.find? tag).getD table.root

def contains (table : DispatchTable) (tag : UInt32) : Bool := table.members.contains tag

def size (table : DispatchTable) : Nat := table.members.size

def isEmpty (table : DispatchTable) : Bool := table.members.isEmpty

end DispatchTable

/-- The declarations of one namespace, in the order of the document. -/
structure Namespace where
  name : String
  enums : List EnumId
  objects : List ObjectId
  messages : List ObjectId
  requests : List ObjectId
  responses : List ObjectId
  deriving DecidableEq, Repr

/-- The payloads of a namespace in the order in which they are registered. -/
def Namespace.payloads (space : Namespace) : List ObjectId :=
  space.messages ++ space.requests ++ space.responses

structure Graph where
  enums : Array EnumType
  objects : Array ObjectType
  namespaces : List Namespace
  /-- Dispatch tables in the order of their roots. -/
  tables : List DispatchTable
  wireIds : TagMap ObjectId

namespace Graph

def object (graph : Graph) (id : ObjectId) : ObjectType := graph.objects.getD id.index default

def enum (graph : Graph) (id : EnumId) : EnumType := graph.enums.getD id.index default

def namespace? (graph : Graph) (name : String) : Option Namespace :=
  graph.namespaces.find? (·.name == name)

/-- The first object of a namespace with a type name. -/
def findObject? (graph : Graph) (space name : String) : Option ObjectId :=
  (graph.objects.findIdx? fun o => o.space == space && o.name == name).map ObjectId.mk

/-- The first enum of a namespace with a type name. -/
def findEnum? (graph : Graph) (space name : String) : Option EnumId :=
  (graph.enums.findIdx? fun e => e.space == space && e.name == name).map EnumId.mk

def byWireId? (graph : Graph) (id : UInt32) : Option ObjectId := graph.wireIds.find? id

def table? (graph : Graph) (root : ObjectId) : Option DispatchTable :=
  graph.tables.find? (·.root == root)

/-- An object and its ancestors, nearest first, as far as the given number of steps leads. -/
def climb (graph : Graph) : Nat → ObjectId → List ObjectId
  | 0, id => [id]
  | steps + 1, id =>
    match (graph.object id).parent with
    | some parent => id :: graph.climb steps parent
    | none => [id]

/-- An object and all its ancestors.  No chain of ancestors is longer than the graph. -/
def ancestry (graph : Graph) (id : ObjectId) : List ObjectId :=
  graph.climb graph.objects.size id

/-- Whether an object is another one or inherits from it. -/
def isA (graph : Graph) (id ancestor : ObjectId) : Bool := (graph.ancestry id).contains ancestor

/-- Wire ids of payloads, those without one left out. -/
def withWireIds (graph : Graph) (ids : List ObjectId) : List (UInt32 × ObjectId) :=
  ids.filterMap fun id => (graph.object id).wireId.map fun wire => (wire, id)

/-- Wire ids of one namespace: messages, then requests, then responses. -/
def factoryIds (graph : Graph) (space : String) : List (UInt32 × ObjectId) :=
  match graph.namespace? space with
  | some found => graph.withWireIds found.payloads
  | none => []

def allFactoryIds (graph : Graph) : List (UInt32 × ObjectId) :=
  graph.namespaces.flatMap fun space => graph.withWireIds space.payloads

end Graph
end WireSchema
