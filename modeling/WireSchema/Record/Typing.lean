import WireSchema.Record.Value

/-!
# Which values fit which types

A field takes the values of its type.  A binary field takes bytes of any length, since writing
cuts them or fills them up.  A field of an object type takes records of that type and of the
types that inherit from it, of the same schema.
-/

namespace WireSchema

/-- A type graph in use.  The number tells it from other schemas, equal ones included. -/
structure Schema where
  number : Nat
  graph : Graph

def Primitive.admits : Primitive → Value → Bool
  | .bool, .bool _ => true
  | .int8, .int8 _ => true
  | .uint8, .uint8 _ => true
  | .int16, .int16 _ => true
  | .uint16, .uint16 _ => true
  | .int32, .int32 _ => true
  | .uint32, .uint32 _ => true
  | .int64, .int64 _ => true
  | .uint64, .uint64 _ => true
  | .float, .float _ => true
  | .double, .double _ => true
  | .datetime, .datetime _ => true
  | _, _ => false

namespace Schema

/-- Whether a value can be stored in a field of a type. -/
def admits (schema : Schema) : FieldType → Value → Bool
  | .primitive kind, value => kind.admits value
  | .text, .text _ => true
  | .binary _, .binary _ => true
  | .enum id, .ordinal ordinal => ordinal.toNat < (schema.graph.enum id).values.length
  | .object id, .record record =>
    record.schema == schema.number && schema.graph.isA record.type id
  | .array element, .array items => items.all (schema.admits element)
  | _, _ => false

def typePhrase (schema : Schema) : FieldType → String
  | .primitive kind => kind.token
  | .text => "string"
  | .binary length => "binary" ++ toString length
  | .enum id => "a value of enum " ++ (schema.graph.enum id).name
  | .object id => "an instance of " ++ (schema.graph.object id).name
  | .array element => "an array of " ++ schema.typePhrase element

end Schema
end WireSchema
