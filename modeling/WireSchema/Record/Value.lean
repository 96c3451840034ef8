import WireSchema.Number.BinaryFloat
import WireSchema.Schema.Graph
import WireSchema.Time.Instant

/-!
# Values and records

A record is a value of an object type: one slot for each field of the type, filled or not, in the
order of the fields.  A payload may also have a transaction id.  Records hold values, and values
may be arrays of values or records again.

Two schemas may declare the same types and still be different schemas.  A record therefore knows
the number of the schema that its type belongs to.
-/

namespace WireSchema

mutual

inductive Value where
  | bool (value : Bool)
  | int8 (value : Int8)
  | uint8 (value : UInt8)
  | int16 (value : Int16)
  | uint16 (value : UInt16)
  | int32 (value : Int32)
  | uint32 (value : UInt32)
  | int64 (value : Int64)
  | uint64 (value : UInt64)
  | float (value : Number.Binary32)
  | double (value : Number.Binary64)
  | datetime (value : Time.Instant)
  | text (value : String)
  | binary (bytes : List UInt8)
  /-- A value of an enum, by its place among them. -/
  | ordinal (value : UInt8)
  | array (items : List Value)
  | record (value : Record)

structure Record where
  /-- The number of the schema. -/
  schema : Nat
  type : ObjectId
  slots : List (Option Value)
  transaction : Option UInt32

end

instance : Inhabited Value := ⟨.bool false⟩

instance : Inhabited Record := ⟨⟨0, ⟨0⟩, [], none⟩⟩

namespace Value

/-- What kind of value it is, in a word. -/
def kind : Value → String
  | .bool _ => "bool"
  | .int8 _ => "int8"
  | .uint8 _ => "uint8"
  | .int16 _ => "int16"
  | .uint16 _ => "uint16"
  | .int32 _ => "int32"
  | .uint32 _ => "uint32"
  | .int64 _ => "int64"
  | .uint64 _ => "uint64"
  | .float _ => "float"
  | .double _ => "double"
  | .datetime _ => "datetime"
  | .text _ => "string"
  | .binary _ => "binary"
  | .ordinal _ => "enum"
  | .array _ => "array"
  | .record _ => "object"

def bool? : Value → Option Bool
  | .bool value => some value
  | _ => none

def uint8? : Value → Option UInt8
  | .uint8 value => some value
  | _ => none

def uint16? : Value → Option UInt16
  | .uint16 value => some value
  | _ => none

def uint32? : Value → Option UInt32
  | .uint32 value => some value
  | _ => none

def uint64? : Value → Option UInt64
  | .uint64 value => some value
  | _ => none

def int32? : Value → Option Int32
  | .int32 value => some value
  | _ => none

def int64? : Value → Option Int64
  | .int64 value => some value
  | _ => none

def double? : Value → Option Number.Binary64
  | .double value => some value
  | _ => none

def datetime? : Value → Option Time.Instant
  | .datetime value => some value
  | _ => none

def text? : Value → Option String
  | .text value => some value
  | _ => none

def binary? : Value → Option (List UInt8)
  | .binary bytes => some bytes
  | _ => none

def ordinal? : Value → Option UInt8
  | .ordinal value => some value
  | _ => none

def items? : Value → Option (List Value)
  | .array items => some items
  | _ => none

def record? : Value → Option Record
  | .record value => some value
  | _ => none

mutual

/-- The value with its instants cut to whole milliseconds, those in arrays included. -/
def truncated : Value → Value
  | .datetime value => .datetime value.truncated
  | .array items => .array (truncatedItems items)
  | other => other

def truncatedItems : List Value → List Value
  | [] => []
  | item :: rest => item.truncated :: truncatedItems rest

end

end Value

/-! ## Equality

Values are equal when they are of the same kind and equal as what they are; floating-point
numbers are compared as numbers.  Records are equal when their types and slots are; the
transaction id does not count. -/

mutual

def Value.same : Value → Value → Bool
  | .bool a, .bool b => a == b
  | .int8 a, .int8 b => a == b
  | .uint8 a, .uint8 b => a == b
  | .int16 a, .int16 b => a == b
  | .uint16 a, .uint16 b => a == b
  | .int32 a, .int32 b => a == b
  | .uint32 a, .uint32 b => a == b
  | .int64 a, .int64 b => a == b
  | .uint64 a, .uint64 b => a == b
  | .float a, .float b => a.sameNumber b
  | .double a, .double b => a.sameNumber b
  | .datetime a, .datetime b => a == b
  | .text a, .text b => a == b
  | .binary a, .binary b => a == b
  | .ordinal a, .ordinal b => a == b
  | .array a, .array b => Value.sameItems a b
  | .record a, .record b => Record.same a b
  | _, _ => false

def Value.sameItems : List Value → List Value → Bool
  | [], [] => true
  | a :: as, b :: bs => Value.same a b && Value.sameItems as bs
  | _, _ => false

def Record.same : Record → Record → Bool
  | ⟨schema, type, slots, _⟩, other =>
    schema == other.schema && type == other.type && Record.sameSlots slots other.slots

def Record.sameSlots : List (Option Value) → List (Option Value) → Bool
  | [], [] => true
  | none :: as, none :: bs => Record.sameSlots as bs
  | some a :: as, some b :: bs => Value.same a b && Record.sameSlots as bs
  | _, _ => false

end

end WireSchema
