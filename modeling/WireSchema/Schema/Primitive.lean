/-!
# Primitive types

Types of fixed width that a schema names by a token.
-/

namespace WireSchema

inductive Primitive where
  | bool
  | int8
  | uint8
  | int16
  | uint16
  | int32
  | uint32
  | int64
  | uint64
  | float
  | double
  | datetime
  deriving DecidableEq, Repr, Inhabited

namespace Primitive

def all : List Primitive :=
  [.bool, .int8, .uint8, .int16, .uint16, .int32, .uint32, .int64, .uint64, .float, .double,
   .datetime]

/-- Width on the wire, in bytes. -/
def size : Primitive → Nat
  | .bool | .int8 | .uint8 => 1
  | .int16 | .uint16 => 2
  | .int32 | .uint32 | .float => 4
  | .int64 | .uint64 | .double | .datetime => 8

def token : Primitive → String
  | .bool => "bool"
  | .int8 => "int8"
  | .uint8 => "uint8"
  | .int16 => "int16"
  | .uint16 => "uint16"
  | .int32 => "int32"
  | .uint32 => "uint32"
  | .int64 => "int64"
  | .uint64 => "uint64"
  | .float => "float"
  | .double => "double"
  | .datetime => "datetime"

def ofToken? (token : String) : Option Primitive := all.find? (·.token == token)

theorem ofToken?_token (primitive : Primitive) : ofToken? primitive.token = some primitive := by
  cases primitive <;> decide

end Primitive
end WireSchema
