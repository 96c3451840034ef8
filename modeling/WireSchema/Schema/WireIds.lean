import WireSchema.Naming.Hash
import WireSchema.Schema.Error
import WireSchema.TagMap

/-!
# Assigning wire ids

Every payload of a batch has a wire id, the hash of its namespace and type name written together.
Two payloads with the same id are an error, which names both.
-/

namespace WireSchema

/-- The ids assigned so far, each with a label of its holder. -/
structure WireIds where
  holders : TagMap String
  deriving Inhabited

namespace WireIds

def empty : WireIds := ⟨.empty⟩

def size (ids : WireIds) : Nat := ids.holders.size

def isEmpty (ids : WireIds) : Bool := ids.holders.isEmpty

/-- The wire id of a type of a namespace. -/
def idOf (space typeName : String) : UInt32 := Naming.wireHash (space ++ typeName)

def assign (ids : WireIds) (space typeName label : String) :
    Except SchemaError (UInt32 × WireIds) :=
  let id := idOf space typeName
  match ids.holders.find? id with
  | some first => .error (.idCollision id first label)
  | none => .ok (id, ⟨ids.holders.insert id label⟩)

end WireIds
end WireSchema
