import WireSchema.Record.Typing
import WireSchema.Text.Units
import WireSchema.Wire.Error

/-!
# Sizes of encodings

The size of an encoding is computed before anything is written: the least size that the layout of
the type gives, and the widths of all optional values and of all values of variable width.  It is a
64-bit number, as the sizes in layouts are.  A record that lacks a required value has no encoding
and no size.
-/

namespace WireSchema

/-- A length or a count takes four bytes. -/
def lengthSize : Nat := 4

def CodecError.missing (owner : String) (field : Field) : CodecError :=
  .missingField owner field.name

/-- The fault of a value that does not fit the type of its field. -/
def Schema.mismatch (schema : Schema) (owner : String) (field : Field) (type : FieldType) :
    CodecError :=
  .typeMismatch owner field.name (schema.typePhrase type)

mutual

def Record.encodedSize (schema : Schema) : Record → Except CodecError UInt64
  | ⟨_, id, slots, _⟩ => do
    let type := schema.graph.object id
    let more ← Record.slotsSize schema type.name type.fields slots
    return type.layout.minSize + more

/-- What the slots of a record add to the least size of their type. -/
def Record.slotsSize (schema : Schema) (owner : String) (fields : List Field) :
    List (Option Value) → Except CodecError UInt64
  | [] => .ok 0
  | some value :: rest =>
    match fields with
    | [] => .ok 0
    | field :: fields => do
      let size ←
        if field.isStatic then .ok 0 else Value.encodedSize schema owner field field.type value
      let more ← Record.slotsSize schema owner fields rest
      return size + more
  | none :: rest =>
    match fields with
    | [] => .ok 0
    | field :: fields =>
      if field.isOptional then Record.slotsSize schema owner fields rest
      else .error (.missing owner field)

/-- The size of a value of a type.  Owner and field are named when the value does not fit. -/
def Value.encodedSize (schema : Schema) (owner : String) (field : Field) (type : FieldType)
    (value : Value) : Except CodecError UInt64 :=
  match type.staticSize?, type, value with
  | some size, _, _ => .ok (.ofNat size)
  | none, .text, .text text => .ok (.ofNat lengthSize + .ofNat text.utf8ByteSize)
  | none, .object _, .record nested => nested.encodedSize schema
  | none, .array element, .array items =>
    (Value.itemsSize schema owner field element items).map (.ofNat lengthSize + ·)
  | none, type, _ => .error (schema.mismatch owner field type)

def Value.itemsSize (schema : Schema) (owner : String) (field : Field) (element : FieldType) :
    List Value → Except CodecError UInt64
  | [] => .ok 0
  | item :: rest => do
    let size ← Value.encodedSize schema owner field element item
    let more ← Value.itemsSize schema owner field element rest
    return size + more

end

end WireSchema
