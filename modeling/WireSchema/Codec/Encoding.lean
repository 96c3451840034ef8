import WireSchema.Codec.Size
import WireSchema.Wire.Flags

/-!
# Encoding records

An encoding consists of these parts, of which the first two are not always there:

* the header of a payload: wire id and transaction id, the latter zero if there is none;
* the kind tag of an object that belongs to a family;
* the presence bits of the optional fields;
* the values of the fields, the inherited ones first.

Nested records are written in place, without a header.
-/

namespace WireSchema

def ObjectType.writeHeader (type : ObjectType) (transaction : Option UInt32) : Writing Unit := do
  if type.layout.hasHeader then
    match type.wireId with
    | some id =>
      Writer.uint32 id
      Writer.uint32 (transaction.getD 0)
    | none => throw (.fault (.notAPayload type.name))

def ObjectType.writeKindTag (type : ObjectType) : Writing Unit := do
  if type.layout.hasKindTag then Writer.uint32 type.kindTag

/-- One bit for each optional field: whether its slot is filled. -/
def presenceBits (fields : List Field) (slots : List (Option Value)) : List Bool :=
  ((fields.zip slots).filter (·.1.isOptional)).map (·.2.isSome)

mutual

def Record.encode (schema : Schema) : Record → Writing Unit
  | ⟨_, id, slots, transaction⟩ => do
    let type := schema.graph.object id
    type.writeHeader transaction
    type.writeKindTag
    (FlagBits.ofBits (presenceBits type.fields slots)).write
    Record.encodeSlots schema type.name type.fields slots

def Record.encodeSlots (schema : Schema) (owner : String) (fields : List Field) :
    List (Option Value) → Writing Unit
  | [] => pure ()
  | some value :: rest =>
    match fields with
    | [] => pure ()
    | field :: fields => do
      Value.encode schema owner field field.type value
      Record.encodeSlots schema owner fields rest
  | none :: rest =>
    match fields with
    | [] => pure ()
    | field :: fields =>
      if field.isOptional then Record.encodeSlots schema owner fields rest
      else throw (.fault (.missing owner field))

def Value.encode (schema : Schema) (owner : String) (field : Field) (type : FieldType)
    (value : Value) : Writing Unit :=
  match type, value with
  | .primitive .bool, .bool value => Writer.bool value
  | .primitive .int8, .int8 value => Writer.int8 value
  | .primitive .uint8, .uint8 value => Writer.uint8 value
  | .primitive .int16, .int16 value => Writer.int16 value
  | .primitive .uint16, .uint16 value => Writer.uint16 value
  | .primitive .int32, .int32 value => Writer.int32 value
  | .primitive .uint32, .uint32 value => Writer.uint32 value
  | .primitive .int64, .int64 value => Writer.int64 value
  | .primitive .uint64, .uint64 value => Writer.uint64 value
  | .primitive .float, .float value => Writer.float value
  | .primitive .double, .double value => Writer.double value
  | .primitive .datetime, .datetime value => Writer.int64 (Int64.ofInt value.millis)
  | .text, .text value => Writer.text value
  | .binary length, .binary bytes => Writer.binary bytes length
  | .enum _, .ordinal value => Writer.uint8 value
  | .object _, .record nested => nested.encode schema
  | .array element, .array items => do
    Writer.length items.length
    Value.encodeItems schema owner field element items
  | type, _ => throw (.fault (schema.mismatch owner field type))

def Value.encodeItems (schema : Schema) (owner : String) (field : Field) (element : FieldType) :
    List Value → Writing Unit
  | [] => pure ()
  | item :: rest => do
    Value.encode schema owner field element item
    Value.encodeItems schema owner field element rest

end

end WireSchema
