import WireSchema.Codec.Size
import WireSchema.Record.Basic
import WireSchema.Wire.Flags

/-!
# Decoding records

The type of what is decoded is known beforehand, or selected: a payload by the wire id in its
header, an object of a family by its kind tag.  Objects may be nested to a limit, which bounds the
recursion.  Reading into a record that exists already may be interrupted by a fault; then the
fields read before keep their new values.
-/

namespace WireSchema

/-- Objects nested deeper are refused. -/
def depthLimit : Nat := 64

/-- A reading of fields that met a fault: what was read before. -/
structure Interruption where
  cause : CodecError
  done : List (Option Value)

/-- The items of an array; `sofar` holds those already read, last first. -/
def readItems (read : Reading Value) : (count : Nat) → (sofar : List Value) → Reading (List Value)
  | 0, sofar => pure sofar.reverse
  | count + 1, sofar => do
    let item ← read
    readItems read count (item :: sofar)

def readPrimitive : Primitive → Reading Value
  | .bool => .bool <$> Reader.bool
  | .int8 => .int8 <$> Reader.int8
  | .uint8 => .uint8 <$> Reader.uint8
  | .int16 => .int16 <$> Reader.int16
  | .uint16 => .uint16 <$> Reader.uint16
  | .int32 => .int32 <$> Reader.int32
  | .uint32 => .uint32 <$> Reader.uint32
  | .int64 => .int64 <$> Reader.int64
  | .uint64 => .uint64 <$> Reader.uint64
  | .float => .float <$> Reader.float
  | .double => .double <$> Reader.double
  | .datetime => do
    let millis := (← Reader.int64).toInt
    match Time.Instant.ofMillis? millis with
    | some instant => return .datetime instant
    | none => throw (.invalidInstant millis)

def EnumType.readOrdinal (type : EnumType) : Reading UInt8 := do
  let ordinal ← Reader.uint8
  if ordinal.toNat < type.values.length then return ordinal
  else throw (.ordinalOutOfRange type.name ordinal)

/-- A value of a type; `nested` reads the objects in it. -/
def readValue (graph : Graph) (nested : ObjectId → Reading Record) : FieldType → Reading Value
  | .primitive kind => readPrimitive kind
  | .text => .text <$> Reader.text
  | .binary length => .binary <$> Reader.bytes length
  | .enum id => .ordinal <$> (graph.enum id).readOrdinal
  | .object id => .record <$> nested id
  | .array element => do
    let count ← Reader.length
    return .array (← readItems (readValue graph nested element) count [])

/-- The slots of fields, in their order; `sofar` holds those already read, last first. -/
def readSlots (read : FieldType → Reading Value) (flags : FlagBits)
    (sofar : List (Option Value)) : List Field → EStateM Interruption Reader (List (Option Value))
  | [] => pure sofar.reverse
  | field :: rest => fun reader =>
    let (present, flags) := if field.isOptional then flags.next else (true, flags)
    if present then
      match read field.type reader with
      | .ok value reader => readSlots read flags (some value :: sofar) rest reader
      | .error cause reader => .error ⟨cause, sofar.reverse⟩ reader
    else readSlots read flags (none :: sofar) rest reader

/-- The presence bits and the slots of an object of the given type. -/
def ObjectType.readBody (type : ObjectType) (read : FieldType → Reading Value) :
    EStateM Interruption Reader (List (Option Value)) := do
  let flags ← EStateM.adaptExcept (Interruption.mk · []) (FlagBits.read type.layout.flagBytes)
  readSlots read flags [] type.fields

/-- The member of the family of a declared type that a kind tag selects.  An unknown tag selects
the root; a member that is not of the declared type gives way to the declared type. -/
def Graph.concreteType (graph : Graph) (declared : ObjectId) (tag : UInt32) : ObjectId :=
  let root := (graph.object declared).root
  let selected :=
    match graph.table? root with
    | some table => table.resolve tag
    | none => root
  if graph.isA selected declared then selected else declared

/-- The type of an object in a place of a declared type: a kind tag is read if there is one. -/
def Graph.readConcreteType (graph : Graph) (declared : ObjectId) : Reading ObjectId := do
  if (graph.object declared).isPolymorphic then
    return graph.concreteType declared (← Reader.uint32)
  else return declared

namespace Schema

/-- An object of a declared type, in which further objects are nested to the given number of
levels, itself included. -/
def readObject (schema : Schema) : (levels : Nat) → ObjectId → Reading Record
  | 0, _ => do throw (.depthExceeded (← get).offset depthLimit)
  | levels + 1, declared => do
    let id ← schema.graph.readConcreteType declared
    let slots ← EStateM.adaptExcept Interruption.cause
      ((schema.graph.object id).readBody (readValue schema.graph (schema.readObject levels)))
    return { Record.empty schema id with slots := slots }

def decodeObject (schema : Schema) (declared : ObjectId) : Reading Record :=
  schema.readObject depthLimit declared

/-- A value in the body of a payload. -/
def readPayloadValue (schema : Schema) : FieldType → Reading Value :=
  readValue schema.graph (schema.readObject (depthLimit - 1))

/-- A payload, of the type that the wire id in its header selects. -/
def decodePayload (schema : Schema) : Reading Record := do
  let command ← Reader.uint32
  match schema.graph.byWireId? command with
  | none => throw (.unknownCommand command)
  | some id =>
    let transaction ← Reader.uint32
    let slots ← EStateM.adaptExcept Interruption.cause
      ((schema.graph.object id).readBody schema.readPayloadValue)
    return { (Record.empty schema id).withTransaction transaction with slots := slots }

end Schema

namespace Record

/-- The transaction id in the header of a payload of a type; other objects have no header. -/
def readHeader (type : ObjectType) : Reading (Option UInt32) := do
  if type.layout.hasHeader then
    let command ← Reader.uint32
    if type.wireId == some command then return some (← Reader.uint32)
    else throw (.unknownCommand command)
  else return none

/-- Passes over the kind tag; the type of a record that exists already is known. -/
def skipKindTag (type : ObjectType) : Reading Unit := do
  if type.layout.hasKindTag then let _ ← Reader.uint32

/-- Slots of which the first ones are replaced. -/
def overlaid (done slots : List (Option Value)) : List (Option Value) :=
  done ++ slots.drop done.length

/-- Reads an encoding of the type of a record into the record.  Gives the record as it is left,
and how the reading ended. -/
def decode (schema : Schema) (record : Record) (reader : Reader) :
    Record × EStateM.Result CodecError Reader Unit :=
  let type := record.typeIn schema
  match readHeader type reader with
  | .error fault reader => (record, .error fault reader)
  | .ok transaction reader =>
    let started := { record with transaction := transaction <|> record.transaction }
    match skipKindTag type reader with
    | .error fault reader => (started, .error fault reader)
    | .ok _ reader =>
      match type.readBody schema.readPayloadValue reader with
      | .ok slots reader => ({ started with slots := slots }, .ok () reader)
      | .error stopped reader =>
        ({ started with slots := overlaid stopped.done started.slots }, .error stopped.cause reader)

end Record
end WireSchema
