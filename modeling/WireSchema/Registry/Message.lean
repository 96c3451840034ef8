import WireSchema.Codec.Decoding
import WireSchema.Codec.Encoding

/-!
# Messages

A message is what can be packed into bytes and unpacked again: it has a command id, which its
bytes begin with, and it may have a transaction id.  Payloads of a schema are messages; messages of
two kinds are messages too.
-/

namespace WireSchema

class Message (μ : Type) where
  command : μ → UInt32
  transaction? : μ → Option UInt32
  withTransaction : μ → UInt32 → μ
  /-- The size of the encoding, its header included. -/
  encodedSize : μ → Except CodecError UInt64
  encode : μ → Writing Unit
  /-- Reads an encoding into a message, and gives the message as it is left. -/
  decode : μ → Reader → μ × EStateM.Result CodecError Reader Unit

/-- A record on its own, with the schema it belongs to. -/
structure Payload where
  schema : Schema
  record : Record

namespace Payload

def type (payload : Payload) : ObjectType := payload.record.typeIn payload.schema

def command (payload : Payload) : UInt32 := payload.type.wireId.getD 0

/-- The size of a payload; other records are not sent on their own. -/
def encodedSize (payload : Payload) : Except CodecError UInt64 :=
  if payload.type.isPayload then payload.record.encodedSize payload.schema
  else .error (.notAPayload payload.type.name)

instance : Message Payload where
  command := Payload.command
  transaction? payload := payload.record.transaction
  withTransaction payload id := { payload with record := payload.record.withTransaction id }
  encodedSize := Payload.encodedSize
  encode payload := payload.record.encode payload.schema
  decode payload reader :=
    let (record, outcome) := payload.record.decode payload.schema reader
    ({ payload with record := record }, outcome)

/-- The empty payloads of types, with their wire ids. -/
def empties (schema : Schema) (ids : List (UInt32 × ObjectId)) : List (UInt32 × Payload) :=
  ids.map fun (id, type) => (id, ⟨schema, .empty schema type⟩)

/-- The empty payloads of a namespace: messages, requests, responses. -/
def ofNamespace (schema : Schema) (space : String) : List (UInt32 × Payload) :=
  empties schema (schema.graph.factoryIds space)

def all (schema : Schema) : List (UInt32 × Payload) := empties schema schema.graph.allFactoryIds

end Payload

instance {α β : Type} [Message α] [Message β] : Message (α ⊕ β) where
  command
    | .inl message => Message.command message
    | .inr message => Message.command message
  transaction?
    | .inl message => Message.transaction? message
    | .inr message => Message.transaction? message
  withTransaction
    | .inl message, id => .inl (Message.withTransaction message id)
    | .inr message, id => .inr (Message.withTransaction message id)
  encodedSize
    | .inl message => Message.encodedSize message
    | .inr message => Message.encodedSize message
  encode
    | .inl message => Message.encode message
    | .inr message => Message.encode message
  decode
    | .inl message, reader =>
      let (message, outcome) := Message.decode message reader
      (.inl message, outcome)
    | .inr message, reader =>
      let (message, outcome) := Message.decode message reader
      (.inr message, outcome)

end WireSchema
