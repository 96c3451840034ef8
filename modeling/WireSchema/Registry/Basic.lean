import WireSchema.Log
import WireSchema.Registry.Message
import WireSchema.TagMap

/-!
# Registries

A registry knows, by command id, the empty messages into which bytes are decoded, and hands out
transaction ids to messages that are packed without one.  Packing measures a message, fills a
buffer of exactly that size, and checks that the buffer is full.  A fault goes to the handler of
the registry, or into the log when there is none.  Packing panics where no buffer can have the size.
-/

namespace WireSchema

/-- The source of transaction ids. -/
structure TransactionCounter where
  /-- The id handed out last; zero before the first. -/
  last : UInt32
  deriving DecidableEq, Repr

namespace TransactionCounter

def fresh : TransactionCounter := ⟨0⟩

/-- The next id.  After the last 32-bit number the ids begin anew at zero. -/
def next (counter : TransactionCounter) : UInt32 × TransactionCounter :=
  (counter.last + 1, ⟨counter.last + 1⟩)

def take (counter : TransactionCounter) : Nat → List UInt32
  | 0 => []
  | count + 1 => counter.next.1 :: counter.next.2.take count

end TransactionCounter

structure Registry (μ : Type) where
  factories : TagMap μ
  transactions : TransactionCounter
  hasHandler : Bool

/-- What is told about an activity: a log record, or a failure for the handler. -/
inductive Notice where
  | log (record : LogRecord)
  | report (activity : Activity) (fault : CodecError)
  deriving DecidableEq, Repr

namespace Registry

variable {μ : Type}

def empty (hasHandler : Bool) : Registry μ := ⟨.empty, .fresh, hasHandler⟩

def size (registry : Registry μ) : Nat := registry.factories.size

def isEmpty (registry : Registry μ) : Bool := registry.factories.isEmpty

def isRegistered (registry : Registry μ) (command : UInt32) : Bool :=
  registry.factories.contains command

/-! ## Registering -/

/-- Registers empty messages one after another.  The later of two with the same id stays. -/
def registerEach (factories : TagMap μ) :
    List (UInt32 × μ) → TagMap μ × List LogRecord
  | [] => (factories, [])
  | (command, message) :: rest =>
    let replaced := if factories.contains command then [LogRecord.replaced command] else []
    let (factories, records) := registerEach (factories.insert command message) rest
    (factories, replaced ++ records)

def register (registry : Registry μ) (messages : List (UInt32 × μ)) :
    Registry μ × List LogRecord :=
  let (factories, records) := registerEach registry.factories messages
  ({ registry with factories := factories },
    records ++ [.registered factories.size (factories.size - registry.factories.size)])

/-! ## Packing -/

variable [Message μ]

/-- Gives a transaction id to a message that has none. -/
def assign (registry : Registry μ) (message : μ) : Registry μ × μ :=
  match Message.transaction? message with
  | some _ => (registry, message)
  | none =>
    let (id, transactions) := registry.transactions.next
    ({ registry with transactions := transactions }, Message.withTransaction message id)

/-- The largest number of bytes in a buffer.  There is taken to be memory for any smaller number. -/
def bufferLimit : Nat := 0x7fffffffffffffff

/-- The bytes of a message, in a buffer of the size that the message gives. -/
def encoded (message : μ) : Except Failure (List UInt8) := do
  let size ← Failure.told (Message.encodedSize message)
  if bufferLimit < size.toNat then throw .panic
  match Message.encode message (Writer.of (List.replicate size.toNat 0)) with
  | .error failure _ => throw failure
  | .ok _ writer =>
    if writer.offset = size.toNat then return writer.buffer
    else throw (.fault (.lengthMismatch size.toNat writer.offset))

/-- What packing leaves behind.  The message has its transaction id even if packing failed. -/
structure Packed (μ ρ : Type) where
  registry : Registry μ
  message : μ
  result : ρ
  notices : List Notice

def tryPack (registry : Registry μ) (message : μ) :
    Packed μ (Except Failure (List UInt8)) :=
  let (registry, message) := registry.assign message
  let result := encoded message
  let notices :=
    match result with
    | .ok bytes =>
      [.log (.packed (Message.command message) (Message.transaction? message) bytes.length)]
    | .error _ => []
  ⟨registry, message, result, notices⟩

/-- Tells about a fault: to the handler, or to the log. -/
def notice (registry : Registry μ) (activity : Activity) (fault : CodecError) : Notice :=
  if registry.hasHandler then .report activity fault else .log (.failed activity fault)

/-- Packs a message, or tells about the fault and gives none. -/
def pack (registry : Registry μ) (message : μ) :
    Packed μ (Except Failure (Option (List UInt8))) :=
  let packed := registry.tryPack message
  match packed.result with
  | .ok bytes => { packed with result := .ok (some bytes) }
  | .error (.fault fault) =>
    { packed with
      result := .ok none
      notices := packed.notices ++ [registry.notice .packing fault] }
  | .error .panic => { packed with result := .error .panic }

/-! ## Unpacking -/

/-- Unpacking needs at least the command id. -/
def commandSize : Nat := 4

/-- The message in some bytes, and how many of them it takes.  Fewer bytes than a command id are
no message and no fault. -/
def received (registry : Registry μ) (bytes : List UInt8) :
    Except CodecError (Option (UInt32 × μ × Nat)) :=
  if bytes.length < commandSize then .ok none
  else
    let command := UInt32.ofNat (Wire.ofBigEndian (bytes.take commandSize))
    match registry.factories.find? command with
    | none => .error (.unknownCommand command)
    | some empty =>
      match Message.decode empty (Reader.of bytes) with
      | (_, .error fault _) => .error fault
      | (message, .ok _ reader) => .ok (some (command, message, reader.offset))

/-- What unpacking gives. -/
structure Unpacked (ρ : Type) where
  result : ρ
  notices : List Notice

def tryUnpack (registry : Registry μ) (bytes : List UInt8) :
    Unpacked (Except CodecError (Option μ)) :=
  match registry.received bytes with
  | .ok (some (command, message, consumed)) =>
    ⟨.ok (some message),
      [.log (.unpacked command (Message.transaction? message) consumed bytes.length)]⟩
  | .ok none => ⟨.ok none, []⟩
  | .error fault => ⟨.error fault, []⟩

def unpack (registry : Registry μ) (bytes : List UInt8) : Unpacked (Option μ) :=
  let unpacked := registry.tryUnpack bytes
  match unpacked.result with
  | .ok message => ⟨message, unpacked.notices⟩
  | .error fault => ⟨none, unpacked.notices ++ [registry.notice .unpacking fault]⟩

omit [Message μ] in
/-- The description of a registry: the registered ids in ascending order, the id handed out last,
and whether there is a handler. -/
def described (registry : Registry μ) : String :=
  let ids := registry.factories.entries.map fun (command, _) => toString command
  "PackMe \x7b factories: [" ++ String.intercalate ", " ids ++
    "], transactions: TransactionCounter(" ++ toString registry.transactions.last ++
    "), on_error: " ++ toString registry.hasHandler ++ " \x7d"

end Registry
end WireSchema
