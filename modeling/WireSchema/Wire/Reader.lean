import WireSchema.Number.BinaryFloat
import WireSchema.Text.Units
import WireSchema.Wire.BigEndian
import WireSchema.Wire.Error

/-!
# Reading bytes

A reader stands at an offset in a sequence of bytes, of which it keeps those that are left.  A
reading that asks for more bytes than are left fails and leaves the reader where it was; a text
that is not well formed fails after its bytes were taken.
-/

namespace WireSchema

structure Reader where
  offset : Nat
  rest : List UInt8
  deriving DecidableEq, Repr

/-- What moves a reader and gives a value or a fault. -/
abbrev Reading := EStateM CodecError Reader

namespace Reader

/-- A reader at the start of a sequence of bytes. -/
def of (bytes : List UInt8) : Reader := ⟨0, bytes⟩

def remaining (reader : Reader) : Nat := reader.rest.length

def size (reader : Reader) : Nat := reader.offset + reader.rest.length

def isEmpty (reader : Reader) : Bool := reader.size == 0

def atEnd (reader : Reader) : Bool := reader.rest.isEmpty

def bytes (count : Nat) : Reading (List UInt8) := fun reader =>
  let taken := reader.rest.take count
  if taken.length < count then .error (.unexpectedEnd reader.offset count) reader
  else .ok taken ⟨reader.offset + count, reader.rest.drop count⟩

def word (width : Nat) : Reading Nat := do return Wire.ofBigEndian (← bytes width)

def uint8 : Reading UInt8 := do return UInt8.ofNat (← word 1)

def uint16 : Reading UInt16 := do return UInt16.ofNat (← word 2)

def uint32 : Reading UInt32 := do return UInt32.ofNat (← word 4)

def uint64 : Reading UInt64 := do return UInt64.ofNat (← word 8)

def int8 : Reading Int8 := do return (← uint8).toInt8

def int16 : Reading Int16 := do return (← uint16).toInt16

def int32 : Reading Int32 := do return (← uint32).toInt32

def int64 : Reading Int64 := do return (← uint64).toInt64

def float : Reading Number.Binary32 := do return ⟨← uint32⟩

def double : Reading Number.Binary64 := do return ⟨← uint64⟩

/-- A truth value: one byte, of which only 1 means true. -/
def bool : Reading Bool := do return (← uint8) == 1

/-- A count or a length: four bytes. -/
def length : Reading Nat := word 4

/-- A text: the length of its bytes, then the bytes. -/
def text : Reading String := do
  let count ← length
  let start := (← get).offset
  match Text.ofUtf8? (← bytes count) with
  | some value => return value
  | none => throw (.invalidUtf8 start)

end Reader
end WireSchema
