import WireSchema.Number.BinaryFloat
import WireSchema.Text.Units
import WireSchema.Wire.BigEndian
import WireSchema.Wire.Error

/-!
# Writing bytes

A writer fills a buffer of fixed size from its start.  The buffer is kept in two parts: the bytes
written, and the bytes ahead, which still hold what was in the buffer before.  A write that does
not fit fails and changes nothing; a text that does not fit may have left its length behind.

A length that a schema gives may be any 64-bit number.  Added to the offset it may need more bits;
then the write panics.  Lengths of data that is at hand are too small for that.
-/

namespace WireSchema

structure Writer where
  /-- The bytes written so far, last first. -/
  written : List UInt8
  ahead : List UInt8
  deriving DecidableEq, Repr

/-- What fills a writer or fails. -/
abbrev Writing := EStateM Failure Writer

namespace Writer

/-- A writer at the start of a buffer. -/
def of (buffer : List UInt8) : Writer := ⟨[], buffer⟩

def offset (writer : Writer) : Nat := writer.written.length

def remaining (writer : Writer) : Nat := writer.ahead.length

def size (writer : Writer) : Nat := writer.offset + writer.remaining

def isEmpty (writer : Writer) : Bool := writer.size == 0

def buffer (writer : Writer) : List UInt8 := writer.written.reverse ++ writer.ahead

def bytes (data : List UInt8) : Writing Unit := fun writer =>
  let need := data.length
  if (writer.ahead.take need).length < need then
    .error (.fault (.writeOverflow writer.offset need)) writer
  else .ok () ⟨data.reverse ++ writer.written, writer.ahead.drop need⟩

def word (width n : Nat) : Writing Unit := bytes (Wire.bigEndian width n)

def uint8 (value : UInt8) : Writing Unit := word 1 value.toNat

def uint16 (value : UInt16) : Writing Unit := word 2 value.toNat

def uint32 (value : UInt32) : Writing Unit := word 4 value.toNat

def uint64 (value : UInt64) : Writing Unit := word 8 value.toNat

def int8 (value : Int8) : Writing Unit := uint8 value.toUInt8

def int16 (value : Int16) : Writing Unit := uint16 value.toUInt16

def int32 (value : Int32) : Writing Unit := uint32 value.toUInt32

def int64 (value : Int64) : Writing Unit := uint64 value.toUInt64

def float (value : Number.Binary32) : Writing Unit := uint32 value.bits

def double (value : Number.Binary64) : Writing Unit := uint64 value.bits

/-- A truth value: one byte, 1 for true and 0 for false. -/
def bool (value : Bool) : Writing Unit := uint8 (if value then 1 else 0)

/-- Counts and lengths are below this bound. -/
def lengthBound : Nat := 0x100000000

/-- A count or a length: four bytes. -/
def length (count : Nat) : Writing Unit := fun writer =>
  if count < lengthBound then word 4 count writer
  else .error (.fault (.writeOverflow writer.offset count)) writer

/-- A text: the length of its bytes, then the bytes. -/
def text (value : String) : Writing Unit := do
  let data := Text.utf8 value
  length data.length
  bytes data

/-- The bytes cut or filled up with zeros to a length. -/
def fitted (data : List UInt8) (length : Nat) : List UInt8 :=
  data.take length ++ List.replicate (length - data.length) 0

theorem length_fitted (data : List UInt8) (length : Nat) :
    (fitted data length).length = length := by
  simp only [fitted, List.length_append, List.length_take, List.length_replicate]
  omega

/-- Bytes in a field of fixed length.  Whether they fit is decided before they are laid out. -/
def binary (data : List UInt8) (length : Nat) : Writing Unit := fun writer =>
  if (writer.ahead.take length).length < length then
    -- The end of a field that has room is an offset in the buffer: only here it may be too large.
    if writer.offset + length < UInt64.size then
      .error (.fault (.writeOverflow writer.offset length)) writer
    else .error .panic writer
  else bytes (fitted data length) writer

end Writer
end WireSchema
