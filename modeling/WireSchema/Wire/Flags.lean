import WireSchema.Schema.Layout
import WireSchema.Wire.Reader
import WireSchema.Wire.Writer

/-!
# Presence bits

Which optional fields of an object have a value is written as one bit per field, in the order of
the fields, the least significant bit of a byte first.  Bits are appended at a position and read
from a position, and both move it on.
-/

namespace WireSchema

structure FlagBits where
  bytes : List UInt8
  position : Nat
  deriving DecidableEq, Repr, Inhabited

namespace FlagBits

def empty : FlagBits := ⟨[], 0⟩

/-- A byte with one bit, by its number. -/
def bitMask (bit : Nat) : UInt8 := UInt8.ofNat (1 <<< bit)

def index (flags : FlagBits) : Nat := flags.position / 8

/-- Appends a bit at the position.  The bytes grow by one when the position is at their end. -/
def append (flags : FlagBits) (bit : Bool) : FlagBits :=
  let bytes := if flags.index < flags.bytes.length then flags.bytes else flags.bytes ++ [0]
  { bytes := if bit then bytes.modify flags.index (· ||| bitMask (flags.position % 8)) else bytes
    position := flags.position + 1 }

/-- Whether the bytes would still end before the position after growing by one, so that no bit
can be set there.  This takes reading bits beyond the bytes first. -/
def isDetached (flags : FlagBits) : Bool := flags.bytes.length < flags.index

/-- Appends a bit, if it finds its place. -/
def push (flags : FlagBits) (bit : Bool) : Option FlagBits :=
  if flags.isDetached && bit then none else some (flags.append bit)

/-- The bits of a list, appended one by one. -/
def ofBits (bits : List Bool) : FlagBits := bits.foldl append empty

/-- Takes the bit at the position; beyond the bytes all bits are clear. -/
def next (flags : FlagBits) : Bool × FlagBits :=
  let bit :=
    match flags.bytes[flags.index]? with
    | some byte => byte.toNat.testBit (flags.position % 8)
    | none => false
  (bit, { flags with position := flags.position + 1 })

/-- Reads a number of bytes and stands before their first bit. -/
def read (count : Nat) : Reading FlagBits := do return ⟨← Reader.bytes count, 0⟩

def write (flags : FlagBits) : Writing Unit := Writer.bytes flags.bytes

example : (ofBits [true, false, true, false, false, false, false, false, true]).bytes = [5, 1] := by
  decide

end FlagBits
end WireSchema
