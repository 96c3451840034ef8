import Mathlib.Algebra.Order.Floor.Div
import WireSchema.Proofs.FlagUse
import WireSchema.Proofs.Items

/-!
# Blocks of presence bits

Presence bits are appended to an empty list, written as a block of bytes and taken from that block
again.  Every bit that is appended finds its place, and the block is as long as a layout reserves
for the bits.  Whoever takes bits from the block finds them in their order, and clear ones after
them, however many are taken.
-/

namespace WireSchema
namespace FlagBits

/-- The bytes of some bits.  Eight bits share a byte, the first of them being the least significant
one, and the bits of the last byte that are left over are clear. -/
structure Packs (bits : List Bool) (bytes : List UInt8) : Prop where
  length_eq : bytes.length = flagBytes bits.length
  bit_eq : ∀ number (hnumber : number < bits.length), ∃ byte, bytes[number / 8]? = some byte ∧
    byte.toNat.testBit (number % 8) = bits[number]
  padding_eq : ∀ number, bits.length ≤ number → ∀ byte, bytes[number / 8]? = some byte →
    byte.toNat.testBit (number % 8) = false

theorem flagBytes_eq_ceilDiv (count : Nat) : flagBytes count = count ⌈/⌉ 8 := by
  rw [Nat.ceilDiv_eq_add_pred_div]
  rfl

namespace Carries

variable {flags : FlagBits} {bits : List Bool} (hcarries : flags.Carries bits)

include hcarries

theorem push_eq (bit : Bool) : flags.push bit = some (flags.append bit) := by
  apply push_of_le
  rw [index, hcarries.position_eq, hcarries.length_eq, flagBytes]
  omega

theorem packs : Packs bits flags.bytes where
  length_eq := hcarries.length_eq
  bit_eq number hnumber := by
    have hinside : number / 8 < flags.bytes.length := by
      rw [hcarries.length_eq, flagBytes]
      omega
    have hbit := hcarries.bit_eq number
    rw [bitAt, List.getElem?_eq_getElem hinside, List.getD_eq_getElem _ _ hnumber] at hbit
    exact ⟨_, List.getElem?_eq_getElem hinside, hbit⟩
  padding_eq number hbeyond byte hbyte := by
    have hbit := hcarries.bit_eq number
    rw [bitAt, hbyte, List.getD_eq_default _ _ hbeyond] at hbit
    exact hbit

end Carries

/-- Bits that are appended one by one all find their places. -/
theorem foldlM_push {flags : FlagBits} {bits : List Bool} (hcarries : flags.Carries bits)
    (more : List Bool) : more.foldlM push flags = some (more.foldl append flags) := by
  induction more generalizing flags bits with
  | nil => rfl
  | cons bit rest ih =>
      rw [List.foldlM_cons, hcarries.push_eq, List.foldl_cons]
      exact ih (hcarries.append bit)

theorem getD_append_clear (bits : List Bool) (count number : Nat) :
    (bits ++ List.replicate count false).getD number false = bits.getD number false := by
  rcases Nat.lt_or_ge number bits.length with hinside | hbeyond
  · exact List.getD_append _ _ _ _ hinside
  · rw [List.getD_append_right _ _ _ _ hbeyond, List.getD_eq_default _ _ hbeyond,
      List.getD_eq_getElem?_getD, List.getElem?_getD_replicate_default_eq]

/-- After all bits that were appended, clear ones are taken without end. -/
theorem offers_followed (bits : List Bool) (count : Nat) :
    Offers ⟨(ofBits bits).bytes, 0⟩ (bits ++ List.replicate count false) := by
  apply offers_of_bitAt
  intro number _
  rw [Nat.zero_add, getD_append_clear]
  exact (carries_ofBits bits).bit_eq number

/-- A block is read back where it was written. -/
theorem read_written_block (bits : List Bool) (writer : Writer) :
    FlagBits.read (flagBytes bits.length)
        (Reader.within (writer.advance (ofBits bits).bytes).buffer writer.offset) =
      .ok ⟨(ofBits bits).bytes, 0⟩
        (Reader.within (writer.advance (ofBits bits).bytes).buffer
          (writer.advance (ofBits bits).bytes).offset) := by
  have hread := recovers_read bits writer.offset (writer.advance (ofBits bits).bytes).ahead
  rw [Reader.within, Reader.within, ← Writer.ahead_eq, Writer.drop_buffer_advance, hread,
    Writer.offset_advance]

/-- Bits that are appended to nothing make a block with one byte for every eight of them, a part
of eight included.  Written where there is room for it and read again, the block gives the bits in
their order, and clear ones whenever more are taken. -/
theorem block_of_pushed (bits : List Bool) :
    bits.foldlM push empty = some (ofBits bits) ∧ (ofBits bits).position = bits.length ∧
      Packs bits (ofBits bits).bytes ∧ flagBytes bits.length = bits.length ⌈/⌉ 8 ∧
      ∀ writer : Writer, flagBytes bits.length ≤ writer.remaining →
        ∃ left, (ofBits bits).write writer = .ok () left ∧
          left.offset = writer.offset + flagBytes bits.length ∧
          ∃ back, FlagBits.read (flagBytes bits.length)
                (Reader.within left.buffer writer.offset) =
              .ok back (Reader.within left.buffer left.offset) ∧
            ∀ count, back.Offers (bits ++ List.replicate count false) := by
  have hcarries := carries_ofBits bits
  refine ⟨foldlM_push carries_empty bits, hcarries.position_eq, hcarries.packs,
    flagBytes_eq_ceilDiv _, ?_⟩
  intro writer hroom
  rw [← hcarries.length_eq] at hroom
  refine ⟨writer.advance (ofBits bits).bytes, ?_, ?_, _, read_written_block bits writer,
    offers_followed bits⟩
  · rw [write, Writer.bytes_eq, if_neg (Nat.not_lt.mpr hroom)]
  · rw [Writer.offset_advance, hcarries.length_eq]

end FlagBits

namespace Sample

open FlagBits

/-- Nine bits, one more than a byte has. -/
def nineBits : List Bool := [true, false, true, false, false, false, false, false, true]

/-- The nine bits take two bytes amid others.  All bits beyond the two bytes are clear, though the
byte behind the block has none that is. -/
theorem block_nineBits :
    flagBytes nineBits.length ≤ (Writer.mk [0xee] [0xff, 0xff, 0xff]).remaining ∧
      (ofBits nineBits).bytes = [0b101, 0b1] ∧
      ∃ left back, (ofBits nineBits).write ⟨[0xee], [0xff, 0xff, 0xff]⟩ = .ok () left ∧
        left.offset = 3 ∧ left.buffer = [0xee, 0b101, 0b1, 0xff] ∧
        FlagBits.read 2 (Reader.within left.buffer 1) = .ok back (Reader.within left.buffer 3) ∧
          back.Offers (nineBits ++ List.replicate 20 false) := by
  have hroom : flagBytes nineBits.length ≤ (Writer.mk [0xee] [0xff, 0xff, 0xff]).remaining := by
    decide
  obtain ⟨-, -, -, -, hblock⟩ := block_of_pushed nineBits
  obtain ⟨left, hwrite, hoffset, back, hread, hoffers⟩ := hblock _ hroom
  have hleft : (ofBits nineBits).write ⟨[0xee], [0xff, 0xff, 0xff]⟩ =
      .ok () ⟨[0b1, 0b101, 0xee], [0xff]⟩ := rfl
  cases hleft.symm.trans hwrite
  exact ⟨hroom, by decide, _, back, hwrite, rfl, rfl, hread, hoffers 20⟩

end Sample
end WireSchema
