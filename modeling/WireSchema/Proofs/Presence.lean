import Mathlib.Data.List.GetD
import WireSchema.Codec.Encoding
import WireSchema.Proofs.Scalars

/-!
# Presence bits

Bits that were appended one by one are found again at their places, and every other bit is clear.
The bytes are as many as a layout reserves for them.
-/

namespace WireSchema
namespace FlagBits

/-- The bit of a number in a list of bytes; beyond the bytes all bits are clear. -/
def bitAt (bytes : List UInt8) (number : Nat) : Bool :=
  match bytes[number / 8]? with
  | some byte => byte.toNat.testBit (number % 8)
  | none => false

theorem testBit_bitMask {bit place : Nat} (hbit : bit < 8) (hplace : place < 8) :
    (bitMask bit).toNat.testBit place = decide (place = bit) := by
  have hall : ∀ bit < 8, ∀ place < 8,
      (bitMask bit).toNat.testBit place = decide (place = bit) := by decide
  exact hall bit hbit place hplace

theorem bitAt_append_zero (bytes : List UInt8) (number : Nat) :
    bitAt (bytes ++ [0]) number = bitAt bytes number := by
  unfold bitAt
  rcases Nat.lt_trichotomy (number / 8) bytes.length with hinside | hend | hbeyond
  · rw [List.getElem?_append_left hinside]
  · have hnone : bytes[number / 8]? = none := List.getElem?_eq_none (Nat.le_of_eq hend.symm)
    rw [hnone, hend, List.getElem?_concat_length]
    simp
  · have hnone : bytes[number / 8]? = none := List.getElem?_eq_none (Nat.le_of_lt hbeyond)
    have hnone' : (bytes ++ [0])[number / 8]? = none := by
      apply List.getElem?_eq_none
      rw [List.length_append, List.length_singleton]
      exact hbeyond
    rw [hnone, hnone']

theorem bitAt_modify {bytes : List UInt8} {position : Nat} (number : Nat)
    (hinside : position / 8 < bytes.length) :
    bitAt (bytes.modify (position / 8) (· ||| bitMask (position % 8))) number =
      (bitAt bytes number || decide (number = position)) := by
  unfold bitAt
  rw [List.getElem?_modify]
  by_cases hsame : position / 8 = number / 8
  · have hsome : bytes[number / 8]? = some (bytes.get ⟨number / 8, hsame ▸ hinside⟩) :=
      List.getElem?_eq_getElem _
    have hplace : decide (number % 8 = position % 8) = decide (number = position) := by
      apply decide_eq_decide.mpr
      omega
    have hmask := testBit_bitMask (Nat.mod_lt position (by decide : 0 < 8))
      (Nat.mod_lt number (by decide : 0 < 8))
    simp only [hsame, if_true, hsome, Option.map_eq_map, Option.map_some, UInt8.toNat_or,
      Nat.testBit_or, hmask, hplace]
  · have hne : decide (number = position) = false := by
      apply decide_eq_false
      rintro rfl
      exact hsame rfl
    simp only [hsame, if_false, hne, Bool.or_false]
    cases bytes[number / 8]? <;> rfl

/-- The state after some bits were appended to the empty one. -/
structure Carries (flags : FlagBits) (bits : List Bool) : Prop where
  position_eq : flags.position = bits.length
  length_eq : flags.bytes.length = flagBytes bits.length
  bit_eq : ∀ number, bitAt flags.bytes number = bits.getD number false

theorem carries_empty : Carries empty [] := ⟨rfl, rfl, fun _ => rfl⟩

/-- The bytes with room for one more bit. -/
def grown (flags : FlagBits) : List UInt8 :=
  if flags.index < flags.bytes.length then flags.bytes else flags.bytes ++ [0]

theorem Carries.length_grown {flags : FlagBits} {bits : List Bool} (hcarries : flags.Carries bits) :
    flags.grown.length = flagBytes (bits.length + 1) := by
  have hlength := hcarries.length_eq
  simp only [grown, index, hcarries.position_eq]
  simp only [flagBytes] at hlength ⊢
  split
  · omega
  · rw [List.length_append, List.length_singleton]
    omega

theorem bitAt_grown (flags : FlagBits) (number : Nat) :
    bitAt flags.grown number = bitAt flags.bytes number := by
  unfold grown
  split
  · rfl
  · exact bitAt_append_zero flags.bytes number

theorem getD_concat (bits : List Bool) (bit : Bool) (number : Nat) :
    (bits ++ [bit]).getD number false =
      (bits.getD number false || (bit && decide (number = bits.length))) := by
  rcases Nat.lt_trichotomy number bits.length with hinside | rfl | hbeyond
  · rw [List.getD_append _ _ _ _ hinside, decide_eq_false (Nat.ne_of_lt hinside), Bool.and_false,
      Bool.or_false]
  · simp
  · rw [decide_eq_false (Nat.ne_of_gt hbeyond), Bool.and_false, Bool.or_false,
      List.getD_eq_default _ _ (Nat.le_of_lt hbeyond), List.getD_eq_default]
    rw [List.length_append, List.length_singleton]
    exact hbeyond

theorem Carries.append {flags : FlagBits} {bits : List Bool} (hcarries : flags.Carries bits)
    (bit : Bool) : (flags.append bit).Carries (bits ++ [bit]) := by
  have hposition := hcarries.position_eq
  have hgrown := hcarries.length_grown
  have hinside : flags.position / 8 < flags.grown.length := by
    rw [hgrown, hposition, flagBytes]
    omega
  cases bit with
  | false =>
      refine ⟨?_, ?_, ?_⟩
      · simp [FlagBits.append, hposition]
      · simpa [FlagBits.append, grown] using hgrown
      · intro number
        rw [getD_concat, Bool.false_and, Bool.or_false, ← hcarries.bit_eq]
        exact flags.bitAt_grown number
  | true =>
      refine ⟨?_, ?_, ?_⟩
      · simp [FlagBits.append, hposition]
      · simpa [FlagBits.append, grown] using hgrown
      · intro number
        rw [getD_concat, Bool.true_and, ← hcarries.bit_eq, ← hposition, ← flags.bitAt_grown,
          ← bitAt_modify number hinside]
        rfl

theorem carries_foldl {flags : FlagBits} {bits : List Bool} (hcarries : flags.Carries bits)
    (more : List Bool) : (more.foldl FlagBits.append flags).Carries (bits ++ more) := by
  induction more generalizing flags bits with
  | nil => simpa using hcarries
  | cons bit rest ih =>
      rw [List.foldl_cons, List.append_cons]
      exact ih (hcarries.append bit)

theorem carries_ofBits (bits : List Bool) : (ofBits bits).Carries bits :=
  carries_foldl carries_empty bits

theorem length_bytes_ofBits (bits : List Bool) :
    (ofBits bits).bytes.length = flagBytes bits.length :=
  (carries_ofBits bits).length_eq

/-! ## Taking the bits again -/

/-- The bits that are taken next. -/
def Offers : FlagBits → List Bool → Prop
  | _, [] => True
  | flags, bit :: rest => flags.next.1 = bit ∧ Offers flags.next.2 rest

theorem offers_of_bitAt {bytes : List UInt8} (position : Nat) (bits : List Bool)
    (hbits : ∀ number < bits.length,
      bitAt bytes (position + number) = bits.getD number false) :
    Offers ⟨bytes, position⟩ bits := by
  induction bits generalizing position with
  | nil => trivial
  | cons bit rest ih =>
      refine ⟨hbits 0 (Nat.succ_pos _), ih (position + 1) ?_⟩
      intro number hnumber
      have hnext := hbits (number + 1) (Nat.succ_lt_succ hnumber)
      rw [List.getD_cons_succ] at hnext
      rw [Nat.add_assoc, Nat.add_comm 1 number]
      exact hnext

/-- Bits that were appended are taken in the same order. -/
theorem offers_ofBits (bits : List Bool) : Offers ⟨(ofBits bits).bytes, 0⟩ bits := by
  apply offers_of_bitAt
  intro number _
  rw [Nat.zero_add]
  exact (carries_ofBits bits).bit_eq number

theorem recovers_read (bits : List Bool) :
    Reading.Recovers (FlagBits.read (flagBytes bits.length)) (ofBits bits).bytes
      ⟨(ofBits bits).bytes, 0⟩ := by
  have hread :=
    (Reading.recovers_bytes (ofBits bits).bytes).bind_pure fun bytes => FlagBits.mk bytes 0
  rw [length_bytes_ofBits] at hread
  exact hread

theorem yields_read (count : Nat) :
    Reading.Yields (FlagBits.read count) fun _ taken => taken = count := by
  refine (Reading.yields_bytes count).bind ?_
  rintro bytes taken ⟨-, rfl⟩
  exact Reading.yields_pure rfl

theorem streams_read (count : Nat) : Reading.Streams (FlagBits.read count) :=
  (Reading.streams_bytes count).bind fun _ => Reading.streams_pure _

end FlagBits
end WireSchema
