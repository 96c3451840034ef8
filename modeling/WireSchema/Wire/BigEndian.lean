/-!
# Big-endian numbers

Numbers of a fixed width travel with their most significant byte first.  A list of bytes of the
width and a number below the capacity of the width determine each other.
-/

namespace WireSchema
namespace Wire

/-- How many numbers there are of a width, given in bytes: all below this one. -/
def capacity : (width : Nat) → Nat
  | 0 => 1
  | width + 1 => 256 * capacity width

/-- The bytes of a number, most significant first; what exceeds the width is dropped. -/
def bigEndian : (width : Nat) → Nat → List UInt8
  | 0, _ => []
  | width + 1, n => UInt8.ofNat (n / capacity width) :: bigEndian width n

/-- Appends bytes to a number that stands before them. -/
def extendBigEndian (high : Nat) : List UInt8 → Nat
  | [] => high
  | byte :: rest => extendBigEndian (high * 256 + byte.toNat) rest

def ofBigEndian (bytes : List UInt8) : Nat := extendBigEndian 0 bytes

@[simp] theorem length_bigEndian (width n : Nat) : (bigEndian width n).length = width := by
  induction width with
  | zero => rfl
  | succ width ih => simp [bigEndian, ih]

theorem extendBigEndian_eq (high : Nat) (bytes : List UInt8) :
    extendBigEndian high bytes = high * capacity bytes.length + ofBigEndian bytes := by
  induction bytes generalizing high with
  | nil => simp [ofBigEndian, extendBigEndian, capacity]
  | cons byte rest ih =>
    have tail := ih (0 * 256 + byte.toNat)
    rw [ofBigEndian, extendBigEndian, extendBigEndian, ih, tail, List.length_cons, capacity]
    simp only [Nat.add_mul, Nat.zero_mul, Nat.zero_add, Nat.mul_assoc, Nat.add_assoc]

theorem ofBigEndian_cons (byte : UInt8) (rest : List UInt8) :
    ofBigEndian (byte :: rest) = byte.toNat * capacity rest.length + ofBigEndian rest := by
  rw [ofBigEndian, extendBigEndian, extendBigEndian_eq]
  simp

theorem ofBigEndian_bigEndian_mod (width n : Nat) :
    ofBigEndian (bigEndian width n) = n % capacity width := by
  induction width with
  | zero => simp [bigEndian, ofBigEndian, extendBigEndian, capacity, Nat.mod_one]
  | succ width ih =>
    rw [bigEndian, ofBigEndian_cons, ih, length_bigEndian, capacity, Nat.mul_comm 256,
      Nat.mod_mul, UInt8.toNat_ofNat']
    rw [Nat.add_comm, Nat.mul_comm]

/-- A number below the capacity of the width is read back from its bytes. -/
theorem ofBigEndian_bigEndian {width n : Nat} (fits : n < capacity width) :
    ofBigEndian (bigEndian width n) = n := by
  rw [ofBigEndian_bigEndian_mod, Nat.mod_eq_of_lt fits]

theorem ofBigEndian_lt (bytes : List UInt8) : ofBigEndian bytes < capacity bytes.length := by
  induction bytes with
  | nil => simp [ofBigEndian, extendBigEndian, capacity]
  | cons byte rest ih =>
    rw [ofBigEndian_cons, List.length_cons, capacity]
    have small : byte.toNat + 1 ≤ 256 := byte.toNat_lt
    have scaled := Nat.mul_le_mul_right (capacity rest.length) small
    rw [Nat.add_mul] at scaled
    omega

end Wire
end WireSchema
