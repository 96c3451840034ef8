import WireSchema.Text.Units

/-!
# Hashes of names

Wire ids and kind tags are 30-bit hashes of names.  The hash mixes the UTF-16 units of the name
one at a time, adds a final mix, keeps 30 bits, and is never zero: zero is the tag of an
inheritance root.
-/

namespace WireSchema
namespace Naming

/-- Mixes one code unit into a running hash. -/
def mixUnit (hash : UInt32) (unit : UInt16) : UInt32 :=
  let added := hash + unit.toUInt32
  let spread := added + (added <<< 10)
  spread ^^^ (spread >>> 6)

def settle (hash : UInt32) : UInt32 :=
  let spread := hash + (hash <<< 3)
  let folded := spread ^^^ (spread >>> 11)
  folded + (folded <<< 15)

def hashMask : UInt32 := 0x3fffffff

def hashUnits (units : List UInt16) : UInt32 :=
  let hash := settle (units.foldl mixUnit 0) &&& hashMask
  if hash = 0 then 1 else hash

/-- The 30-bit hash of a name, never zero. -/
def wireHash (name : String) : UInt32 := hashUnits (Text.units name)

theorem wireHash_ne_zero (name : String) : wireHash name ≠ 0 := by
  unfold wireHash hashUnits
  dsimp only
  split
  · decide
  next hnonzero => exact hnonzero

example : wireHash "" = 1 := by decide +kernel

example : wireHash "compiler-testSendInfoMessage" = 511521838 := by decide +kernel

end Naming
end WireSchema
