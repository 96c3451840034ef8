/-!
# Layouts

The parts of an encoding whose width does not depend on the values: a header for payloads, a kind
tag for polymorphic objects, the presence flags, and the required fields of fixed width.

Sizes are 64-bit numbers, and so are their sums: a sum that needs more bits loses those above, as
it does in a build that does not check for overflow.
-/

namespace WireSchema

/-- Command id and transaction id, four bytes each. -/
def headerSize : Nat := 8

def kindTagSize : Nat := 4

/-- Bytes needed for one presence bit per optional field. -/
def flagBytes (optionalFields : Nat) : Nat := (optionalFields + 7) / 8

structure Layout where
  optionalFields : Nat
  flagBytes : Nat
  staticFields : UInt64
  hasHeader : Bool
  hasKindTag : Bool
  deriving DecidableEq, Repr, Inhabited

namespace Layout

/-- The layout with the given number of optional fields and total width of the required fields of
fixed width. -/
def of (optionalFields : Nat) (staticFields : UInt64) (hasHeader hasKindTag : Bool) : Layout :=
  ⟨optionalFields, WireSchema.flagBytes optionalFields, staticFields, hasHeader, hasKindTag⟩

/-- The size of an encoding without any value of variable width. -/
def minSize (layout : Layout) : UInt64 :=
  .ofNat layout.flagBytes + layout.staticFields +
    (if layout.hasHeader then .ofNat headerSize else 0) +
    (if layout.hasKindTag then .ofNat kindTagSize else 0)

end Layout
end WireSchema
