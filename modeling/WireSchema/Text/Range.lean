/-!
# Ranges of code points

Character properties that reach beyond the first 128 characters are given by tables of closed
ranges.  A table lists its ranges in ascending order and no two of them touch.
-/

namespace WireSchema
namespace Text

/-- The code points from `first` to `last`, both included. -/
abbrev Range := Nat × Nat

/-- Whether a code point lies in one of the ranges of an ascending table. -/
def inRanges (point : Nat) : List Range → Bool
  | [] => false
  | (first, last) :: rest =>
    if point < first then false else point ≤ last || inRanges point rest

end Text
end WireSchema
