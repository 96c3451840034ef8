import WireSchema.Number.BinaryFloat

/-!
# Shortest decimals

The decimal text of a binary number has the fewest digits that still read back as the same
number, and among those it is the nearest.  The reals that round to a number form an interval
around it.  Decimal grids are tried from the coarsest to the finest; on each grid only the two
neighbours of the number can be the nearest point inside the interval, and the first grid with a
point inside decides.
-/

namespace WireSchema
namespace Number

/-- The decimal `digits * 10 ^ exponent`. -/
structure Decimal where
  digits : Nat
  exponent : Int
  deriving DecidableEq, Repr

/-- Which of two equally near decimals is taken. -/
inductive Tie where
  | up
  | even
  deriving DecidableEq, Repr

/-- The interval of reals that round to a number, and the number itself, over a common
denominator.  The ends belong to the interval when `closed` holds. -/
structure RoundingInterval where
  low : Nat
  value : Nat
  high : Nat
  denominator : Nat
  closed : Bool

namespace RoundingInterval

/-- The interval of `significand * 2 ^ exponent`: half a gap up, and half a gap down or a quarter
where the gap below is half as wide. -/
def ofFinite (significand : Nat) (exponent : Int) (atBinade : Bool) : RoundingInterval :=
  let (factor, denominator) := FloatFormat.scaled 1 1 (2 - exponent)
  { low := (4 * significand - (if atBinade then 1 else 2)) * factor
    value := 4 * significand * factor
    high := (4 * significand + 2) * factor
    denominator := denominator
    closed := significand % 2 = 0 }

/-- Whether `candidate * 10 ^ exponent` lies in the interval. -/
def contains (interval : RoundingInterval) (candidate : Nat) (exponent : Int) : Bool :=
  let (point, unit) : Nat × Nat :=
    match exponent with
    | .ofNat e => (candidate * Nat.pow 10 e * interval.denominator, 1)
    | .negSucc e => (candidate * interval.denominator, Nat.pow 10 (e + 1))
  if interval.closed then interval.low * unit ≤ point && point ≤ interval.high * unit
  else interval.low * unit < point && point < interval.high * unit

/-- The number divided by `10 ^ exponent`, as quotient, remainder and divisor. -/
def gridQuotient (interval : RoundingInterval) (exponent : Int) : Nat × Nat × Nat :=
  let (n, d) : Nat × Nat :=
    match exponent with
    | .ofNat e => (interval.value, interval.denominator * Nat.pow 10 e)
    | .negSucc e => (interval.value * Nat.pow 10 (e + 1), interval.denominator)
  (n / d, n % d, d)

/-- The nearer neighbour of the number on the grid of `10 ^ exponent` that lies in the
interval. -/
def onGrid? (interval : RoundingInterval) (tie : Tie) (exponent : Int) : Option Nat :=
  let (below, rest, unit) := interval.gridQuotient exponent
  match interval.contains below exponent, interval.contains (below + 1) exponent with
  | false, false => none
  | true, false => some below
  | false, true => some (below + 1)
  | true, true =>
    if 2 * rest < unit then some below
    else if 2 * rest > unit then some (below + 1)
    else
      match tie with
      | .up => some (below + 1)
      | .even => some (if below % 2 = 0 then below else below + 1)

/-- The first grid with a point in the interval, from `10 ^ exponent` downwards. -/
def search (interval : RoundingInterval) (tie : Tie) : Nat → Int → Decimal
  | 0, exponent => ⟨0, exponent⟩
  | grids + 1, exponent =>
    match interval.onGrid? tie exponent with
    | some digits => ⟨digits, exponent⟩
    | none => interval.search tie grids (exponent - 1)

/-- The shortest decimal in the interval.  The search begins above the whole interval, and a grid
finer than the interval is wide has a point inside. -/
def shortest (interval : RoundingInterval) (tie : Tie) : Decimal :=
  let start := Nat.log2 (interval.high / interval.denominator) / 3 + 1
  interval.search tie (start + Nat.log2 interval.denominator + 8) start

end RoundingInterval
end Number
end WireSchema
