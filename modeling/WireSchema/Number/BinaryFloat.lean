/-!
# Binary floating-point numbers

Numbers with a binary exponent are kept as the bit patterns of their interchange formats, so that
they travel unchanged and are compared by rules on bits.  A pattern is read exactly, as an integer
times a power of two, and a quotient of integers is rounded to the nearest pattern, a tie to the
even one.  No operation of the machine is involved.
-/

namespace WireSchema
namespace Number

/-- An interchange format: a sign bit, then the exponent, then the fraction. -/
structure FloatFormat where
  fractionBits : Nat
  exponentBits : Nat
  deriving DecidableEq, Repr

/-- What a bit pattern stands for.  A finite pattern is `significand * 2 ^ exponent`; it is
`atBinade` when the gap to the next smaller magnitude is half of the gap to the next larger. -/
inductive FloatClass where
  | nan
  | infinite (negative : Bool)
  | finite (negative : Bool) (significand : Nat) (exponent : Int) (atBinade : Bool)
  deriving DecidableEq, Repr

namespace FloatFormat

def single : FloatFormat := ⟨23, 8⟩

def double : FloatFormat := ⟨52, 11⟩

def bias (format : FloatFormat) : Nat := (1 <<< (format.exponentBits - 1)) - 1

/-- The exponent of the last fraction bit of the smallest numbers. -/
def leastExponent (format : FloatFormat) : Int :=
  1 - (format.bias : Int) - (format.fractionBits : Int)

/-- The exponent field of infinities and of what is no number. -/
def topExponent (format : FloatFormat) : Nat := (1 <<< format.exponentBits) - 1

/-- The pattern of positive infinity, above the patterns of all positive numbers. -/
def infinityBits (format : FloatFormat) : Nat := format.topExponent <<< format.fractionBits

def signBit (format : FloatFormat) : Nat := 1 <<< (format.fractionBits + format.exponentBits)

def classify (format : FloatFormat) (bits : Nat) : FloatClass :=
  let negative := decide (format.signBit ≤ bits)
  let exponent := (bits >>> format.fractionBits) % (1 <<< format.exponentBits)
  let fraction := bits % (1 <<< format.fractionBits)
  if exponent = format.topExponent then
    if fraction = 0 then .infinite negative else .nan
  else if exponent = 0 then .finite negative fraction format.leastExponent false
  else
    .finite negative ((1 <<< format.fractionBits) + fraction)
      (format.leastExponent + (exponent : Int) - 1) (fraction = 0 && exponent > 1)

/-- The quotient `numerator / (denominator * 2 ^ exponent)` as a pair of naturals. -/
def scaled (numerator denominator : Nat) (exponent : Int) : Nat × Nat :=
  match exponent with
  | .ofNat e => (numerator, denominator <<< e)
  | .negSucc e => (numerator <<< (e + 1), denominator)

/-- The exponent at which the quotient has one digit before the fraction bits. -/
def quotientExponent (format : FloatFormat) (numerator denominator : Nat) : Int :=
  let estimate : Int :=
    (Nat.log2 numerator : Int) - (Nat.log2 denominator : Int) - (format.fractionBits : Int) - 1
  let (n, d) := scaled numerator denominator estimate
  let exponent := if n < d <<< (format.fractionBits + 1) then estimate else estimate + 1
  max exponent format.leastExponent

/-- The integer nearest to a quotient, a tie to the even one. -/
def nearestEven (numerator denominator : Nat) : Nat :=
  let quotient := numerator / denominator
  let twice := 2 * (numerator % denominator)
  if twice > denominator || (twice = denominator && quotient % 2 = 1) then quotient + 1
  else quotient

/-- The pattern of the positive number nearest to a quotient; infinity beyond the largest. -/
def roundQuotient (format : FloatFormat) (numerator denominator : Nat) : Nat :=
  if numerator = 0 then 0
  else
    let exponent := format.quotientExponent numerator denominator
    let (n, d) := scaled numerator denominator exponent
    let steps := (exponent - format.leastExponent).toNat
    let bits := (steps <<< format.fractionBits) + nearestEven n d
    min bits format.infinityBits

end FloatFormat

/-- A single-precision number, by its bits. -/
structure Binary32 where
  bits : UInt32
  deriving DecidableEq, Repr

/-- A double-precision number, by its bits. -/
structure Binary64 where
  bits : UInt64
  deriving DecidableEq, Repr

/-- Numeric equality of two patterns: what is no number equals nothing, and the two zeros are
equal although their bits differ. -/
def FloatFormat.sameNumber (format : FloatFormat) (a b : Nat) : Bool :=
  match format.classify a, format.classify b with
  | .nan, _ => false
  | _, .nan => false
  | .finite _ 0 _ _, .finite _ 0 _ _ => true
  | _, _ => a == b

def Binary32.sameNumber (a b : Binary32) : Bool :=
  FloatFormat.single.sameNumber a.bits.toNat b.bits.toNat

def Binary64.sameNumber (a b : Binary64) : Bool :=
  FloatFormat.double.sameNumber a.bits.toNat b.bits.toNat

namespace Binary64

/-- Significand and exponent of a finite pattern, the sign left out. -/
def magnitude? (x : Binary64) : Option (Nat × Int) :=
  match FloatFormat.double.classify x.bits.toNat with
  | .finite _ significand exponent _ => some (significand, exponent)
  | _ => none

def ofQuotient (numerator denominator : Nat) : Binary64 :=
  ⟨UInt64.ofNat (FloatFormat.double.roundQuotient numerator denominator)⟩

def ofNat (n : Nat) : Binary64 := ofQuotient n 1

def isInfinite (x : Binary64) : Bool :=
  match FloatFormat.double.classify x.bits.toNat with
  | .infinite _ => true
  | _ => false

def isZero (x : Binary64) : Bool :=
  match FloatFormat.double.classify x.bits.toNat with
  | .finite _ 0 _ _ => true
  | _ => false

def neg (x : Binary64) : Binary64 := ⟨x.bits ^^^ 0x8000000000000000⟩

def mulMagnitudes (x y : Binary64) : Binary64 :=
  match x.magnitude?, y.magnitude? with
  | some (m, e), some (n, h) =>
    let (num, den) := FloatFormat.scaled (m * n) 1 (-(e + h))
    ofQuotient num den
  | _, _ => x

/-- The rounded quotient of two finite magnitudes, the second of them not zero. -/
def divMagnitudes (x y : Binary64) : Binary64 :=
  match x.magnitude?, y.magnitude? with
  | some (m, e), some (n, h) =>
    let (num, den) := FloatFormat.scaled m n (h - e)
    ofQuotient num den
  | _, _ => x

example : ofNat 1 = ⟨0x3ff0000000000000⟩ := by decide +kernel

example : ofQuotient 1 3 = ⟨0x3fd5555555555555⟩ := by decide +kernel

example : divMagnitudes (ofNat 1) (ofNat 10) = ⟨0x3fb999999999999a⟩ := by decide +kernel

end Binary64
end Number
end WireSchema
