import WireSchema.Json.Value

/-!
# Reading JSON numbers

The digits of a number are gathered into a 64-bit significand and a decimal exponent.  An integer
that fits 64 bits stays one, and anything else becomes the significand, rounded, times or divided
by a rounded power of ten; so the result may differ from the nearest number in its last bit.
Digits for which the significand has no room count in the exponent if they stand before the point
and are dropped if they stand after it.  A number too large is no JSON number, and one too small
is zero.
-/

namespace WireSchema
namespace Json

open Number (Binary64)

def digitValue? (c : Char) : Option Nat :=
  if '0' ≤ c && c ≤ '9' then some (c.toNat - '0'.toNat) else none

/-- The leading digits of a text, and what follows them. -/
def spanDigits (chars : List Char) : List Nat × List Char :=
  match chars with
  | [] => ([], [])
  | c :: rest =>
    match digitValue? c with
    | some d =>
      let (digits, after) := spanDigits rest
      (d :: digits, after)
    | none => ([], c :: rest)

def significandBound : Nat := 0x10000000000000000

/-- A significand and the decimal exponent of its last digit. -/
structure Gathered where
  significand : Nat
  exponent : Int
  deriving DecidableEq, Repr

/-- Gathers the digits before the point.  The flag tells whether all of them had room. -/
def gatherWhole (significand : Nat) : List Nat → Gathered × Bool
  | [] => (⟨significand, 0⟩, true)
  | d :: rest =>
    if significand * 10 + d < significandBound then gatherWhole (significand * 10 + d) rest
    else (⟨significand, rest.length + 1⟩, false)

/-- Gathers the digits after the point, until the significand has no room. -/
def gatherFraction (sofar : Gathered) : List Nat → Gathered
  | [] => sofar
  | d :: rest =>
    if sofar.significand * 10 + d < significandBound then
      gatherFraction ⟨sofar.significand * 10 + d, sofar.exponent - 1⟩ rest
    else sofar

/-- The largest exponent whose power of ten is a number. -/
def largestPower : Nat := 308

def powerOfTen (exponent : Nat) : Binary64 := Binary64.ofNat (Nat.pow 10 exponent)

/-- A number times a power of ten, in steps that stay within the powers there are; `none` when
the result is too large. -/
def scaleByTen : Nat → Binary64 → Int → Option Binary64
  | 0, x, _ => some x
  | steps + 1, x, exponent =>
    if exponent.natAbs ≤ largestPower then
      let power := powerOfTen exponent.natAbs
      if 0 ≤ exponent then
        let product := x.mulMagnitudes power
        if product.isInfinite then none else some product
      else some (x.divMagnitudes power)
    else if x.isZero then some x
    else if 0 ≤ exponent then none
    else scaleByTen steps (x.divMagnitudes (powerOfTen largestPower)) (exponent + largestPower)

/-- Three divisions by the largest power make any significand zero. -/
def realOf (negative : Bool) (gathered : Gathered) : Option JsonNumber :=
  (scaleByTen 4 (Binary64.ofNat gathered.significand) gathered.exponent).map fun x =>
    .real (if negative then x.neg else x)

def largestExponent : Nat := 0x7fffffff

/-- An exponent written in a number; beyond 32 bits only its sign counts. -/
def exponentOf (digits : List Nat) : Option Nat :=
  let value := digits.foldl (fun n d => n * 10 + d) 0
  if value ≤ largestExponent then some value else none

/-- Reads the exponent after its letter, if there is one, and finishes the number. -/
def finishReal (negative : Bool) (gathered : Gathered) (chars : List Char) :
    Option (JsonNumber × List Char) :=
  match chars with
  | c :: rest =>
    if c = 'e' || c = 'E' then
      let (below, unsigned) : Bool × List Char :=
        match rest with
        | '+' :: more => (false, more)
        | '-' :: more => (true, more)
        | more => (false, more)
      let (digits, after) := spanDigits unsigned
      if digits.isEmpty then none
      else
        match exponentOf digits with
        | some value =>
          let shift : Int := if below then -(value : Int) else value
          (realOf negative ⟨gathered.significand, gathered.exponent + shift⟩).map (·, after)
        | none =>
          if gathered.significand ≠ 0 && !below then none
          else (realOf negative ⟨0, 0⟩).map (·, after)
    else (realOf negative gathered).map (·, chars)
  | [] => (realOf negative gathered).map (·, [])

def leastInteger : Int := -0x8000000000000000

/-- The number without fraction and exponent: an integer, except for a negative zero and for what
does not fit. -/
def wholeNumber (negative : Bool) (gathered : Gathered) (complete : Bool) : Option JsonNumber :=
  if !complete then realOf negative gathered
  else if !negative then some (.integer gathered.significand)
  else if gathered.significand = 0 || -(gathered.significand : Int) < leastInteger then
    realOf true gathered
  else some (.integer (-(gathered.significand : Int)))

/-- Reads a number, its sign already read.  A leading zero stands alone. -/
def readUnsigned (negative : Bool) (chars : List Char) : Option (JsonNumber × List Char) :=
  let (whole, after) := spanDigits chars
  match whole with
  | [] => none
  | first :: more =>
    if first = 0 && !more.isEmpty then none
    else
      let (gathered, complete) := gatherWhole 0 whole
      match after with
      | '.' :: rest =>
        let (fraction, next) := spanDigits rest
        if fraction.isEmpty then none
        else finishReal negative (gatherFraction gathered fraction) next
      | c :: _ =>
        if c = 'e' || c = 'E' then finishReal negative gathered after
        else (wholeNumber negative gathered complete).map (·, after)
      | [] => (wholeNumber negative gathered complete).map (·, [])

def readNumber (chars : List Char) : Option (JsonNumber × List Char) :=
  match chars with
  | '-' :: rest => readUnsigned true rest
  | _ => readUnsigned false chars

end Json
end WireSchema
