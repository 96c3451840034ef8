import WireSchema.Time.Calendar

/-!
# Instants

An instant is a number of seconds since the beginning of 1970 and a number of nanoseconds past
it, in the years that dates cover.  On the wire it is a number of milliseconds; as text it is
written with as many digits of the second as it needs, in groups of three.
-/

namespace WireSchema
namespace Time

def secondsPerDay : Int := 86400

def leastYear : Int := -262143

def lastYear : Int := 262142

def leastSecond : Int := yearStart leastYear * secondsPerDay

/-- The first second after the last year. -/
def secondBound : Int := yearStart (lastYear + 1) * secondsPerDay

structure Instant where
  seconds : Int
  nanos : Nat
  leastSecond_le : leastSecond ≤ seconds
  lt_secondBound : seconds < secondBound
  nanos_lt : nanos < 1000000000
  deriving DecidableEq

namespace Instant

def of? (seconds : Int) (nanos : Nat) : Option Instant :=
  if lower : leastSecond ≤ seconds then
    if upper : seconds < secondBound then
      if fraction : nanos < 1000000000 then some ⟨seconds, nanos, lower, upper, fraction⟩
      else none
    else none
  else none

def epoch : Instant := ⟨0, 0, by decide +kernel, by decide +kernel, by decide⟩

instance : Inhabited Instant := ⟨epoch⟩

/-- Milliseconds since the beginning of 1970, what is left of a millisecond dropped. -/
def millis (t : Instant) : Int := t.seconds * 1000 + (t.nanos / 1000000 : Nat)

def ofMillis? (millis : Int) : Option Instant :=
  of? (millis / 1000) ((millis % 1000).toNat * 1000000)

/-- The instant at the beginning of its millisecond. -/
def truncated (t : Instant) : Instant :=
  { t with
    nanos := t.nanos - t.nanos % 1000000
    nanos_lt := Nat.lt_of_le_of_lt (Nat.sub_le _ _) t.nanos_lt }

/-- Decimal digits of a number, padded with zeros on the left. -/
def padded (width n : Nat) : String :=
  let digits := toString n
  String.ofList (List.replicate (width - digits.length) '0') ++ digits

def dateText (date : Date) : String :=
  let year :=
    if 0 ≤ date.year && date.year ≤ 9999 then padded 4 date.year.toNat
    else (if date.year < 0 then "-" else "+") ++ padded 4 date.year.natAbs
  year ++ "-" ++ padded 2 date.month ++ "-" ++ padded 2 date.day

/-- The digits after the seconds: none, or three, six or nine. -/
def fractionText (nanos : Nat) : String :=
  if nanos = 0 then ""
  else if nanos % 1000000 = 0 then "." ++ padded 3 (nanos / 1000000)
  else if nanos % 1000 = 0 then "." ++ padded 6 (nanos / 1000)
  else "." ++ padded 9 nanos

/-- Date and time, joined by a `T`, without a zone. -/
def localText (t : Instant) : String :=
  let second := (t.seconds % secondsPerDay).toNat
  dateText (Date.ofDays (t.seconds / secondsPerDay)) ++ "T" ++ padded 2 (second / 3600) ++ ":" ++
    padded 2 (second / 60 % 60) ++ ":" ++ padded 2 (second % 60) ++ fractionText t.nanos

/-- The text with the zone as an offset, as shown to people. -/
def text (t : Instant) : String := t.localText ++ "+00:00"

/-- The text with the zone as a letter, as in descriptions of values. -/
def zuluText (t : Instant) : String := t.localText ++ "Z"

end Instant
end Time
end WireSchema
