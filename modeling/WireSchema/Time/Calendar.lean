/-!
# The calendar

Days are counted from 1 January 1970 in the proleptic Gregorian calendar, which has a year zero
and negative years.  Four hundred years have 146097 days and repeat; within them the months are
counted from March, so that the day a leap year adds comes last.
-/

namespace WireSchema
namespace Time

structure Date where
  year : Int
  month : Nat
  day : Nat
  deriving DecidableEq, Repr

def daysPerEra : Int := 146097

/-- Days from 1 March of year zero to 1 January 1970. -/
def epochShift : Int := 719468

/-- The date of a day, counted from 1 January 1970. -/
def Date.ofDays (days : Int) : Date :=
  let shifted := days + epochShift
  let era := shifted / daysPerEra
  let dayOfEra := (shifted % daysPerEra).toNat
  let yearOfEra :=
    (dayOfEra - dayOfEra / 1460 + dayOfEra / 36524 - dayOfEra / 146096) / 365
  let dayOfYear := dayOfEra - (365 * yearOfEra + yearOfEra / 4 - yearOfEra / 100)
  let march := (5 * dayOfYear + 2) / 153
  let day := dayOfYear - (153 * march + 2) / 5 + 1
  let month := if march < 10 then march + 3 else march - 9
  let year := (yearOfEra : Int) + era * 400
  ⟨if month ≤ 2 then year + 1 else year, month, day⟩

/-- The number of leap days before a year, from year one on. -/
def leapDays (year : Int) : Int := (year - 1) / 4 - (year - 1) / 100 + (year - 1) / 400

/-- The day on which a year begins, counted from 1 January 1970. -/
def yearStart (year : Int) : Int := 365 * (year - 1970) + leapDays year - leapDays 1970

example : Date.ofDays 0 = ⟨1970, 1, 1⟩ := by decide +kernel

example : Date.ofDays (yearStart 2000 + 59) = ⟨2000, 2, 29⟩ := by decide +kernel

example : Date.ofDays (yearStart (-262143)) = ⟨-262143, 1, 1⟩ := by decide +kernel

end Time
end WireSchema
