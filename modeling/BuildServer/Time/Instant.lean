/-!
# Instants

An instant is a count of seconds since the beginning of 1970 in universal time, and a fraction in
nanoseconds. A leap second is the second before it with a fraction of one second or more. Dates are
those of the Gregorian calendar, extended in both directions; days are counted from the beginning
of March of the year 0, so that the leap day is the last one of its year.
-/

set_option autoImplicit false

namespace BuildServer

/-- A point in time (`DateTime`). -/
structure Instant where
  seconds : Int
  nanoseconds : Nat
  deriving DecidableEq, Repr, Inhabited

/-- What the clock says whenever it is looked at while something is done. It may be set back in
between. -/
abbrev Clock := Nat → Instant

namespace Clock

/-- A clock that has stopped. -/
def still (now : Instant) : Clock := fun _ => now

/-- What it says from the second time on. -/
def rest (clock : Clock) : Clock := fun times => clock (times + 1)

end Clock

namespace Instant

/-- Instants are ordered by their seconds, then by their fractions. -/
def before (a b : Instant) : Bool :=
  a.seconds < b.seconds || (a.seconds == b.seconds && a.nanoseconds < b.nanoseconds)

/-! ## The calendar -/

/-- The days from the beginning of March of the year 0 to the beginning of 1970. -/
def epochDay : Int := 719468

/-- The day number of a date, 0 at the beginning of 1970. -/
def dayNumber (year : Int) (month day : Nat) : Int :=
  let year := if month ≤ 2 then year - 1 else year
  let era := year.fdiv 400
  let yearOfEra := year - 400 * era
  let monthFromMarch : Int := (month + 9) % 12
  let dayOfYear := (153 * monthFromMarch + 2) / 5 + day - 1
  let dayOfEra := yearOfEra * 365 + yearOfEra / 4 - yearOfEra / 100 + dayOfYear
  era * 146097 + dayOfEra - epochDay

/-- A date: year, month and day. -/
structure Date where
  year : Int
  month : Nat
  day : Nat
  deriving DecidableEq, Repr

/-- The date of a day number. -/
def date (dayNumber : Int) : Date :=
  let n := dayNumber + epochDay
  let era := n.fdiv 146097
  let dayOfEra := n - 146097 * era
  let yearOfEra := (dayOfEra - dayOfEra / 1460 + dayOfEra / 36524 - dayOfEra / 146096) / 365
  let dayOfYear := dayOfEra - (365 * yearOfEra + yearOfEra / 4 - yearOfEra / 100)
  let monthFromMarch := (5 * dayOfYear + 2) / 153
  let day := dayOfYear - (153 * monthFromMarch + 2) / 5 + 1
  let month := if monthFromMarch < 10 then monthFromMarch + 3 else monthFromMarch - 9
  let year := yearOfEra + 400 * era + (if month ≤ 2 then 1 else 0)
  ⟨year, month.toNat, day.toNat⟩

/-- The year has a leap day. -/
def isLeapYear (year : Int) : Bool :=
  year.fmod 4 == 0 && (year.fmod 100 != 0 || year.fmod 400 == 0)

/-- The days of a month. -/
def daysIn (year : Int) (month : Nat) : Nat :=
  if month = 2 then if isLeapYear year then 29 else 28
  else if month = 4 || month = 6 || month = 9 || month = 11 then 30
  else 31

/-- The years that an instant may lie in. -/
def firstYear : Int := -262143

/-- The years that an instant may lie in. -/
def lastYear : Int := 262142

end Instant

end BuildServer
