/-!
The proleptic Gregorian calendar. Days are counted from 1 January 1970; years are
taken in cycles of 400, which all have the same number of days, and begin in
March, so that the leap day comes last.
-/
namespace HtmlTemplate

/-- A day of the calendar; months and days count from 1. -/
structure CivilDate where
  year : Int
  month : Nat
  day : Nat
  deriving Repr, DecidableEq

namespace CivilDate

/-- Whether a year has a leap day. -/
def isLeap (year : Int) : Bool :=
  year % 4 = 0 && (year % 100 ≠ 0 || year % 400 = 0)

/-- The number of days of a month. -/
def monthLength (year : Int) (month : Nat) : Nat :=
  if month = 2 then if isLeap year then 29 else 28
  else if month = 4 || month = 6 || month = 9 || month = 11 then 30
  else 31

/-- Whether the calendar has such a day. -/
def isValid (d : CivilDate) : Bool :=
  1 ≤ d.month && d.month ≤ 12 && 1 ≤ d.day && d.day ≤ monthLength d.year d.month

/-- The number of days from 1 January 1970 to a date. -/
def toDays (d : CivilDate) : Int :=
  let year := if d.month ≤ 2 then d.year - 1 else d.year
  let cycle := year / 400
  let yearOfCycle := year % 400
  let month : Int := if d.month ≤ 2 then d.month + 9 else d.month - 3
  let dayOfYear := (153 * month + 2) / 5 + d.day - 1
  let dayOfCycle := yearOfCycle * 365 + yearOfCycle / 4 - yearOfCycle / 100 + dayOfYear
  cycle * 146097 + dayOfCycle - 719468

/-- The date so many days after 1 January 1970. -/
def ofDays (days : Int) : CivilDate :=
  let shifted := days + 719468
  let cycle := shifted / 146097
  let dayOfCycle := shifted % 146097
  let yearOfCycle :=
    (dayOfCycle - dayOfCycle / 1460 + dayOfCycle / 36524 - dayOfCycle / 146096) / 365
  let dayOfYear := dayOfCycle - (365 * yearOfCycle + yearOfCycle / 4 - yearOfCycle / 100)
  let month := (5 * dayOfYear + 2) / 153
  let day := dayOfYear - (153 * month + 2) / 5 + 1
  let civilMonth := if month < 10 then month + 3 else month - 9
  let year := yearOfCycle + cycle * 400
  ⟨if civilMonth ≤ 2 then year + 1 else year, civilMonth.toNat, day.toNat⟩

end CivilDate

/-- A point in time: seconds since the beginning of 1970, and nanoseconds into the
second. Within a leap second, which has no number of its own, the nanoseconds go
on beyond `10 ^ 9`. -/
structure Instant where
  seconds : Int
  nanos : Nat
  deriving Repr, DecidableEq

namespace Instant

/-- The years that instants are kept to. -/
def yearInRange (year : Int) : Bool :=
  -262143 ≤ year && year ≤ 262142

/-- The instant so many milliseconds after the beginning of 1970, if its year is
in range. -/
def ofMillis? (millis : Int) : Option Instant :=
  let t : Instant := ⟨millis / 1000, (millis % 1000).toNat * 1000000⟩
  if yearInRange (CivilDate.ofDays (t.seconds / 86400)).year then some t else none

/-- The milliseconds since the beginning of 1970. -/
def toMillis (t : Instant) : Int :=
  t.seconds * 1000 + (t.nanos / 1000000 : Nat)

def date (t : Instant) : CivilDate :=
  CivilDate.ofDays (t.seconds / 86400)

def hour (t : Instant) : Int :=
  t.seconds % 86400 / 3600

def minute (t : Instant) : Int :=
  t.seconds % 3600 / 60

def second (t : Instant) : Int :=
  t.seconds % 60

def milli (t : Instant) : Int :=
  (t.nanos / 1000000 : Nat)

/-- The day of the week, Sunday being 0. The first day of 1970 was a Thursday. -/
def weekday (t : Instant) : Int :=
  (t.seconds / 86400 + 4) % 7

end Instant

end HtmlTemplate
