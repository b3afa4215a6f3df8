/-!
# Instants

A moment in universal time, to the nanosecond, with its date in the Gregorian calendar extended to
all years. A leap second is the second before it with a fraction of one second or more. Times that
are read lie in the years between `yearLimits`.
-/

namespace TiddlerShelf

/-- A moment: whole seconds since the start of 1970 in universal time, and nanoseconds
after that. -/
structure Instant where
  seconds : Int
  nanos : Nat
deriving DecidableEq, Inhabited

namespace Instant

/-- Whether the first moment comes before the second. -/
def before (a b : Instant) : Bool :=
  a.seconds < b.seconds || (a.seconds == b.seconds && a.nanos < b.nanos)

end Instant

/-- A day of the Gregorian calendar. -/
structure CalendarDay where
  year : Int
  month : Nat
  day : Nat
deriving DecidableEq

namespace CalendarDay

def isLeapYear (year : Int) : Bool :=
  year % 4 == 0 && (year % 100 != 0 || year % 400 == 0)

def daysInMonth (year : Int) (month : Nat) : Nat :=
  if month == 2 then (if isLeapYear year then 29 else 28)
  else if month == 4 || month == 6 || month == 9 || month == 11 then 30
  else 31

/-- Whether the calendar has this day. -/
def isValid (d : CalendarDay) : Bool :=
  1 ≤ d.month && d.month ≤ 12 && 1 ≤ d.day && d.day ≤ daysInMonth d.year d.month

/-- Days since the start of 1970. Years are counted from March, so that a leap day ends its year,
and in cycles of 400 years, which all have 146097 days. -/
def toDayNumber (d : CalendarDay) : Int :=
  let year := if d.month ≤ 2 then d.year - 1 else d.year
  let cycle := year / 400
  let yearOfCycle := year % 400
  let month : Int := if d.month ≤ 2 then d.month + 9 else d.month - 3
  let dayOfYear := (153 * month + 2) / 5 + d.day - 1
  let dayOfCycle := yearOfCycle * 365 + yearOfCycle / 4 - yearOfCycle / 100 + dayOfYear
  cycle * 146097 + dayOfCycle - 719468

/-- The day that lies so many days after the start of 1970. -/
def ofDayNumber (n : Int) : CalendarDay :=
  let n := n + 719468
  let cycle := n / 146097
  let dayOfCycle := n % 146097
  let yearOfCycle :=
    (dayOfCycle - dayOfCycle / 1460 + dayOfCycle / 36524 - dayOfCycle / 146096) / 365
  let dayOfYear := dayOfCycle - (365 * yearOfCycle + yearOfCycle / 4 - yearOfCycle / 100)
  let month := (5 * dayOfYear + 2) / 153
  let day := dayOfYear - (153 * month + 2) / 5 + 1
  let year := yearOfCycle + cycle * 400
  if month < 10 then ⟨year, (month + 3).toNat, day.toNat⟩
  else ⟨year + 1, (month - 9).toNat, day.toNat⟩

end CalendarDay

namespace Instant

/-- The years in which moments may lie, wherever they are written. -/
def yearLimits : Int × Int := (-262143, 262142)

/-- The number of the day that a moment lies in. -/
def dayNumber (i : Instant) : Int := i.seconds / 86400

/-- Whether a moment lies in one of the years allowed. -/
def isInLimits (i : Instant) : Bool :=
  CalendarDay.toDayNumber ⟨yearLimits.1, 1, 1⟩ ≤ i.dayNumber &&
    i.dayNumber ≤ CalendarDay.toDayNumber ⟨yearLimits.2, 12, 31⟩

end Instant

end TiddlerShelf
