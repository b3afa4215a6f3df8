import TiddlerShelf.Text.Blank
import TiddlerShelf.Text.Decimal
import TiddlerShelf.Time.Instant

/-!
# Times as text

Moments are written as RFC 3339 prescribes, in universal time, with as many thousands of fraction
digits as the moment needs. Two readers accept them: `parse?` takes the format as it stands, and
`parseLoose?` also takes blanks between the parts, shorter numbers, years with a sign, `UTC` for the
offset and offsets without a colon.
-/

namespace TiddlerShelf.Instant

open TiddlerShelf.Text

/-- Reads between `least` and `most` digits, as many as there are. -/
def readNumber? (least most : Nat) (cs : List Char) : Option (Nat × List Char) :=
  let run := (cs.take most).takeWhile isDigit
  if run.length < least then none else some (digitsValue run, cs.drop run.length)

/-- Reads one given character. -/
def readChar? (c : Char) : List Char → Option (List Char)
  | d :: cs => if d = c then some cs else none
  | [] => none

/-- Reads the separator of date and time. -/
def readDateTimeSeparator? : List Char → Option (List Char)
  | c :: cs => if c = 't' || c = 'T' || c = ' ' then some cs else none
  | [] => none

/-- Reads an optional fraction of a second into nanoseconds; digits after the ninth are dropped. -/
def readFraction? : List Char → Option (Nat × List Char)
  | '.' :: cs =>
    let run := (cs.take 9).takeWhile isDigit
    if run.isEmpty then none
    else some (digitsValue (run ++ List.replicate (9 - run.length) '0'),
      (cs.drop run.length).dropWhile isDigit)
  | cs => some (0, cs)

/-- Reads an offset from universal time in seconds. `skipColon` passes over what stands between
hours and minutes. -/
def readOffset? (skipColon : List Char → Option (List Char)) (cs : List Char) :
    Option (Int × List Char) :=
  match cs with
  | 'Z' :: cs => some (0, cs)
  | 'z' :: cs => some (0, cs)
  | sign :: cs => do
    let negative ← if sign = '+' then some false
      else if sign = '-' || sign = '\u2212' then some true
      else none
    let (hours, cs) ← readNumber? 2 2 cs
    let cs ← skipColon cs
    let (minutes, cs) ← readNumber? 2 2 cs
    if 60 ≤ minutes then none
    let seconds : Int := hours * 3600 + minutes * 60
    some (if negative then -seconds else seconds, cs)
  | [] => none

/-- A date, a time of day and an offset as they were written. -/
structure Parts where
  day : CalendarDay
  hour : Nat
  minute : Nat
  second : Nat
  nanos : Nat
  offset : Int

/-- The moment that written fields name, if the calendar and the clock have it. Second 60 is a leap
second, and an offset is shorter than a day. The year limits hold for the date as it is written and
for the date in universal time. -/
def Parts.toInstant? (f : Parts) : Option Instant :=
  if f.day.isValid && yearLimits.1 ≤ f.day.year && f.day.year ≤ yearLimits.2 &&
      f.hour < 24 && f.minute < 60 && f.second ≤ 60 && f.offset.natAbs < 86400 then
    let (second, nanos) := if f.second = 60 then (59, f.nanos + 1000000000) else (f.second, f.nanos)
    let moment : Instant := {
      seconds := f.day.toDayNumber * 86400 + f.hour * 3600 + f.minute * 60 + second - f.offset
      nanos }
    if moment.isInLimits then some moment else none
  else none

/-- Reads the format of RFC 3339. -/
def parseChars? (cs : List Char) : Option Instant := do
  let (year, cs) ← readNumber? 4 4 cs
  let cs ← readChar? '-' cs
  let (month, cs) ← readNumber? 2 2 cs
  let cs ← readChar? '-' cs
  let (day, cs) ← readNumber? 2 2 cs
  let cs ← readDateTimeSeparator? cs
  let (hour, cs) ← readNumber? 2 2 cs
  let cs ← readChar? ':' cs
  let (minute, cs) ← readNumber? 2 2 cs
  let cs ← readChar? ':' cs
  let (second, cs) ← readNumber? 2 2 cs
  let (nanos, cs) ← readFraction? cs
  let (offset, cs) ← readOffset? (readChar? ':') cs
  if !cs.isEmpty then none
  Parts.toInstant? { day := ⟨year, month, day⟩, hour, minute, second, nanos, offset }

/-- Reads a year: up to four digits, or a sign and any number of digits. -/
def readYear? (cs : List Char) : Option (Int × List Char) :=
  match trimStart cs with
  | '-' :: cs => (readNumber? 1 cs.length cs).map fun (n, cs) => (-n, cs)
  | '+' :: cs => (readNumber? 1 cs.length cs).map fun (n, cs) => (n, cs)
  | cs => (readNumber? 1 4 cs).map fun (n, cs) => (n, cs)

/-- Reads a number of one or two digits after blanks. -/
def readPart? (cs : List Char) : Option (Nat × List Char) := readNumber? 1 2 (trimStart cs)

/-- Reads a given character after blanks. -/
def readMark? (c : Char) (cs : List Char) : Option (List Char) := readChar? c (trimStart cs)

/-- Passes over colons and blanks. -/
def skipColons (cs : List Char) : Option (List Char) :=
  some (cs.dropWhile fun c => c = ':' || isBlank c)

/-- Reads an offset, for which `UTC` may stand in any case. -/
def readLooseOffset? (cs : List Char) : Option (Int × List Char) :=
  if (cs.take 3).map Char.toUpper = ['U', 'T', 'C'] then some (0, cs.drop 3)
  else readOffset? skipColons cs

/-- Reads the format with blanks between its parts and shorter numbers. -/
def parseLooseChars? (cs : List Char) : Option Instant := do
  let (year, cs) ← readYear? cs
  let cs ← readMark? '-' cs
  let (month, cs) ← readPart? cs
  let cs ← readMark? '-' cs
  let (day, cs) ← readPart? cs
  let cs ← readDateTimeSeparator? cs
  let (hour, cs) ← readPart? cs
  let cs ← readMark? ':' cs
  let (minute, cs) ← readPart? cs
  let cs ← readMark? ':' cs
  let (second, cs) ← readPart? cs
  let (nanos, cs) ← readFraction? cs
  let (offset, cs) ← readLooseOffset? (trimStart cs)
  if !(trimStart cs).isEmpty then none
  Parts.toInstant? { day := ⟨year, month, day⟩, hour, minute, second, nanos, offset }

/-- Reads a time written as RFC 3339 prescribes. -/
def parse? (s : String) : Option Instant := parseChars? s.toList

/-- Reads a time with blanks between its parts, or with its numbers cut short. -/
def parseLoose? (s : String) : Option Instant := parseLooseChars? s.toList

/-- A year of four digits, or with a sign where four digits cannot hold it. -/
def yearChars (year : Int) : List Char :=
  if 0 ≤ year && year ≤ 9999 then paddedDigits 4 year.toNat
  else (if year < 0 then '-' else '+') :: paddedDigits 4 year.natAbs

/-- A fraction of a second in nanoseconds, with the fewest of 0, 3, 6 or 9 digits that hold it. -/
def fractionChars (nanos : Nat) : List Char :=
  if nanos = 0 then []
  else if nanos % 1000000 = 0 then '.' :: paddedDigits 3 (nanos / 1000000)
  else if nanos % 1000 = 0 then '.' :: paddedDigits 6 (nanos / 1000)
  else '.' :: paddedDigits 9 nanos

/-- The moment as RFC 3339 writes it in universal time. -/
def toChars (i : Instant) : List Char :=
  let day := CalendarDay.ofDayNumber i.dayNumber
  let clock := (i.seconds % 86400).toNat
  let (second, nanos) :=
    if i.nanos < 1000000000 then (clock % 60, i.nanos) else (clock % 60 + 1, i.nanos - 1000000000)
  yearChars day.year ++ '-' :: paddedDigits 2 day.month ++ '-' :: paddedDigits 2 day.day ++
    'T' :: paddedDigits 2 (clock / 3600) ++ ':' :: paddedDigits 2 (clock / 60 % 60) ++
    ':' :: paddedDigits 2 second ++ fractionChars nanos ++ ['Z']

/-- The text of a moment. -/
def toText (i : Instant) : String := String.ofList i.toChars

end TiddlerShelf.Instant
