/-!
# Instants

A moment on the time line of UTC: a day, a second of it and a nanosecond of that.
During a leap second the nanosecond goes on past a thousand million, so such a
moment keeps the second it belongs to under any offset.

Days are counted from the start of 1970 in the proleptic Gregorian calendar. The
conversions count in eras of 400 years and let the year start in March, so that
the leap day is the last of its year.

## Main definitions

* `Instant`: A moment.
* `Calendar.dayOfDate`, `Calendar.dateOfDay`: Days and dates.
* `Calendar.isDate`: The dates there are.
* `Instant.text`: An instant in RFC 3339.
-/

namespace TypeSketch

/-- A moment: days since the start of 1970, a second below 86400, and a nanosecond
    that is below `2 * 10 ^ 9` and passes `10 ^ 9` in a leap second only. -/
structure Instant where
  day : Int
  second : Nat
  nanosecond : Nat
deriving Repr, DecidableEq

namespace Calendar

/-- The years that have dates. -/
def minYear : Int := -262143

def maxYear : Int := 262142

def isLeapYear (year : Int) : Bool :=
  year % 4 = 0 && (year % 100 ≠ 0 || year % 400 = 0)

/-- The number of days of a month. -/
def daysInMonth (year : Int) (month : Nat) : Nat :=
  if month = 2 then (if isLeapYear year then 29 else 28)
  else if month = 4 ∨ month = 6 ∨ month = 9 ∨ month = 11 then 30
  else 31

/-- Whether there is such a date. -/
def isDate (year : Int) (month day : Nat) : Bool :=
  minYear ≤ year && year ≤ maxYear && 1 ≤ month && month ≤ 12 && 1 ≤ day &&
    day ≤ daysInMonth year month

/-- The day on which a date falls. -/
def dayOfDate (year : Int) (month day : Nat) : Int :=
  -- Years start in March here, so that the leap day is the last one.
  let shifted := if month ≤ 2 then year - 1 else year
  let era := shifted.fdiv 400
  let yearOfEra := shifted - era * 400
  let monthFromMarch : Int := (month + 9) % 12
  let dayOfYear := (153 * monthFromMarch + 2) / 5 + day - 1
  let dayOfEra := yearOfEra * 365 + yearOfEra / 4 - yearOfEra / 100 + dayOfYear
  era * 146097 + dayOfEra - 719468

/-- The date of a day: year, month and day of the month. -/
def dateOfDay (day : Int) : Int × Nat × Nat :=
  -- The same count backwards: eras of 400 years that start in March of the year 0.
  let shifted := day + 719468
  let era := shifted.fdiv 146097
  let dayOfEra := shifted - era * 146097
  let yearOfEra := (dayOfEra - dayOfEra / 1460 + dayOfEra / 36524 - dayOfEra / 146096) / 365
  let dayOfYear := dayOfEra - (365 * yearOfEra + yearOfEra / 4 - yearOfEra / 100)
  let monthFromMarch := (5 * dayOfYear + 2) / 153
  let dayOfMonth := dayOfYear - (153 * monthFromMarch + 2) / 5 + 1
  let month := if monthFromMarch < 10 then monthFromMarch + 3 else monthFromMarch - 9
  let year := yearOfEra + era * 400
  (if month ≤ 2 then year + 1 else year, month.toNat, dayOfMonth.toNat)

end Calendar

namespace Instant

/-- A number with zeros before it up to a width. -/
def padded (width n : Nat) : String :=
  let digits := Nat.toDigits 10 n
  String.ofList (List.replicate (width - digits.length) '0' ++ digits)

/-- A year: four digits, and outside 0 to 9999 a sign as well. -/
def yearText (year : Int) : String :=
  if 0 ≤ year ∧ year ≤ 9999 then padded 4 year.toNat
  else (if year < 0 then "-" else "+") ++ padded 4 year.natAbs

/-- The fraction of a second, in the fewest of 0, 3, 6 and 9 digits that are exact. -/
def fractionText (nanosecond : Nat) : String :=
  if nanosecond = 0 then ""
  else if nanosecond % 1000000 = 0 then "." ++ padded 3 (nanosecond / 1000000)
  else if nanosecond % 1000 = 0 then "." ++ padded 6 (nanosecond / 1000)
  else "." ++ padded 9 nanosecond

/-- The instant in RFC 3339, in UTC. -/
def text (t : Instant) : String :=
  let (year, month, day) := Calendar.dateOfDay t.day
  let leap := t.nanosecond / 1000000000
  yearText year ++ "-" ++ padded 2 month ++ "-" ++ padded 2 day ++ "T" ++
    padded 2 (t.second / 3600) ++ ":" ++ padded 2 (t.second / 60 % 60) ++ ":" ++
    padded 2 (t.second % 60 + leap) ++ fractionText (t.nanosecond % 1000000000) ++ "Z"

end Instant

end TypeSketch
