import Ripple.Graph.Basic
import Ripple.Text.Padding
import Ripple.Time.Duration

/-!
# Ripple.Time.Date

Dates of the Gregorian calendar, extended to all years, and the time of day in UTC.

* `Date.ofDays` and `Date.days` count days from the beginning of 1970;
* `Moment.ofTimestamp` and `Moment.timestamp` do the same for nanoseconds;
* `Moment.stamp` is the exact form (`2024-01-02T03:04:05.1Z`), `Moment.plain` the readable one
  (`2024-01-02 03:04:05`).
-/

namespace Ripple

/-- A day of the calendar. -/
structure Date where
  year : Int
  month : Nat
  day : Nat
  deriving DecidableEq, Repr

namespace Date

/-- Whether a year has 366 days. -/
def isLeap (year : Int) : Bool :=
  year % 4 == 0 && (year % 100 != 0 || year % 400 == 0)

/-- How many days a month has. -/
def daysIn (year : Int) (month : Nat) : Nat :=
  if month = 2 then if isLeap year then 29 else 28
  else if month = 4 ∨ month = 6 ∨ month = 9 ∨ month = 11 then 30
  else 31

/-- Days since the beginning of 1970.  Years are counted from March, so that the leap day is the
last day of its year, and in cycles of 400 years, which have 146097 days. -/
def days (d : Date) : Int :=
  let year := if d.month ≤ 2 then d.year - 1 else d.year
  let month : Int := if d.month ≤ 2 then d.month + 9 else d.month - 3
  let inCycle := year % 400
  let inYear := (153 * month + 2) / 5 + d.day - 1
  year / 400 * 146097 + inCycle * 365 + inCycle / 4 - inCycle / 100 + inYear - 719468

/-- The day that is a number of days after the beginning of 1970. -/
def ofDays (n : Int) : Date :=
  let n := n + 719468
  let inCycle := n % 146097
  let years := (inCycle - inCycle / 1460 + inCycle / 36524 - inCycle / 146096) / 365
  let inYear := inCycle - (365 * years + years / 4 - years / 100)
  let month := (5 * inYear + 2) / 153
  let day := inYear - (153 * month + 2) / 5 + 1
  let year := years + n / 146097 * 400
  if month < 10 then ⟨year, (month + 3).toNat, day.toNat⟩
  else ⟨year + 1, (month - 9).toNat, day.toNat⟩

end Date

/-- A point in time, in UTC. -/
structure Moment where
  date : Date
  hour : Nat
  minute : Nat
  second : Nat
  nanosecond : Nat
  deriving DecidableEq, Repr

namespace Moment

/-- Nanoseconds since the beginning of 1970. -/
def timestamp (m : Moment) : Timestamp :=
  ((m.date.days * 24 + m.hour) * 60 + m.minute) * 60000000000 + m.second * 1000000000 + m.nanosecond

/-- The moment of a timestamp. -/
def ofTimestamp (t : Timestamp) : Moment :=
  let seconds := t / 1000000000
  let inDay := (seconds % 86400).toNat
  { date := .ofDays (seconds / 86400)
    hour := inDay / 3600
    minute := inDay / 60 % 60
    second := inDay % 60
    nanosecond := (t % 1000000000).toNat }

/-- A number of at least two digits. -/
def two (n : Nat) : String := Text.padLeft 2 (toString n) '0'

/-- The day, with a year of at least four digits. -/
def dayText (m : Moment) : String :=
  let sign := if m.date.year < 0 then "-" else ""
  let year := Text.padLeft 4 (toString m.date.year.natAbs) '0'
  s!"{sign}{year}-{two m.date.month}-{two m.date.day}"

/-- The time of day, to the second. -/
def clockText (m : Moment) : String :=
  s!"{two m.hour}:{two m.minute}:{two m.second}"

/-- Day and time of day, to the second. -/
def plain (m : Moment) : String := m.dayText ++ " " ++ m.clockText

/-- The exact form: a fraction of the second stands only where there is one. -/
def stamp (m : Moment) : String :=
  m.dayText ++ "T" ++ m.clockText ++ Duration.fraction 9 m.nanosecond ++ "Z"

/-- The beginning of the year 1, which stands for a time that was never set. -/
def unset : Moment := ⟨⟨1, 1, 1⟩, 0, 0, 0, 0⟩

end Moment

end Ripple
