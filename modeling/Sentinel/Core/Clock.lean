import Mathlib.Algebra.Order.Ring.Int

/-!
# Spans and civil dates

Instants and naive wall-clock readings are nanoseconds since the beginning of
1970; a date is the number of its day.  The conversion between a day and its
year, month and day of the month counts years from March on, so that the leap
day is the last of its year.
-/

namespace Sentinel

def minuteNs : ℤ := 60 * 10 ^ 9

def hourNs : ℤ := 60 * minuteNs

def dayNs : ℤ := 24 * hourNs

def dayOf (t : ℤ) : ℤ := t / dayNs

def hourOf (t : ℤ) : ℤ := t % dayNs / hourNs

structure CivilDate where
  year : ℤ
  month : ℤ
  day : ℤ
  deriving DecidableEq

namespace CivilDate

def toDay (d : CivilDate) : ℤ :=
  let y := if d.month ≤ 2 then d.year - 1 else d.year
  let era := y / 400
  let yearOfEra := y - era * 400
  let monthFromMarch := (d.month + 9) % 12
  let dayOfYear := (153 * monthFromMarch + 2) / 5 + d.day - 1
  era * 146097 + (yearOfEra * 365 + yearOfEra / 4 - yearOfEra / 100 + dayOfYear) - 719468

def ofDay (n : ℤ) : CivilDate :=
  let z := n + 719468
  let era := z / 146097
  let dayOfEra := z - era * 146097
  let yearOfEra :=
    (dayOfEra - dayOfEra / 1460 + dayOfEra / 36524 - dayOfEra / 146096) / 365
  let dayOfYear := dayOfEra - (365 * yearOfEra + yearOfEra / 4 - yearOfEra / 100)
  let monthFromMarch := (5 * dayOfYear + 2) / 153
  let month := if monthFromMarch < 10 then monthFromMarch + 3 else monthFromMarch - 9
  { year := yearOfEra + era * 400 + if month ≤ 2 then 1 else 0
    month := month
    day := dayOfYear - (153 * monthFromMarch + 2) / 5 + 1 }

example : toDay ⟨2024, 2, 29⟩ = 19782 ∧ ofDay 19782 = ⟨2024, 2, 29⟩ := by decide

end CivilDate

/-- Monday is zero; the beginning of 1970 was a Thursday. -/
def weekdayOf (day : ℤ) : ℤ := (day + 3) % 7

end Sentinel

/-!
## Release-time zones

The offset of a zone at a local wall-clock reading, with the summer-time rules
of the United States and of Europe, and the conversions between local readings
and instants that the calendar uses.
-/

namespace Sentinel

namespace TzRules

/-- `_nth_weekday`: the `n`-th weekday of a month. -/
def nthWeekday (year month weekday n : ℤ) : ℤ :=
  let first := CivilDate.toDay ⟨year, month, 1⟩
  first + (weekday - weekdayOf first) % 7 + (n - 1) * 7

/-- `_last_weekday`: the last weekday of a month. -/
def lastWeekday (year month weekday : ℤ) : ℤ :=
  let next := if month = 12 then CivilDate.toDay ⟨year + 1, 1, 1⟩
    else CivilDate.toDay ⟨year, month + 1, 1⟩
  let last := next - 1
  last - (weekdayOf last - weekday) % 7

def summerTime (start stop moment : ℤ) : Bool :=
  let today := dayOf moment
  if today < start ∨ stop < today then false
  else if start < today ∧ today < stop then true
  else if today = start then decide (2 ≤ hourOf moment)
  else decide (hourOf moment < 2)

variable (moment : ℤ)

/-- `_us_dst`: second Sunday in March to first Sunday in November. -/
def usDst : Bool :=
  let year := (CivilDate.ofDay (dayOf moment)).year
  summerTime (nthWeekday year 3 6 2) (nthWeekday year 11 6 1) moment

/-- `_eu_dst`: last Sunday in March to last Sunday in October. -/
def euDst : Bool :=
  let year := (CivilDate.ofDay (dayOf moment)).year
  summerTime (lastWeekday year 3 6) (lastWeekday year 10 6) moment

/-- `utc_offset_hours`; `none` for a zone that is not known. -/
def utcOffsetHours (zone : String) (moment : ℤ) : Option ℤ :=
  let us := if usDst moment then 1 else 0
  let eu := if euDst moment then 1 else 0
  match zone with
  | "America/New_York" => some (-5 + us)
  | "Europe/Frankfurt" => some (1 + eu)
  | "Europe/London" => some eu
  | "Asia/Tokyo" => some 9
  | "UTC" => some 0
  | _ => none

/-- `local_to_utc`: the reading less the offset at it. -/
def localToUtcNs (zone : String) : Option ℤ :=
  (utcOffsetHours zone moment).map fun hours => moment - hours * hourNs

/-- `utc_to_local`: the offset is resolved from a first guess. -/
def utcToLocal (zone : String) : Option ℤ := do
  let first ← utcOffsetHours zone moment
  let second ← utcOffsetHours zone (moment + first * hourNs)
  return moment + second * hourNs

end TzRules

end Sentinel
