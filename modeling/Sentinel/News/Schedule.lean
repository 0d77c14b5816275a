import Sentinel.Api.Credentials
import Sentinel.News.Calendar

/-!
# Where calendar events come from

Two sources of dated releases: recurrence rules expanded over a window, and the
lines of a file of historical releases.  Both hand over raw rows.  The parser
of timestamps, the case folding of the interpreter and the float conversion in
`fromtimestamp` are parameters; columns that no row of an event takes over are
left out.
-/

namespace Sentinel

/-- What the sources use of the interpreter: the timestamp parser, the case
foldings, and the reading of `fromtimestamp(ns / 1e9)`. -/
structure SourceOps where
  toNs : String → Option ℤ
  upper : String → String
  lower : String → String
  fromTimestamp : ℤ → ℤ

/-- A row as a source hands it over; `none` where the row lacks the column. -/
structure RawRow where
  eventId : Option String := none
  seriesId : Option String := none
  eventNs : ℤ
  currency : String
  name : String
  impact : Option String := none
  curatedImpact : Option String := none
  period : Option String := none
  zone : String := "UTC"
  localTime : String := ""
  certainty : String := "confirmed"
  forecast : Option Dec := none
  previous : Option Dec := none
  deriving DecidableEq

inductive FetchError where
  | unknownKind (kind seriesId : String)
  | unknownZone (zone : String)
  | badTime (localTime : String)
  | badDay
  | divisionByZero
  | endless
  deriving DecidableEq

structure CalendarSource where
  name : String
  fetch : ℤ → ℤ → Except FetchError (List RawRow)

/-- `text or default`. -/
def orText (text : Option String) (default : String) : String :=
  match text with
  | some t => if t = "" then default else t
  | none => default

/-- `f"{n:0width}"`. -/
def padded (width : ℕ) (n : ℤ) : String :=
  let digits := toString n.natAbs
  let filled := fun w : ℕ => String.ofList (List.replicate (w - digits.length) '0') ++ digits
  if n < 0 then "-" ++ filled (width - 1) else filled width

/-- `f"{y:04d}-{m:02d}"`. -/
def monthText (year month : ℤ) : String := padded 4 year ++ "-" ++ padded 2 month

def Certainty.text : Certainty → String
  | approximate => "approximate"
  | scheduledPattern => "scheduled_pattern"
  | confirmed => "confirmed"

/-! ## Recurrence rules -/

inductive Recurrence where
  | nthWeekday (weekday nth : ℤ) (everyMonths anchorMonth : ℤ := 1)
  | nthBusinessDay (nth : ℤ) (everyMonths anchorMonth : ℤ := 1)
  | dayWindow (typicalDay earliestDay : Option ℤ) (weekdaysOnly : Bool := true)
      (everyMonths anchorMonth : ℤ := 1)
  | explicitDates (dates : List ℤ)
  | everyNWeeks (anchor : ℤ) (weeks : ℤ := 6)
  | unknown (kind : String)

structure ReleaseSeries where
  seriesId : String
  name : String
  currency : String
  zone : String
  localTime : String
  recurrence : Recurrence
  curatedTier : String := "medium"
  certainty : Certainty := .approximate
  periodLagMonths : ℤ := 0

namespace Recurrence

def nextMonth (year month : ℤ) : ℤ :=
  if month = 12 then CivilDate.toDay ⟨year + 1, 1, 1⟩ else CivilDate.toDay ⟨year, month + 1, 1⟩

/-- `_nth_weekday`: counted from the end of the month where `n` is not positive. -/
def nthWeekdayOf (year month weekday n : ℤ) : Option ℤ :=
  if 0 < n then
    let first := CivilDate.toDay ⟨year, month, 1⟩
    let day := first + (weekday - weekdayOf first) % 7 + (n - 1) * 7
    if day < nextMonth year month then some day else none
  else
    let last := nextMonth year month - 1
    some (last - (weekdayOf last - weekday) % 7 + (n + 1) * 7)

/-- `_nth_business_day`: the `n`-th weekday of a month. -/
def nthBusinessDayOf (year month n : ℤ) : Option ℤ :=
  let first := CivilDate.toDay ⟨year, month, 1⟩
  let days := (List.range (nextMonth year month - first).toNat).map fun k : ℕ => first + k
  if 0 < n then (days.filter fun day => weekdayOf day < 5)[(n - 1).toNat]? else none

def clampToWeekday (day : ℤ) : ℤ := day - max 0 (weekdayOf day - 4)

/-- `_month_iter`: the months from one day to another. -/
def monthIter (start stop : ℤ) : List (ℤ × ℤ) :=
  let number := fun day : ℤ => (CivilDate.ofDay day).year * 12 + (CivilDate.ofDay day).month - 1
  (List.range (number stop - number start + 1).toNat).map fun k : ℕ =>
    ((number start + k) / 12, (number start + k) % 12 + 1)

def monthsOf (start stop everyMonths anchorMonth : ℤ) : Except FetchError (List (ℤ × ℤ)) :=
  let months := monthIter start stop
  if everyMonths = 0 ∧ months ≠ [] then .error .divisionByZero
  else .ok (months.filter fun ym => (ym.2 - anchorMonth) % everyMonths = 0)

def dayInWindow (typical : ℤ) (weekdaysOnly : Bool) (ym : ℤ × ℤ) : Except FetchError ℤ :=
  let first := CivilDate.toDay ⟨ym.1, ym.2, 1⟩
  let dayOfMonth := min typical (nextMonth ym.1 ym.2 - first)
  if dayOfMonth < 1 then .error .badDay
  else
    let day := first + dayOfMonth - 1
    .ok (if weekdaysOnly then clampToWeekday day else day)

/-- The cadence from the first date at or before `start`, to the end.  A step
that is not positive never gets there. -/
def cadence (anchor weeks start stop : ℤ) : Except FetchError (List ℤ) :=
  let step := weeks * 7
  if weeks ≤ 0 then if anchor ≤ start ∧ stop < anchor then .ok [] else .error .endless
  else
    let back := if start < anchor then (anchor - start + step - 1) / step else 0
    let cursor := anchor - step * back
    .ok ((List.range ((stop - cursor) / step + 1).toNat).map fun k : ℕ => cursor + step * k)

end Recurrence

namespace ReleaseSeries

open Recurrence

variable (s : ReleaseSeries)

def candidates (start stop : ℤ) : Except FetchError (List ℤ) :=
  match s.recurrence with
  | .nthWeekday weekday nth every anchor =>
      (monthsOf start stop every anchor).map fun months =>
        months.filterMap fun ym => nthWeekdayOf ym.1 ym.2 weekday nth
  | .nthBusinessDay nth every anchor =>
      (monthsOf start stop every anchor).map fun months =>
        months.filterMap fun ym => nthBusinessDayOf ym.1 ym.2 nth
  | .dayWindow typical earliest weekdaysOnly every anchor => do
      let months ← monthsOf start stop every anchor
      months.mapM (dayInWindow ((typical.or earliest).getD 15) weekdaysOnly)
  | .explicitDates dates => .ok dates
  | .everyNWeeks anchor weeks => cadence anchor weeks start stop
  | .unknown kind => .error (.unknownKind kind s.seriesId)

/-- `occurrences`: local release dates from one day to another. -/
def occurrences (start stop : ℤ) : Except FetchError (List ℤ) :=
  (s.candidates start stop).map fun days => days.filter fun day => start ≤ day ∧ day ≤ stop

/-- `period_for`: the reference period a release describes. -/
def periodFor (day : ℤ) : String :=
  let date := CivilDate.ofDay day
  let month := date.month - s.periodLagMonths
  -- one year is borrowed for every twelve months that are missing
  let borrowed := if month ≤ 0 then (-month) / 12 + 1 else 0
  monthText (date.year - borrowed) (month + 12 * borrowed)

def instant (s : ReleaseSeries) (day : ℤ) : Except FetchError ℤ :=
  match clockOf s.localTime with
  | none => .error (.badTime s.localTime)
  | some (hour, minute) =>
      match TzRules.localToUtcNs (day * dayNs + hour * hourNs + minute * minuteNs) s.zone with
      | none => .error (.unknownZone s.zone)
      | some ns => .ok ns

def dated (ops : SourceOps) (startNs endNs : ℤ) : Except FetchError (List (ℤ × ℤ)) := do
  let start := dayOf (ops.fromTimestamp startNs)
  let stop := dayOf (ops.fromTimestamp endNs)
  let days ← s.occurrences (start - 1) (stop + 1)
  let all ← days.mapM fun day => (s.instant day).map fun ns => (day, ns)
  return all.filter fun d => startNs ≤ d.2 ∧ d.2 ≤ endNs

def row (d : ℤ × ℤ) : RawRow :=
  let date := CivilDate.ofDay d.1
  { eventId := some (s.seriesId ++ ":" ++ s.periodFor d.1 ++ ":" ++
      padded 4 date.year ++ padded 2 date.month ++ padded 2 date.day)
    seriesId := some s.seriesId
    eventNs := d.2
    currency := s.currency
    name := s.name
    curatedImpact := some s.curatedTier
    period := some (s.periodFor d.1)
    zone := s.zone
    localTime := s.localTime
    certainty := s.certainty.text }

/-- `expand`: the rows of a series in a window. -/
def expand (ops : SourceOps) (startNs endNs : ℤ) : Except FetchError (List RawRow) :=
  (s.dated ops startNs endNs).map fun occurrences => occurrences.map s.row

end ReleaseSeries

def RawRow.sooner (a b : RawRow) : Bool := decide (a.eventNs ≤ b.eventNs)

variable (ops : SourceOps)

def recurringScheduleSource (series : List ReleaseSeries) : CalendarSource where
  name := "bundled_pattern"
  fetch startNs endNs := do
    let rows ← series.mapM fun s => s.expand ops startNs endNs
    return rows.flatten.mergeSort RawRow.sooner

/-! ## A file of dated releases -/

/-- A line of the file; `none` where the column or the field is missing. -/
structure CsvLine where
  timestampUtc : Option String
  currency : Option String
  name : Option String
  impact : Option String
  seriesId : Option String := none
  period : Option String := none

inductive LineError where
  | unparseableTimestamp
  | fieldsRequired
  deriving DecidableEq

def pdToNs (text : Option String) : Option ℤ :=
  let value := TextOps.strip (text.getD "")
  if value = "" then none else ops.toNs value

/-- `strftime("%Y-%m")` of an instant. -/
def monthOf (ns : ℤ) : String :=
  let date := CivilDate.ofDay (dayOf (ops.fromTimestamp ns))
  monthText date.year date.month

namespace CsvLine

def read (ops : SourceOps) (l : CsvLine) : Except LineError RawRow :=
  match pdToNs ops l.timestampUtc with
  | none => .error .unparseableTimestamp
  | some stamp =>
      let currency := ops.upper (TextOps.strip (l.currency.getD ""))
      let name := TextOps.strip (l.name.getD "")
      let impact := ops.lower (TextOps.strip (orText l.impact "medium"))
      if currency = "" ∨ name = "" ∨ impact ∉ ["high", "medium", "low"] then
        .error .fieldsRequired
      else
        let series := TextOps.strip (orText l.seriesId (currency ++ ":" ++ name))
        let period := TextOps.strip (orText l.period (monthOf ops stamp))
        .ok
          { eventId := some (series ++ ":" ++ period ++ ":" ++ toString stamp)
            seriesId := some series
            eventNs := stamp
            currency := currency
            name := name
            curatedImpact := some impact
            period := some period
            zone := "UTC"
            certainty := Certainty.confirmed.text }

end CsvLine

def readRows (lines : List CsvLine) : Except LineError (List RawRow) :=
  (lines.mapM (CsvLine.read ops)).map fun rows => rows.mergeSort RawRow.sooner

/-- `HistoricalCalendarSource`, from the rows of its file. -/
def historicalCalendarSource (rows : List RawRow) : CalendarSource where
  name := "historical_csv"
  fetch startNs endNs := .ok (rows.filter fun r => startNs ≤ r.eventNs ∧ r.eventNs ≤ endNs)

end Sentinel
