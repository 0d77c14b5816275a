import Sentinel.Agent.State

/-!
# Budget periods and the rolling day

The venue's day rolls at 17:00 New York; weeks are ISO weeks, months and years
those of the UTC calendar.  Beside them runs a window of equity marks over the
last twenty-four hours.
-/

namespace Sentinel

/-! ## The calendar -/

def utcDays (nowNs : ℤ) : ℤ := nowNs / 86400000000000

def civil (days : ℤ) : ℤ × ℤ :=
  let shifted := days + 719468
  let era := shifted / 146097
  let dayOfEra := shifted % 146097
  let yearOfEra :=
    (dayOfEra - dayOfEra / 1460 + dayOfEra / 36524 - dayOfEra / 146096) / 365
  let dayOfYear := dayOfEra - (365 * yearOfEra + yearOfEra / 4 - yearOfEra / 100)
  let monthFromMarch := (5 * dayOfYear + 2) / 153
  let month := if monthFromMarch < 10 then monthFromMarch + 3 else monthFromMarch - 9
  let year := yearOfEra + era * 400
  (if month ≤ 2 then year + 1 else year, month)

def newYear (year : ℤ) : ℤ :=
  let before := year - 1
  365 * before + before / 4 - before / 100 + before / 400 - 719162

/-- `isocalendar()`: the year and the number of the week. -/
def isoWeek (days : ℤ) : ℤ × ℤ :=
  let thursday := days - (days + 3) % 7 + 3
  let year := (civil thursday).1
  (year, (thursday - newYear year) / 7 + 1)

example : civil 19782 = (2024, 2) ∧ isoWeek 19723 = (2024, 1) ∧ isoWeek 18628 = (2020, 53) := by
  decide

/-- `_venue_day`: the ordinal of the venue's trading day. -/
def venueDay (nowNs : ℤ) : ℤ := utcDays (nowNs - 21 * 3600000000000) + 719163

namespace Agent

variable (a : Agent) (nowNs : ℤ) (equity : Dec)

def rollDay (day : ℤ) (equity : Dec) : Agent :=
  if a.dayKey = some day then a
  else
    { a with
      dayKey := some day, dayStartEquity := equity, tradesToday := 0, dayProfitLocked := false }

def rollWeek (week : ℤ × ℤ) (equity : Dec) : Agent :=
  if a.weekKey = some week then a
  else { a with weekKey := some week, weekStartEquity := equity, tradesWeek := 0 }

def rollMonth (month : ℤ × ℤ) (equity : Dec) : Agent :=
  if a.monthKey = some month then a
  else { a with monthKey := some month, monthStartEquity := equity }

def rollYear (year : ℤ) : Agent :=
  if a.yearKey = some year then a
  else { a with yearKey := some year, tradesYear := 0 }

def rollPeriods : Agent :=
  let month := civil (utcDays nowNs)
  (((a.rollDay (venueDay nowNs) equity).rollWeek (isoWeek (utcDays nowNs)) equity).rollMonth
    month equity).rollYear month.1

/-- `_rolling_24h_pnl`: the change of equity over the last day, from at most one
mark in five minutes. -/
def rolling24hPnl : Agent × Dec :=
  let bucket := 300000000000
  let marked :=
    if a.equityMarks.items.getLast?.any fun mark => nowNs / bucket = mark.1 / bucket then
      a.equityMarks
    else a.equityMarks.push (nowNs, equity)
  let kept : BoundedList 400 (ℤ × Dec) :=
    ⟨marked.items.dropWhile fun mark => mark.1 < nowNs - 86400000000000,
      (List.dropWhile_suffix _).length_le.trans marked.length_le⟩
  ({ a with equityMarks := kept },
    match kept.items.head? with
    | none => 0
    | some mark => equity - mark.2)

theorem rollPeriods_counters : let b := a.rollPeriods nowNs equity
    b.tradesToday = (if a.dayKey = some (venueDay nowNs) then a.tradesToday else 0) ∧
      b.tradesWeek = (if a.weekKey = some (isoWeek (utcDays nowNs)) then a.tradesWeek else 0) ∧
      b.tradesYear =
        (if a.yearKey = some (civil (utcDays nowNs)).1 then a.tradesYear else 0) := by
  simp only [rollPeriods, rollYear, rollMonth, rollWeek, rollDay]
  refine ⟨?_, ?_, ?_⟩
  · split_ifs <;> rfl
  · split_ifs <;> rfl
  · split_ifs <;> rfl

@[simp] theorem rollPeriods_positionMeta :
    (a.rollPeriods nowNs equity).positionMeta = a.positionMeta := by
  simp only [rollPeriods, rollYear, rollMonth, rollWeek, rollDay]
  split_ifs <;> rfl

end Agent

end Sentinel
