import Mathlib.Tactic.Ring
import Sentinel.Core.CivilDates

/-!
# Summer time

The readings of a year's summer time, and where a local reading comes back from its
instant.  By either rule it does, but for an hour on the day that the clocks go forward.
-/

namespace Sentinel

theorem lt_day_iff (t day hour : ℤ) (h0 : 0 ≤ hour) (h24 : hour ≤ 24) :
    t < day * dayNs + hour * hourNs ↔ dayOf t < day ∨ dayOf t = day ∧ hourOf t < hour := by
  simp only [dayOf, hourOf, dayNs, hourNs, minuteNs]
  omega

theorem dayOf_mono {t u : ℤ} (h : t ≤ u) : dayOf t ≤ dayOf u :=
  Int.ediv_le_ediv (by decide) h

theorem CivilDate.year_of_months {year month month' day : ℤ} (hmonth : 1 ≤ month)
    (hmonth' : month' ≤ 12) (h : monthStart (year * 12 + month - 1) ≤ day)
    (h' : day < monthStart (year * 12 + month')) : (ofDay day).year = year := by
  have hlower := (number_ofDay_iff day (ofDay day).number).mp rfl
  have hstart : year * 12 + month - 1 < (ofDay day).number + 1 := by
    by_contra hle
    have hmono := monthStart_mono (not_lt.mp hle)
    omega
  have hend : (ofDay day).number < year * 12 + month' := by
    by_contra hle
    have hmono := monthStart_mono (not_lt.mp hle)
    omega
  rw [year_ofDay]
  omega

namespace TzRules

theorem summerTime_iff {start stop : ℤ} (h : start < stop) (t : ℤ) :
    summerTime start stop t = true ↔
      (start < dayOf t ∨ dayOf t = start ∧ 2 ≤ hourOf t) ∧
        (dayOf t < stop ∨ dayOf t = stop ∧ hourOf t < 2) := by
  simp only [summerTime]
  split_ifs with hout hin hfirst
  · simp only [false_iff]
    omega
  · simp only [true_iff]
    omega
  · rw [decide_eq_true_iff]
    omega
  · rw [decide_eq_true_iff]
    omega

structure Switches (start stop : ℤ → ℤ) : Prop where
  span : ∀ year, start year + 1 < stop year
  start_year : ∀ year, (CivilDate.ofDay (start year - 1)).year = year
  stop_year : ∀ year, (CivilDate.ofDay (stop year + 1)).year = year

theorem toDay_first (year : ℤ) {month : ℤ} (h : 1 ≤ month) (h' : month ≤ 12) :
    CivilDate.toDay ⟨year, month, 1⟩ = CivilDate.monthStart (year * 12 + month - 1) := by
  rw [CivilDate.toDay_eq _ h h', add_sub_cancel_right]
  rfl

theorem monthStart_add_le (k : ℤ) :
    CivilDate.monthStart k + 28 ≤ CivilDate.monthStart (k + 1) := by
  have hsucc := CivilDate.monthStart_succ k
  have hlength := CivilDate.monthLength_pos (k / 12) (k % 12 + 1)
  omega

theorem nthWeekday_bounds (year weekday n : ℤ) {month : ℤ} (h : 1 ≤ month) (h' : month ≤ 12) :
    CivilDate.monthStart (year * 12 + month - 1) + (n - 1) * 7 ≤ nthWeekday year month weekday n ∧
      nthWeekday year month weekday n <
        CivilDate.monthStart (year * 12 + month - 1) + (n - 1) * 7 + 7 := by
  rw [nthWeekday, toDay_first year h h']
  omega

theorem lastWeekday_bounds (year weekday : ℤ) {month : ℤ} (h : 1 ≤ month) (h' : month < 12) :
    CivilDate.monthStart (year * 12 + month - 1 + 1) - 7 ≤ lastWeekday year month weekday ∧
      lastWeekday year month weekday < CivilDate.monthStart (year * 12 + month - 1 + 1) := by
  have hfirst := toDay_first year (show 1 ≤ month + 1 by omega) h'
  rw [show year * 12 + (month + 1) - 1 = year * 12 + month - 1 + 1 by omega] at hfirst
  simp only [lastWeekday, if_neg h'.ne, hfirst]
  omega

theorem switches_of_bounds {start stop : ℤ → ℤ} {month month' : ℤ} (hmonth : 1 ≤ month)
    (hless : month + 1 < month') (hmonth' : month' < 12)
    (hstart : ∀ year, CivilDate.monthStart (year * 12 + month - 1) < start year ∧
      start year < CivilDate.monthStart (year * 12 + month - 1 + 1))
    (hstop : ∀ year, CivilDate.monthStart (year * 12 + month' - 1) ≤ stop year ∧
      stop year < CivilDate.monthStart (year * 12 + month' - 1 + 1)) : Switches start stop := by
  constructor
  · intro year
    have hmono := CivilDate.monthStart_mono
      (show year * 12 + month - 1 + 1 + 1 ≤ year * 12 + month' - 1 by omega)
    have hlong := monthStart_add_le (year * 12 + month - 1 + 1)
    have hfirst := hstart year
    have hlast := hstop year
    omega
  · intro year
    have hfirst := hstart year
    refine CivilDate.year_of_months hmonth (show month ≤ 12 by omega) ?_ ?_
    · omega
    · rw [show year * 12 + month = year * 12 + month - 1 + 1 by omega]
      omega
  · intro year
    have hlong := monthStart_add_le (year * 12 + month' - 1 + 1)
    have hlast := hstop year
    refine CivilDate.year_of_months (show 1 ≤ month' by omega) (show month' + 1 ≤ 12 by omega)
      ?_ ?_
    · omega
    · rw [show year * 12 + (month' + 1) = year * 12 + month' - 1 + 1 + 1 by omega]
      omega

theorem switches_us : Switches (fun year => nthWeekday year 3 6 2)
    (fun year => nthWeekday year 11 6 1) := by
  refine switches_of_bounds (show (1 : ℤ) ≤ 3 by decide) (show (3 : ℤ) + 1 < 11 by decide)
    (show (11 : ℤ) < 12 by decide) ?_ ?_
  · intro year
    have hlong := monthStart_add_le (year * 12 + 3 - 1)
    have hbounds := nthWeekday_bounds year 6 2
      (show (1 : ℤ) ≤ 3 by decide) (show (3 : ℤ) ≤ 12 by decide)
    omega
  · intro year
    have hlong := monthStart_add_le (year * 12 + 11 - 1)
    have hbounds := nthWeekday_bounds year 6 1
      (show (1 : ℤ) ≤ 11 by decide) (show (11 : ℤ) ≤ 12 by decide)
    omega

theorem switches_eu : Switches (fun year => lastWeekday year 3 6)
    (fun year => lastWeekday year 10 6) := by
  refine switches_of_bounds (show (1 : ℤ) ≤ 3 by decide) (show (3 : ℤ) + 1 < 10 by decide)
    (show (10 : ℤ) < 12 by decide) ?_ ?_
  · intro year
    have hlong := monthStart_add_le (year * 12 + 3 - 1)
    have hbounds := lastWeekday_bounds year 6
      (show (1 : ℤ) ≤ 3 by decide) (show (3 : ℤ) < 12 by decide)
    omega
  · intro year
    have hlong := monthStart_add_le (year * 12 + 10 - 1)
    have hbounds := lastWeekday_bounds year 6
      (show (1 : ℤ) ≤ 10 by decide) (show (10 : ℤ) < 12 by decide)
    omega

/-! ## Readings near a reading -/

def summerOf (start stop : ℤ → ℤ) (moment : ℤ) : Bool :=
  let year := (CivilDate.ofDay (dayOf moment)).year
  summerTime (start year) (stop year) moment

def twoOf (day : ℤ) : ℤ := day * dayNs + 2 * hourNs

variable {start stop : ℤ → ℤ}

theorem Switches.near (h : Switches start stop) {x t : ℤ} (hnear : |t - x| ≤ 12 * hourNs) :
    let year := (CivilDate.ofDay (dayOf x)).year
    summerOf start stop t = true ↔ twoOf (start year) ≤ t ∧ t < twoOf (stop year) := by
  intro year
  obtain ⟨other, hother⟩ : ∃ other, other = (CivilDate.ofDay (dayOf t)).year := ⟨_, rfl⟩
  have hdays : dayOf x - 1 ≤ dayOf t ∧ dayOf t ≤ dayOf x + 1 := by
    rw [abs_le] at hnear
    simp only [dayOf, dayNs, hourNs, minuteNs] at hnear ⊢
    omega
  have hspan : start other < stop other := (lt_add_one _).trans (h.span other)
  have hspan' : start year < stop year := (lt_add_one _).trans (h.span year)
  have hafter := not_congr (lt_day_iff t (start year) 2 (by decide) (by decide))
  have hbefore := lt_day_iff t (stop year) 2 (by decide) (by decide)
  rw [not_lt] at hafter
  rw [summerOf, ← hother, summerTime_iff hspan, twoOf, twoOf, hafter, hbefore]
  rcases lt_trichotomy other year with hless | heq | hgreater
  · -- the reading is of an earlier year: its summer time is over, that of the later not begun
    have hend : stop other + 1 < dayOf x := by
      by_contra hle
      have hmono := CivilDate.year_ofDay_mono (not_lt.mp hle)
      rw [h.stop_year] at hmono
      exact absurd hless (not_lt.mpr hmono)
    have hbegin : dayOf t < start year - 1 := by
      by_contra hle
      have hmono := CivilDate.year_ofDay_mono (not_lt.mp hle)
      rw [h.start_year, ← hother] at hmono
      exact absurd hless (not_lt.mpr hmono)
    omega
  · rw [heq]
    omega
  · have hend : stop year + 1 < dayOf t := by
      by_contra hle
      have hmono := CivilDate.year_ofDay_mono (not_lt.mp hle)
      rw [h.stop_year, ← hother] at hmono
      exact absurd hgreater (not_lt.mpr hmono)
    have hbegin : dayOf x < start other - 1 := by
      by_contra hle
      have hmono := CivilDate.year_ofDay_mono (not_lt.mp hle)
      rw [h.start_year] at hmono
      exact absurd hgreater (not_lt.mpr hmono)
    omega

/-! ## From readings to instants and back -/

def summerOffset (start stop : ℤ → ℤ) (base moment : ℤ) : ℤ :=
  base + if summerOf start stop moment then 1 else 0

theorem summerOffset_bounds (start stop : ℤ → ℤ) (base moment : ℤ) :
    base ≤ summerOffset start stop base moment ∧
      summerOffset start stop base moment ≤ base + 1 := by
  rw [summerOffset]
  split_ifs
  · omega
  · omega

def Skipped (start : ℤ → ℤ) (base x : ℤ) : Prop :=
  dayOf x = start (CivilDate.ofDay (dayOf x)).year ∧ hourOf x = if base < 0 then 1 else 2

theorem guess_agrees_iff {day stop base x : ℤ} {atX atU atGuess : Bool} (hlow : -11 ≤ base)
    (hspan : day + 1 < stop)
    (hx : atX = true ↔ twoOf day ≤ x ∧ x < twoOf stop)
    (hu : atU = true ↔ twoOf day ≤ x - (base + if atX then 1 else 0) * hourNs ∧
      x - (base + if atX then 1 else 0) * hourNs < twoOf stop)
    (hguess : atGuess = true ↔
      twoOf day ≤ x + ((if atU then 1 else 0) - if atX then 1 else 0) * hourNs ∧
        x + ((if atU then 1 else 0) - if atX then 1 else 0) * hourNs < twoOf stop) :
    (atGuess = atX ↔ ¬ (dayOf x = day ∧ hourOf x = if base < 0 then 1 else 2)) ∧
      dayOf (x + ((if atGuess then 1 else 0) - if atX then 1 else 0) * hourNs) = dayOf x := by
  simp only [twoOf, dayOf, hourOf, dayNs, hourNs, minuteNs] at hx hu hguess ⊢
  rcases lt_or_ge base 0 with hwest | heast
  · rw [if_pos hwest]
    cases atX <;> cases atU <;> cases atGuess <;>
      simp only [Bool.false_eq_true, Bool.true_eq_false, if_true, if_false, true_iff,
        false_iff] at hx hu hguess ⊢ <;>
      omega
  · rw [if_neg (not_lt.mpr heast)]
    cases atX <;> cases atU <;> cases atGuess <;>
      simp only [Bool.false_eq_true, Bool.true_eq_false, if_true, if_false, true_iff,
        false_iff] at hx hu hguess ⊢ <;>
      omega

theorem Switches.roundTrip (h : Switches start stop) {base : ℤ} (hlow : -11 ≤ base)
    (hhigh : base ≤ 10) (x : ℤ) :
    let u := x - summerOffset start stop base x * hourNs
    let reading := u + summerOffset start stop base
      (u + summerOffset start stop base u * hourNs) * hourNs
    (reading = x ↔ ¬ Skipped start base x) ∧ dayOf reading = dayOf x := by
  intro u reading
  have hx := h.near (show |x - x| ≤ 12 * hourNs by simp [hourNs, minuteNs])
  have hu := h.near (show |u - x| ≤ 12 * hourNs by
    obtain ⟨hx0, hx1⟩ := summerOffset_bounds start stop base x
    rw [abs_le]
    simp only [u, hourNs, minuteNs]
    omega)
  have hguessEq : u + summerOffset start stop base u * hourNs =
      x + ((if summerOf start stop u then 1 else 0) - if summerOf start stop x then 1 else 0) *
        hourNs := by
    simp only [u, summerOffset]
    ring
  have hguess := h.near (show |u + summerOffset start stop base u * hourNs - x| ≤
      12 * hourNs by
    rw [hguessEq, abs_le]
    simp only [hourNs, minuteNs]
    split_ifs
    all_goals omega)
  have hreading : reading = x + ((if summerOf start stop
      (u + summerOffset start stop base u * hourNs) then 1 else 0) -
        if summerOf start stop x then 1 else 0) * hourNs := by
    simp only [reading, u, summerOffset]
    ring
  rw [hguessEq] at hguess hreading
  obtain ⟨hagrees, hday⟩ := guess_agrees_iff hlow (h.span _) hx hu hguess
  rw [hreading]
  refine ⟨?_, hday⟩
  rw [Skipped, ← hagrees]
  generalize summerOf start stop (x + _ * hourNs) = atGuess
  generalize summerOf start stop x = atX
  rcases atGuess with _ | _
  · rcases atX with _ | _
    · simp
    · simp [hourNs, minuteNs]
  · rcases atX with _ | _
    · simp [hourNs, minuteNs]
    · simp

/-! ## The zones -/

def zones : List String :=
  ["America/New_York", "Europe/Frankfurt", "Europe/London", "Asia/Tokyo", "UTC"]

theorem mem_zones_of_offset {zone : String} {moment hours : ℤ}
    (h : utcOffsetHours zone moment = some hours) : zone ∈ zones := by
  simp only [utcOffsetHours] at h
  split at h
  · decide
  · decide
  · decide
  · decide
  · decide
  · cases h

def inSkippedHour (zone : String) (x : ℤ) : Prop :=
  let year := (CivilDate.ofDay (dayOf x)).year
  match zone with
  | "America/New_York" => dayOf x = nthWeekday year 3 6 2 ∧ hourOf x = 1
  | "Europe/Frankfurt" => dayOf x = lastWeekday year 3 6 ∧ hourOf x = 2
  | "Europe/London" => dayOf x = lastWeekday year 3 6 ∧ hourOf x = 2
  | _ => False

theorem exists_utcToLocal {zone : String} (h : zone ∈ zones) (u : ℤ) :
    ∃ reading, utcToLocal u zone = some reading := by
  simp only [zones, List.mem_cons, List.not_mem_nil, or_false] at h
  rcases h with rfl | rfl | rfl | rfl | rfl
  all_goals exact ⟨_, rfl⟩

theorem utcToLocal_localToUtcNs {zone : String} (h : zone ∈ zones) (x : ℤ) :
    ∃ u reading, localToUtcNs x zone = some u ∧ utcToLocal u zone = some reading ∧
      (reading = x ↔ ¬ inSkippedHour zone x) ∧ dayOf reading = dayOf x := by
  have hfixed : ∀ base : ℤ, (x - base * hourNs + base * hourNs = x ↔ ¬ False) ∧
      dayOf (x - base * hourNs + base * hourNs) = dayOf x := by
    intro base
    rw [sub_add_cancel]
    simp
  simp only [zones, List.mem_cons, List.not_mem_nil, or_false] at h
  rcases h with rfl | rfl | rfl | rfl | rfl
  · exact ⟨_, _, rfl, rfl, switches_us.roundTrip (show (-11 : ℤ) ≤ -5 by decide) (by decide) x⟩
  · exact ⟨_, _, rfl, rfl, switches_eu.roundTrip (show (-11 : ℤ) ≤ 1 by decide) (by decide) x⟩
  · have htrip := switches_eu.roundTrip (show (-11 : ℤ) ≤ 0 by decide) (by decide) x
    simp only [summerOffset, zero_add] at htrip
    exact ⟨_, _, rfl, rfl, htrip⟩
  · exact ⟨_, _, rfl, rfl, hfixed 9⟩
  · exact ⟨_, _, rfl, rfl, hfixed 0⟩

end TzRules

end Sentinel
