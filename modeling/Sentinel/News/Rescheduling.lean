import Sentinel.Core.SummerTime
import Sentinel.News.Calendar

/-!
# Rescheduling for summer time

A release is moved to the instant of its local time on the day that its stored instant
shows in its zone.  Near midnight that day may be the one before or after.
-/

namespace Sentinel

def wallReading (day hour minute : ℤ) : ℤ := day * dayNs + hour * hourNs + minute * minuteNs

theorem clockOf_bounds {localTime : String} {hour minute : ℤ}
    (h : clockOf localTime = some (hour, minute)) :
    0 ≤ hour ∧ hour ≤ 23 ∧ 0 ≤ minute ∧ minute ≤ 59 := by
  rw [clockOf] at h
  have hfound : ∀ {hour' : ℤ} {found : Option ℤ}, (found.bind fun minute' =>
      if 0 ≤ hour' ∧ hour' ≤ 23 ∧ 0 ≤ minute' ∧ minute' ≤ 59 then some (hour', minute')
      else none) = some (hour, minute) → 0 ≤ hour ∧ hour ≤ 23 ∧ 0 ≤ minute ∧ minute ≤ 59 := by
    intro hour' found hfound
    obtain ⟨minute', -, hfound⟩ := Option.bind_eq_some_iff.mp hfound
    split_ifs at hfound with hbounds
    obtain ⟨rfl, rfl⟩ := Prod.mk.inj (Option.some.inj hfound)
    exact hbounds
  obtain ⟨hour', -, h⟩ := Option.bind_eq_some_iff.mp h
  split_ifs at h
  · exact hfound h
  · exact hfound h

theorem dayOf_wallReading {localTime : String} {hour minute : ℤ}
    (h : clockOf localTime = some (hour, minute)) (day : ℤ) :
    dayOf (wallReading day hour minute) = day := by
  obtain ⟨hhour, hhour', hminute, hminute'⟩ := clockOf_bounds h
  simp only [wallReading, dayOf, dayNs, hourNs, minuteNs]
  omega

namespace CalendarEvent

/-- The rows that `reschedule_for_dst` looks at. -/
def Due (fromNs toNs : ℤ) (r : CalendarEvent) : Prop :=
  fromNs ≤ r.eventNs ∧ r.eventNs ≤ toNs ∧ r.localTime ≠ "" ∧ r.status = "scheduled"

theorem rescheduled_of_due {fromNs toNs : ℤ} {r : CalendarEvent} (h : r.Due fromNs toNs) :
    r.rescheduled fromNs toNs = { r with eventNs := r.recomputed.getD r.eventNs } := by
  rw [rescheduled]
  exact if_pos h

theorem recomputed_eq {r : CalendarEvent} {hour minute : ℤ}
    (hclock : clockOf r.localTime = some (hour, minute)) :
    r.recomputed = (TzRules.utcToLocal r.eventNs r.zone).bind fun reading =>
      TzRules.localToUtcNs (wallReading (dayOf reading) hour minute) r.zone := by
  rw [recomputed, hclock]
  rfl

theorem recomputed_again {r : CalendarEvent} {want : ℤ} (h : r.recomputed = some want) :
    recomputed { r with eventNs := want } = some want := by
  rcases hclock : clockOf r.localTime with _ | ⟨hour, minute⟩
  · rw [recomputed, hclock] at h
    cases h
  · rw [recomputed_eq hclock, Option.bind_eq_some_iff] at h
    obtain ⟨shown, -, hwant⟩ := h
    have hzone : r.zone ∈ TzRules.zones := by
      rw [TzRules.localToUtcNs, Option.map_eq_some_iff] at hwant
      obtain ⟨hours, hhours, -⟩ := hwant
      exact TzRules.mem_zones_of_offset hhours
    obtain ⟨u, reading, hu, hreading, -, hday⟩ :=
      TzRules.utcToLocal_localToUtcNs hzone (wallReading (dayOf shown) hour minute)
    rw [hwant] at hu
    obtain rfl := Option.some.inj hu
    rw [dayOf_wallReading hclock] at hday
    rw [recomputed_eq (r := { r with eventNs := want }) hclock, hreading, Option.bind_some, hday]
    exact hwant

theorem rescheduled_again (fromNs toNs : ℤ) (r : CalendarEvent) :
    (r.rescheduled fromNs toNs).rescheduled fromNs toNs = r.rescheduled fromNs toNs := by
  by_cases hdue : r.Due fromNs toNs
  · rw [rescheduled_of_due hdue]
    rcases hwant : r.recomputed with _ | want
    · rw [Option.getD_none, rescheduled_of_due hdue, hwant]
      rfl
    · rw [Option.getD_some, rescheduled, recomputed_again hwant]
      split_ifs
      · rfl
      · rfl
  · have hkept : r.rescheduled fromNs toNs = r := if_neg hdue
    rw [hkept, hkept]

end CalendarEvent

namespace EventTable

def KeepsSchedule (t : EventTable) (fromNs toNs : ℤ) (r : CalendarEvent) (reading : ℤ) : Prop :=
  ∃ r' ∈ (t.rescheduleForDst fromNs toNs).2.rows, r'.eventId = r.eventId ∧
    TzRules.utcToLocal r'.eventNs r'.zone = some reading ∧ |r'.eventNs - r.eventNs| ≤ hourNs ∧
    r' ∈ ((t.rescheduleForDst fromNs toNs).2.rescheduleForDst fromNs toNs).2.rows

theorem mem_rescheduleForDst {t : EventTable} {r r' : CalendarEvent} (hr : r ∈ t.rows)
    (fromNs toNs : ℤ) : r' ∈ (t.rescheduleForDst fromNs toNs).2.rows ∧ r'.eventId = r.eventId ↔
      r' = r.rescheduled fromNs toNs := by
  constructor
  · rintro ⟨hmem, hid⟩
    obtain ⟨q, hq, rfl⟩ := List.mem_map.mp hmem
    rw [q.eventId_rescheduled] at hid
    rw [List.inj_on_of_nodup_map t.nodup hq hr hid]
  · rintro rfl
    exact ⟨List.mem_map.mpr ⟨r, hr, rfl⟩, r.eventId_rescheduled fromNs toNs⟩

/-- A release keeps its schedule exactly where its instant shows its date, is an hour at
most from that of its date and time, and these are not in the skipped hour. -/
theorem keepsSchedule_iff (t : EventTable) {r : CalendarEvent} (hr : r ∈ t.rows)
    {fromNs toNs : ℤ} (hdue : r.Due fromNs toNs) {hour minute : ℤ}
    (hclock : clockOf r.localTime = some (hour, minute)) (hzone : r.zone ∈ TzRules.zones)
    (day : ℤ) :
    t.KeepsSchedule fromNs toNs r (wallReading day hour minute) ↔
      (TzRules.utcToLocal r.eventNs r.zone).map dayOf = some day ∧
        (∃ instant, TzRules.localToUtcNs (wallReading day hour minute) r.zone = some instant ∧
          |instant - r.eventNs| ≤ hourNs) ∧
        ¬ TzRules.inSkippedHour r.zone (wallReading day hour minute) := by
  obtain ⟨shown, hshown⟩ := TzRules.exists_utcToLocal hzone r.eventNs
  obtain ⟨want, reading, hwant, hreading, htrip, hday⟩ :=
    TzRules.utcToLocal_localToUtcNs hzone (wallReading (dayOf shown) hour minute)
  rw [dayOf_wallReading hclock] at hday
  have hmoved : r.rescheduled fromNs toNs = { r with eventNs := want } := by
    rw [CalendarEvent.rescheduled_of_due hdue, CalendarEvent.recomputed_eq hclock, hshown,
      Option.bind_some, hwant, Option.getD_some]
  rw [hshown, Option.map_some, Option.some.injEq]
  constructor
  · rintro ⟨r', hr', hid, hshows, hclose, -⟩
    rw [(mem_rescheduleForDst hr fromNs toNs).mp ⟨hr', hid⟩, hmoved] at hshows hclose
    rw [hreading] at hshows
    have hreading := Option.some.inj hshows
    rw [hreading, dayOf_wallReading hclock] at hday
    subst hday
    exact ⟨rfl, ⟨want, hwant, hclose⟩, htrip.mp hreading⟩
  · rintro ⟨rfl, ⟨instant, hinstant, hclose⟩, hskipped⟩
    obtain rfl := Option.some.inj (hwant.symm.trans hinstant)
    obtain ⟨hmem, hid⟩ := (mem_rescheduleForDst hr fromNs toNs).mpr rfl
    refine ⟨_, hmem, hid, ?_, ?_, ?_⟩
    · rw [hmoved]
      simp only
      rw [hreading, htrip.mpr hskipped]
    · rw [hmoved]
      exact hclose
    · have hagain := (mem_rescheduleForDst hmem fromNs toNs).mpr rfl
      rw [CalendarEvent.rescheduled_again] at hagain
      exact hagain.1

def winterRelease (localTime : String) (hour minute : ℤ) : CalendarEvent where
  eventId := "release"
  eventNs := wallReading (CivilDate.toDay ⟨2026, 2, 11⟩) hour minute + 4 * hourNs
  currency := "USD"
  name := "release"
  zone := "America/New_York"
  localTime := localTime

def winterTable (localTime : String) (hour minute : ℤ) : EventTable :=
  ⟨[winterRelease localTime hour minute], List.nodup_singleton _⟩

/-- In the morning it is moved by an hour. -/
theorem keepsSchedule_morning : (winterTable "08:30" 8 30).KeepsSchedule 0 (2 * 10 ^ 18)
    (winterRelease "08:30" 8 30) (wallReading (CivilDate.toDay ⟨2026, 2, 11⟩) 8 30) :=
  (keepsSchedule_iff (winterTable "08:30" 8 30) (List.mem_singleton_self _)
    (by refine ⟨?_, ?_, ?_, rfl⟩ <;> decide +kernel) (by decide +kernel) (by decide)
    (CivilDate.toDay ⟨2026, 2, 11⟩)).mpr
    ⟨by decide +kernel, ⟨_, rfl, by decide +kernel⟩, fun h => absurd h.2 (by decide +kernel)⟩

/-- After midnight it is moved by a day less an hour. -/
theorem midnight_moves : (winterRelease "00:30" 0 30).Due 0 (2 * 10 ^ 18) ∧
    ((winterRelease "00:30" 0 30).rescheduled 0 (2 * 10 ^ 18)).eventNs =
      (winterRelease "00:30" 0 30).eventNs - 23 * hourNs ∧
    ∀ reading, ¬ (winterTable "00:30" 0 30).KeepsSchedule 0 (2 * 10 ^ 18)
      (winterRelease "00:30" 0 30) reading := by
  have hmoved : ((winterRelease "00:30" 0 30).rescheduled 0 (2 * 10 ^ 18)).eventNs =
      (winterRelease "00:30" 0 30).eventNs - 23 * hourNs := by
    decide +kernel
  refine ⟨by refine ⟨?_, ?_, ?_, rfl⟩ <;> decide +kernel, hmoved, ?_⟩
  rintro reading ⟨r', hr', hid, -, hclose, -⟩
  have hrow : winterRelease "00:30" 0 30 ∈ (winterTable "00:30" 0 30).rows :=
    List.mem_singleton_self _
  rw [(mem_rescheduleForDst hrow 0 (2 * 10 ^ 18)).mp ⟨hr', hid⟩, hmoved, sub_sub_cancel_left,
    abs_neg] at hclose
  exact absurd hclose (by decide)

end EventTable

end Sentinel
