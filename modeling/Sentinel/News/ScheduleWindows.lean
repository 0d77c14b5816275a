import Mathlib.Data.Int.ConditionallyCompleteOrder
import Sentinel.News.Rescheduling
import Sentinel.News.Schedule
import Sentinel.Support.Windows

/-!
# Recurrence rules and the window of the query

A rule that names months generates one date for each month of the window, which
is widened by a day on each side.  A date that the rule moves out of its month
is generated by that month alone, so a window that does not reach the month
misses it.  No other date is missed.
-/

namespace Sentinel

structure QueryWindow where
  startNs : ℤ
  endNs : ℤ

namespace QueryWindow

def holds (w : QueryWindow) (ns : ℤ) : Bool := w.startNs ≤ ns ∧ ns ≤ w.endNs

def firstDay (ops : SourceOps) (w : QueryWindow) : ℤ := dayOf (ops.fromTimestamp w.startNs) - 1

def lastDay (ops : SourceOps) (w : QueryWindow) : ℤ := dayOf (ops.fromTimestamp w.endNs) + 1

structure Inside (w w' : QueryWindow) : Prop where
  start : w'.startNs ≤ w.startNs
  stop : w.endNs ≤ w'.endNs

end QueryWindow

/-- `fromtimestamp(ns / 1e9)` keeps the order and is less than a second off. -/
structure SourceOps.ReadsTime (ops : SourceOps) : Prop where
  mono : Monotone ops.fromTimestamp
  near : ∀ ns, |ops.fromTimestamp ns - ns| < 1000000000

namespace ReleaseSeries

open Recurrence

/-! ## The rules by months -/

variable (s : ReleaseSeries)

def cycle : Option (ℤ × ℤ) :=
  match s.recurrence with
  | .nthWeekday _ _ every anchor => some (every, anchor)
  | .nthBusinessDay _ every anchor => some (every, anchor)
  | .dayWindow _ _ _ every anchor => some (every, anchor)
  | _ => none

def dateIn (ym : ℤ × ℤ) : Except FetchError (Option ℤ) :=
  match s.recurrence with
  | .nthWeekday weekday nth _ _ => .ok (nthWeekdayOf ym.1 ym.2 weekday nth)
  | .nthBusinessDay nth _ _ => .ok (nthBusinessDayOf ym.1 ym.2 nth)
  | .dayWindow typical earliest weekdaysOnly _ _ =>
      (dayInWindow ((typical.or earliest).getD 15) weekdaysOnly ym).map some
  | _ => .ok none

def monthsIn (ops : SourceOps) (w : QueryWindow) : List (ℤ × ℤ) :=
  match s.cycle with
  | some (every, anchor) =>
      ((monthsOf (w.firstDay ops) (w.lastDay ops) every anchor).toOption).getD []
  | none => []

def MovedOut (ym : ℤ × ℤ) (day : ℤ) : Prop :=
  (CivilDate.ofDay day).number ≠ ym.1 * 12 + ym.2 - 1

def WindowIndependent (ops : SourceOps) (w w' : QueryWindow) : Prop :=
  ∀ rows, s.expand ops w'.startNs w'.endNs = .ok rows →
    s.expand ops w.startNs w.endNs = .ok (rows.filter fun r => w.holds r.eventNs)

def NoneMovedIn (ops : SourceOps) (w w' : QueryWindow) : Prop :=
  ∀ ym ∈ s.monthsIn ops w', ym ∉ s.monthsIn ops w → ∀ day, s.dateIn ym = .ok (some day) →
    MovedOut ym day → ∀ ns, s.instant day = .ok ns → w.holds ns = false

end ReleaseSeries

/-! ## Instants and days -/

theorem TzRules.utcOffsetHours_bounds {zone : String} {t hours : ℤ}
    (h : utcOffsetHours zone t = some hours) : -5 ≤ hours ∧ hours ≤ 9 := by
  simp only [utcOffsetHours] at h
  split at h
  · split_ifs at h <;> cases h <;> decide
  · split_ifs at h <;> cases h <;> decide
  · split_ifs at h <;> cases h <;> decide
  · cases h
    decide
  · cases h
    decide
  · cases h

namespace ReleaseSeries

structure Timed (s : ReleaseSeries) (τ : ℤ → ℤ) : Prop where
  instant : ∀ day, s.instant day = .ok (τ day)
  lower : ∀ day, day * dayNs - 9 * hourNs ≤ τ day
  upper : ∀ day, τ day < (day + 1) * dayNs + 5 * hourNs

theorem timed_or_none (s : ReleaseSeries) :
    (∀ day, ∃ why, s.instant day = .error why) ∨ ∃ τ, s.Timed τ := by
  rcases hclock : clockOf s.localTime with - | ⟨hour, minute⟩
  · exact .inl fun day => ⟨_, by rw [instant, hclock]⟩
  · obtain ⟨hhour, hhour', hminute, hminute'⟩ := clockOf_bounds hclock
    by_cases hzone : s.zone ∈ TzRules.zones
    · refine .inr ⟨fun day => (TzRules.localToUtcNs
        (day * dayNs + hour * hourNs + minute * minuteNs) s.zone).getD 0, ?_⟩
      have hns (day : ℤ) : ∃ hours ns,
          TzRules.localToUtcNs (day * dayNs + hour * hourNs + minute * minuteNs) s.zone = some ns ∧
            ns = day * dayNs + hour * hourNs + minute * minuteNs - hours * hourNs ∧
            -5 ≤ hours ∧ hours ≤ 9 := by
        obtain ⟨ns, -, hns, -⟩ := TzRules.utcToLocal_localToUtcNs hzone
          (day * dayNs + hour * hourNs + minute * minuteNs)
        obtain ⟨hours, hhours, rfl⟩ := Option.map_eq_some_iff.mp hns
        exact ⟨hours, _, hns, rfl, TzRules.utcOffsetHours_bounds hhours⟩
      refine ⟨fun day => ?_, fun day => ?_, fun day => ?_⟩
      · obtain ⟨hours, ns, hsome, -⟩ := hns day
        simp only [instant, hclock, hsome, Option.getD_some]
      · obtain ⟨hours, ns, hsome, rfl, hlow, hhigh⟩ := hns day
        rw [hsome, Option.getD_some]
        simp only [dayNs, hourNs, minuteNs]
        omega
      · obtain ⟨hours, ns, hsome, rfl, hlow, hhigh⟩ := hns day
        rw [hsome, Option.getD_some]
        simp only [dayNs, hourNs, minuteNs]
        omega
    · left
      intro day
      rcases hns : TzRules.localToUtcNs (day * dayNs + hour * hourNs + minute * minuteNs) s.zone
        with - | ns
      · exact ⟨.unknownZone s.zone, by simp only [instant, hclock, hns]⟩
      · obtain ⟨hours, hhours, -⟩ := Option.map_eq_some_iff.mp hns
        exact absurd (TzRules.mem_zones_of_offset hhours) hzone

end ReleaseSeries

namespace QueryWindow

variable {ops : SourceOps} {w w' : QueryWindow}

theorem considered_of_holds (hops : ops.ReadsTime) {s : ReleaseSeries} {τ : ℤ → ℤ}
    (hτ : s.Timed τ) {day : ℤ} (h : w.holds (τ day) = true) :
    w.firstDay ops ≤ day ∧ day ≤ w.lastDay ops := by
  rw [holds, decide_eq_true_iff] at h
  have hlow := hτ.lower day
  have hhigh := hτ.upper day
  have hstart := abs_lt.mp (hops.near w.startNs)
  have hstop := abs_lt.mp (hops.near w.endNs)
  simp only [firstDay, lastDay, dayOf, dayNs, hourNs, minuteNs] at hlow hhigh ⊢
  omega

theorem Inside.refl (w : QueryWindow) : w.Inside w := ⟨le_rfl, le_rfl⟩

theorem Inside.holds (h : w.Inside w') {ns : ℤ} (hns : w.holds ns = true) : w'.holds ns = true := by
  have hstart := h.start
  have hstop := h.stop
  rw [QueryWindow.holds, decide_eq_true_iff] at hns ⊢
  omega

theorem Inside.firstDay_le (h : w.Inside w') (hops : ops.ReadsTime) :
    w'.firstDay ops ≤ w.firstDay ops :=
  sub_le_sub_right (dayOf_mono (hops.mono h.start)) 1

theorem Inside.lastDay_le (h : w.Inside w') (hops : ops.ReadsTime) :
    w.lastDay ops ≤ w'.lastDay ops :=
  add_le_add_left (dayOf_mono (hops.mono h.stop)) 1

end QueryWindow

/-! ## The months of a window -/

namespace Recurrence

def monthAt (k : ℤ) : ℤ × ℤ := (k / 12, k % 12 + 1)

theorem monthIter_eq (start stop : ℤ) :
    monthIter start stop = (Int.range (CivilDate.ofDay start).number
      ((CivilDate.ofDay stop).number + 1)).map monthAt := by
  rw [Int.range, List.map_map, monthIter, add_sub_right_comm]
  rfl

theorem nextMonth_eq (year : ℤ) {month : ℤ} (h : 1 ≤ month) (h' : month ≤ 12) :
    nextMonth year month = CivilDate.monthStart (year * 12 + month) := by
  rw [nextMonth]
  split_ifs with hlast
  · rw [TzRules.toDay_first _ le_rfl (by decide), hlast]
    congr 1
    omega
  · rw [TzRules.toDay_first _ (by omega) (by omega)]
    congr 1
    omega

theorem monthIter_eq_filter {start stop start' stop' : ℤ} (hstart : start' ≤ start)
    (hstop : stop ≤ stop') :
    monthIter start stop = (monthIter start' stop').filter fun ym =>
      (CivilDate.ofDay start).number ≤ ym.1 * 12 + ym.2 - 1 ∧
        ym.1 * 12 + ym.2 - 1 ≤ (CivilDate.ofDay stop).number := by
  have hfirst := CivilDate.number_ofDay_mono hstart
  have hlast := CivilDate.number_ofDay_mono hstop
  rw [monthIter_eq, monthIter_eq, List.filter_map,
    Windows.range_eq_filter hfirst (add_le_add_left hlast 1)]
  congr 1
  apply List.filter_congr
  intro k _
  have hk : k / 12 * 12 + (k % 12 + 1) - 1 = k := by omega
  simp only [Function.comp_apply, monthAt, hk, Int.lt_add_one_iff]

theorem monthsOf_eq_ok_iff (start stop every anchor : ℤ) (months : List (ℤ × ℤ)) :
    monthsOf start stop every anchor = .ok months ↔
      (every = 0 → monthIter start stop = []) ∧
        months = (monthIter start stop).filter fun ym => (ym.2 - anchor) % every = 0 := by
  rw [monthsOf]
  split
  · rename_i hraise
    simp [hraise.1, hraise.2]
  · rename_i hclear
    rw [not_and_not_right] at hclear
    rw [Except.ok.injEq]
    exact ⟨fun h => ⟨hclear, h.symm⟩, fun h => h.2.symm⟩

theorem monthsOf_inside {start stop start' stop' every anchor : ℤ} {months : List (ℤ × ℤ)}
    (hstart : start' ≤ start) (hstop : stop ≤ stop')
    (h : monthsOf start' stop' every anchor = .ok months) :
    monthsOf start stop every anchor = .ok (months.filter fun ym =>
      (CivilDate.ofDay start).number ≤ ym.1 * 12 + ym.2 - 1 ∧
        ym.1 * 12 + ym.2 - 1 ≤ (CivilDate.ofDay stop).number) := by
  rw [monthsOf_eq_ok_iff] at h ⊢
  rw [monthIter_eq_filter hstart hstop]
  obtain ⟨hzero, rfl⟩ := h
  refine ⟨fun h0 => by rw [hzero h0, List.filter_nil], ?_⟩
  rw [List.filter_filter, List.filter_filter]
  exact List.filter_congr fun ym _ => Bool.and_comm _ _

theorem steps_spec {step cursor anchor start stop : ℤ} (hstep : 0 < step) (hcursor : cursor ≤ start)
    (hphase : step ∣ cursor - anchor) :
    (((List.range ((stop - cursor) / step + 1).toNat).map fun k : ℕ => cursor + step * k).filter
        fun day => start ≤ day ∧ day ≤ stop) =
      (Int.range start (stop + 1)).filter fun day => step ∣ day - anchor := by
  apply Windows.eq_of_pairwise_lt
  · apply List.Pairwise.filter
    rw [List.pairwise_map]
    refine List.pairwise_lt_range.imp fun {k l} hlt => ?_
    have hmul := mul_lt_mul_of_pos_left (show (k : ℤ) < l by omega) hstep
    omega
  · exact (Windows.pairwise_range start (stop + 1)).filter _
  · intro day
    simp only [List.mem_filter, List.mem_map, List.mem_range, Int.mem_range_iff,
      decide_eq_true_iff]
    constructor
    · rintro ⟨⟨k, -, rfl⟩, hlow, hhigh⟩
      refine ⟨⟨hlow, by omega⟩, ?_⟩
      rw [add_sub_right_comm]
      exact dvd_add hphase (dvd_mul_right step k)
    · rintro ⟨⟨hlow, hhigh⟩, hday⟩
      obtain ⟨k, hk⟩ : step ∣ day - cursor := by
        rw [← sub_sub_sub_cancel_right day cursor anchor]
        exact dvd_sub hday hphase
      have hpos : 0 ≤ k := nonneg_of_mul_nonneg_right (by omega) hstep
      have hle : k ≤ (stop - cursor) / step := by
        rw [Int.le_ediv_iff_mul_le hstep, mul_comm]
        omega
      refine ⟨⟨k.toNat, by omega, ?_⟩, hlow, by omega⟩
      rw [Int.toNat_of_nonneg hpos]
      omega

theorem cadence_spec {anchor weeks start stop : ℤ} {days : List ℤ}
    (h : cadence anchor weeks start stop = .ok days) :
    (days.filter fun day => start ≤ day ∧ day ≤ stop) =
      (Int.range start (stop + 1)).filter fun day => weeks * 7 ∣ day - anchor := by
  simp only [cadence] at h
  split_ifs at h with hnone hempty hback
  · rw [← Except.ok.inj h, eq_comm, List.filter_nil, List.filter_eq_nil_iff]
    intro day hday
    rw [Int.mem_range_iff] at hday
    omega
  · rw [← Except.ok.inj h]
    have hstep : 0 < weeks * 7 := by omega
    generalize weeks * 7 = step at hstep ⊢
    apply steps_spec hstep
    · have hceil := Int.lt_ediv_add_one_mul_self (anchor - start + step - 1) hstep
      rw [add_mul, one_mul, mul_comm (_ / step)] at hceil
      omega
    · rw [sub_sub_cancel_left]
      exact (dvd_mul_right _ _).neg_right
  · rw [← Except.ok.inj h]
    apply steps_spec (by omega)
    · omega
    · simp

theorem cadence_returns {anchor weeks start stop start' stop' : ℤ} {days : List ℤ}
    (hstart : start' ≤ start) (hstop : stop ≤ stop')
    (h : cadence anchor weeks start' stop' = .ok days) :
    ∃ days', cadence anchor weeks start stop = .ok days' := by
  simp only [cadence] at h ⊢
  split_ifs at h with hnone hempty
  · rw [if_pos hnone, if_pos ⟨by omega, by omega⟩]
    exact ⟨_, rfl⟩
  all_goals
    rw [if_neg hnone]
    exact ⟨_, rfl⟩

end Recurrence

namespace ReleaseSeries

open Recurrence

/-! ## The occurrences of two windows -/

variable {s : ReleaseSeries}

theorem occurrences_of_no_cycle (hcycle : s.cycle = none)
    {start stop start' stop' : ℤ} (hstart : start' ≤ start) (hstop : stop ≤ stop')
    {days : List ℤ} (h : s.occurrences start' stop' = .ok days) :
    s.occurrences start stop = .ok (days.filter fun day => start ≤ day ∧ day ≤ stop) := by
  rw [occurrences] at h ⊢
  obtain ⟨found, hfound, rfl⟩ := Windows.map_eq_ok_iff.mp h
  have hinner (l : List ℤ) : (l.filter fun day => start' ≤ day ∧ day ≤ stop').filter
      (fun day => start ≤ day ∧ day ≤ stop) = l.filter fun day => start ≤ day ∧ day ≤ stop := by
    rw [List.filter_filter]
    apply List.filter_congr
    intro day _
    rw [Bool.eq_iff_iff]
    simp only [Bool.and_eq_true, decide_eq_true_iff]
    omega
  rw [hinner]
  rcases hrule : s.recurrence with _ | _ | _ | dates | ⟨anchor, weeks⟩ | kind
  · simp only [cycle, hrule, reduceCtorEq] at hcycle
  · simp only [cycle, hrule, reduceCtorEq] at hcycle
  · simp only [cycle, hrule, reduceCtorEq] at hcycle
  · simp only [candidates, hrule] at hfound ⊢
    rw [← Except.ok.inj hfound]
    rfl
  · simp only [candidates, hrule] at hfound ⊢
    obtain ⟨found', hfound'⟩ := cadence_returns hstart hstop hfound
    rw [hfound', Except.map, cadence_spec hfound', ← hinner, cadence_spec hfound,
      Windows.range_eq_filter hstart (add_le_add_left hstop 1), List.filter_filter,
      List.filter_filter]
    congr 1
    apply List.filter_congr
    intro day _
    rw [Bool.and_comm]
    simp only [Int.lt_add_one_iff]
  · simp only [candidates, hrule, reduceCtorEq] at hfound

theorem candidates_eq_ok_iff {every anchor : ℤ}
    (hcycle : s.cycle = some (every, anchor)) (start stop : ℤ) (days : List ℤ) :
    s.candidates start stop = .ok days ↔ ∃ months,
      monthsOf start stop every anchor = .ok months ∧ (∀ ym ∈ months, ∃ d, s.dateIn ym = .ok d) ∧
        days = months.filterMap fun ym => (s.dateIn ym).toOption.join := by
  rcases hrule : s.recurrence with
    ⟨weekday, nth, every', anchor'⟩ | ⟨nth, every', anchor'⟩ |
    ⟨typical, earliest, weekdaysOnly, every', anchor'⟩ | dates | ⟨anchor', weeks⟩ | kind
  · simp only [cycle, hrule, Option.some.injEq, Prod.mk.injEq] at hcycle
    obtain ⟨rfl, rfl⟩ := hcycle
    simp only [candidates, dateIn, hrule, Windows.map_eq_ok_iff]
    simp [Except.toOption, eq_comm]
  · simp only [cycle, hrule, Option.some.injEq, Prod.mk.injEq] at hcycle
    obtain ⟨rfl, rfl⟩ := hcycle
    simp only [candidates, dateIn, hrule, Windows.map_eq_ok_iff]
    simp [Except.toOption, eq_comm]
  · simp only [cycle, hrule, Option.some.injEq, Prod.mk.injEq] at hcycle
    obtain ⟨rfl, rfl⟩ := hcycle
    simp only [candidates, dateIn, hrule]
    rcases hmonths : monthsOf start stop every' anchor' with why | months
    · simp [bind, Except.bind]
    · simp only [bind, Except.bind, Except.ok.injEq, exists_eq_left', Windows.mapM_eq_ok_iff]
      apply and_congr
      · simp only [Windows.map_eq_ok_iff]
        simp
      · apply Eq.congr rfl
        congr 1
        funext ym
        rcases dayInWindow _ _ ym with why | day <;> rfl
  · simp only [cycle, hrule, reduceCtorEq] at hcycle
  · simp only [cycle, hrule, reduceCtorEq] at hcycle
  · simp only [cycle, hrule, reduceCtorEq] at hcycle

theorem occurrences_of_cycle {every anchor : ℤ}
    (hcycle : s.cycle = some (every, anchor)) {start stop start' stop' : ℤ}
    (hstart : start' ≤ start) (hstop : stop ≤ stop') {days : List ℤ}
    (h : s.occurrences start' stop' = .ok days) :
    ∃ months, monthsOf start' stop' every anchor = .ok months ∧
      days = ((months.filterMap fun ym => (s.dateIn ym).toOption.join).filter fun day =>
        start' ≤ day ∧ day ≤ stop') ∧
      s.occurrences start stop = .ok ((((months.filter fun ym =>
        (CivilDate.ofDay start).number ≤ ym.1 * 12 + ym.2 - 1 ∧
          ym.1 * 12 + ym.2 - 1 ≤ (CivilDate.ofDay stop).number).filterMap fun ym =>
            (s.dateIn ym).toOption.join)).filter fun day => start ≤ day ∧ day ≤ stop) := by
  rw [occurrences] at h
  obtain ⟨found, hfound, rfl⟩ := Windows.map_eq_ok_iff.mp h
  obtain ⟨months, hmonths, hdates, rfl⟩ :=
    (candidates_eq_ok_iff hcycle start' stop' found).mp hfound
  refine ⟨months, hmonths, rfl, ?_⟩
  have hinner := (candidates_eq_ok_iff hcycle start stop _).mpr
    ⟨_, monthsOf_inside hstart hstop hmonths, fun ym hym => hdates ym (List.mem_of_mem_filter hym),
      rfl⟩
  rw [occurrences, hinner]
  rfl

theorem occurrences_inside {start stop start' stop' : ℤ}
    (hstart : start' ≤ start) (hstop : stop ≤ stop') {days' : List ℤ}
    (h : s.occurrences start' stop' = .ok days') :
    ∃ days, s.occurrences start stop = .ok days ∧ days ⊆ days' := by
  rcases hcycle : s.cycle with - | ⟨every, anchor⟩
  · exact ⟨_, occurrences_of_no_cycle hcycle hstart hstop h, List.filter_sublist.subset⟩
  · obtain ⟨months, -, rfl, hnarrow⟩ := occurrences_of_cycle hcycle hstart hstop h
    refine ⟨_, hnarrow, fun day hday => ?_⟩
    rw [List.mem_filter, decide_eq_true_iff] at hday ⊢
    exact ⟨(Windows.filterMap_filter_sublist _ _ _).subset hday.1, by omega⟩

theorem dateIn_returns {ym ym' : ℤ × ℤ} (hm : 1 ≤ ym.2 ∧ ym.2 ≤ 12)
    (hm' : 1 ≤ ym'.2 ∧ ym'.2 ≤ 12) (h : ∃ d, s.dateIn ym = .ok d) :
    ∃ d, s.dateIn ym' = .ok d := by
  have hpos {k : ℤ × ℤ} (hk : 1 ≤ k.2 ∧ k.2 ≤ 12) :
      1 ≤ nextMonth k.1 k.2 - CivilDate.toDay ⟨k.1, k.2, 1⟩ := by
    have hlength := TzRules.monthStart_add_le (k.1 * 12 + k.2 - 1)
    rw [nextMonth_eq k.1 hk.1 hk.2, TzRules.toDay_first k.1 hk.1 hk.2]
    rw [sub_add_cancel] at hlength
    omega
  simp only [dateIn] at h ⊢
  split
  · exact ⟨_, rfl⟩
  · exact ⟨_, rfl⟩
  · rename_i typical earliest weekdaysOnly every anchor hrule
    simp only [hrule, dayInWindow] at h ⊢
    split_ifs with hbad
    · have hsame : min ((typical.or earliest).getD 15) (nextMonth ym.1 ym.2 -
          CivilDate.toDay ⟨ym.1, ym.2, 1⟩) < 1 := by
        have := hpos hm
        have := hpos hm'
        omega
      rw [if_pos hsame] at h
      obtain ⟨d, hd⟩ := h
      cases hd
    · exact ⟨_, rfl⟩
    · exact ⟨_, rfl⟩
  · exact ⟨_, rfl⟩

/-! ## The rows of a window -/

theorem expand_of_timed {τ : ℤ → ℤ} (hτ : s.Timed τ) (ops : SourceOps)
    (w : QueryWindow) :
    s.expand ops w.startNs w.endNs =
      (s.occurrences (w.firstDay ops) (w.lastDay ops)).map fun days =>
        (days.filter fun day => w.holds (τ day)).map fun day => s.row (day, τ day) := by
  rw [expand, dated]
  simp only [QueryWindow.firstDay, QueryWindow.lastDay]
  rcases s.occurrences _ _ with why | days
  · rfl
  · have hmap : (days.mapM fun day => (s.instant day).map fun ns => (day, ns)) =
        .ok (days.map fun day => (day, τ day)) :=
      Windows.mapM_ok fun day _ => by rw [hτ.instant]; rfl
    simp only [bind, Except.bind, hmap, pure, Except.pure]
    rw [List.filter_map]
    simp only [Except.map, List.map_map]
    rfl

theorem month_of_mem_monthIter {start stop : ℤ} {ym : ℤ × ℤ} (h : ym ∈ monthIter start stop) :
    1 ≤ ym.2 ∧ ym.2 ≤ 12 := by
  rw [monthIter_eq, List.mem_map] at h
  obtain ⟨k, -, rfl⟩ := h
  rw [monthAt]
  omega

theorem windowIndependent_of_no_instant
    (hnone : ∀ day, ∃ why, s.instant day = .error why) {ops : SourceOps} (hops : ops.ReadsTime)
    {w w' : QueryWindow} (h : w.Inside w') : s.WindowIndependent ops w w' := by
  have hrows (v : QueryWindow) {rows : List RawRow} :
      s.expand ops v.startNs v.endNs = .ok rows ↔
        s.occurrences (v.firstDay ops) (v.lastDay ops) = .ok [] ∧ rows = [] := by
    have hexpand : s.expand ops v.startNs v.endNs =
        Except.map (List.map s.row) (do
          let days ← s.occurrences (v.firstDay ops) (v.lastDay ops)
          let all ← days.mapM fun day => (s.instant day).map fun ns => (day, ns)
          return all.filter fun d => v.startNs ≤ d.2 ∧ d.2 ≤ v.endNs) := rfl
    rw [hexpand]
    rcases s.occurrences (v.firstDay ops) (v.lastDay ops) with why | days
    · simp [bind, Except.bind, Except.map]
    · rcases days with - | ⟨day, days⟩
      · simp [bind, Except.bind, pure, Except.pure, Except.map, eq_comm]
      · obtain ⟨why, hwhy⟩ := hnone day
        simp [hwhy, bind, Except.bind, Except.map]
  intro rows hwide
  obtain ⟨hdays', rfl⟩ := (hrows w').mp hwide
  obtain ⟨days, hdays, hsub⟩ := occurrences_inside (h.firstDay_le hops) (h.lastDay_le hops) hdays'
  rw [List.subset_nil] at hsub
  rw [hsub] at hdays
  exact (hrows w).mpr ⟨hdays, rfl⟩

section Timed

variable {s : ReleaseSeries} {τ : ℤ → ℤ} {ops : SourceOps} {w w' : QueryWindow}

theorem windowIndependent_iff_days (hτ : s.Timed τ) (h : w.Inside w') :
    s.WindowIndependent ops w w' ↔
      ∀ days', s.occurrences (w'.firstDay ops) (w'.lastDay ops) = .ok days' →
        ∃ days, s.occurrences (w.firstDay ops) (w.lastDay ops) = .ok days ∧
          (days.filter fun day => w.holds (τ day)).map (fun day => s.row (day, τ day)) =
            (days'.filter fun day => w.holds (τ day)).map fun day => s.row (day, τ day) := by
  have hrows (days : List ℤ) : ((days.filter fun day => w'.holds (τ day)).map fun day =>
      s.row (day, τ day)).filter (fun r => w.holds r.eventNs) =
        (days.filter fun day => w.holds (τ day)).map fun day => s.row (day, τ day) := by
    rw [List.filter_map]
    congr 1
    exact Windows.filter_filter_of_imp (fun day hday => h.holds hday) days
  simp only [WindowIndependent, expand_of_timed hτ, Windows.map_eq_ok_iff]
  constructor
  · intro hind days' hdays'
    obtain ⟨days, hdays, heq⟩ := hind _ ⟨days', hdays', rfl⟩
    exact ⟨days, hdays, heq.trans (hrows days')⟩
  · rintro hind rows ⟨days', hdays', rfl⟩
    obtain ⟨days, hdays, heq⟩ := hind days' hdays'
    exact ⟨days, hdays, heq.trans (hrows days').symm⟩

theorem filter_considered (hτ : s.Timed τ) (hops : ops.ReadsTime) (h : w.Inside w')
    (days : List ℤ) :
    ((days.filter fun day => w'.firstDay ops ≤ day ∧ day ≤ w'.lastDay ops).filter fun day =>
      w.holds (τ day)) = days.filter fun day => w.holds (τ day) :=
  Windows.filter_filter_of_imp
    (fun _ hday => decide_eq_true (QueryWindow.considered_of_holds hops hτ (h.holds hday))) days

theorem windowIndependent_of_no_cycle (hτ : s.Timed τ) (hops : ops.ReadsTime) (h : w.Inside w')
    (hcycle : s.cycle = none) : s.WindowIndependent ops w w' := by
  rw [windowIndependent_iff_days hτ h]
  intro days' hdays'
  refine ⟨_, occurrences_of_no_cycle hcycle (h.firstDay_le hops) (h.lastDay_le hops) hdays', ?_⟩
  rw [filter_considered hτ hops (.refl w)]

theorem mem_monthsIn_iff {every anchor : ℤ} (hops : ops.ReadsTime) (h : w.Inside w')
    (hcycle : s.cycle = some (every, anchor)) {months : List (ℤ × ℤ)}
    (hmonths : monthsOf (w'.firstDay ops) (w'.lastDay ops) every anchor = .ok months)
    {ym : ℤ × ℤ} (hym : ym ∈ months) :
    ym ∈ s.monthsIn ops w ↔
      (CivilDate.ofDay (w.firstDay ops)).number ≤ ym.1 * 12 + ym.2 - 1 ∧
        ym.1 * 12 + ym.2 - 1 ≤ (CivilDate.ofDay (w.lastDay ops)).number := by
  have hinner := monthsOf_inside (h.firstDay_le hops) (h.lastDay_le hops) hmonths
  simp only [monthsIn, hcycle, hinner, Except.toOption, Option.getD_some, List.mem_filter,
    decide_eq_true_iff]
  exact and_iff_right hym

theorem windowIndependent_iff_of_cycle {every anchor : ℤ} (hτ : s.Timed τ) (hops : ops.ReadsTime)
    (h : w.Inside w') (hcycle : s.cycle = some (every, anchor)) {months : List (ℤ × ℤ)}
    (hmonths : monthsOf (w'.firstDay ops) (w'.lastDay ops) every anchor = .ok months)
    (hdates : ∀ ym ∈ months, ∃ d, s.dateIn ym = .ok d) :
    s.WindowIndependent ops w w' ↔ s.NoneMovedIn ops w w' := by
  have hwide := (candidates_eq_ok_iff hcycle _ _ _).mpr ⟨months, hmonths, hdates, rfl⟩
  have hoccurrences : s.occurrences (w'.firstDay ops) (w'.lastDay ops) =
      .ok ((months.filterMap fun ym => (s.dateIn ym).toOption.join).filter fun day =>
        w'.firstDay ops ≤ day ∧ day ≤ w'.lastDay ops) := by
    rw [occurrences, hwide]
    rfl
  obtain ⟨months₂, hmonths₂, -, hnarrow⟩ :=
    occurrences_of_cycle hcycle (h.firstDay_le hops) (h.lastDay_le hops) hoccurrences
  obtain rfl := Except.ok.inj (hmonths.symm.trans hmonths₂)
  rw [windowIndependent_iff_days hτ h]
  simp only [hoccurrences, hnarrow, Except.ok.injEq, forall_eq', exists_eq_left']
  rw [filter_considered hτ hops (.refl w), filter_considered hτ hops h]
  have hpart := ((Windows.filterMap_filter_sublist months (fun ym =>
    decide ((CivilDate.ofDay (w.firstDay ops)).number ≤ ym.1 * 12 + ym.2 - 1 ∧
      ym.1 * 12 + ym.2 - 1 ≤ (CivilDate.ofDay (w.lastDay ops)).number))
    fun ym => (s.dateIn ym).toOption.join).filter fun day => w.holds (τ day))
  have hcount {l l' : List ℤ} (hsub : l.Sublist l') :
      l.map (fun day => s.row (day, τ day)) = l'.map (fun day => s.row (day, τ day)) ↔ l = l' := by
    refine ⟨fun heq => hsub.eq_of_length ?_, fun heq => by rw [heq]⟩
    simpa using congrArg List.length heq
  rw [hcount hpart, Windows.filter_filterMap_filter_iff]
  have hwideMonths : s.monthsIn ops w' = months := by
    simp only [monthsIn, hcycle, hmonths, Except.toOption, Option.getD_some]
  rw [NoneMovedIn, hwideMonths]
  constructor
  · intro hkept ym hym hout day hday _ ns hns
    rw [mem_monthsIn_iff hops h hcycle hmonths hym] at hout
    rw [hτ.instant] at hns
    rw [← Except.ok.inj hns]
    exact hkept ym hym (decide_eq_false hout) day (by rw [hday]; rfl)
  · intro hmoved ym hym hout day hday
    rw [decide_eq_false_iff_not] at hout
    have hdate : s.dateIn ym = .ok (some day) := by
      rcases hd : s.dateIn ym with why | d
      · rw [hd] at hday
        cases hday
      · rw [hd] at hday
        exact congrArg Except.ok hday
    by_contra hholds
    rw [Bool.not_eq_false] at hholds
    obtain ⟨hfirst, hlast⟩ := QueryWindow.considered_of_holds hops hτ hholds
    have hin : MovedOut ym day := by
      intro hmonth
      have hlow := CivilDate.number_ofDay_mono hfirst
      have hhigh := CivilDate.number_ofDay_mono hlast
      exact hout ⟨by omega, by omega⟩
    rw [← mem_monthsIn_iff hops h hcycle hmonths hym] at hout
    rw [hmoved ym hym hout day hdate hin (τ day) (hτ.instant day)] at hholds
    cases hholds

end Timed

/-! ## When a window misses nothing -/

/-- The window has its part of a wider one exactly when no release in it has a
date that is moved out of a month which only the wide window reaches. -/
theorem windowIndependent_iff (s : ReleaseSeries) {ops : SourceOps} (hops : ops.ReadsTime)
    {w w' : QueryWindow} (h : w.Inside w') :
    s.WindowIndependent ops w w' ↔ s.NoneMovedIn ops w w' := by
  rcases s.timed_or_none with hnone | ⟨τ, hτ⟩
  · exact iff_of_true (windowIndependent_of_no_instant hnone hops h)
      fun _ _ _ day _ _ ns hns => absurd hns (by obtain ⟨why, hwhy⟩ := hnone day; simp [hwhy])
  · rcases hcycle : s.cycle with - | ⟨every, anchor⟩
    · refine iff_of_true (windowIndependent_of_no_cycle hτ hops h hcycle) ?_
      intro ym hym
      simp only [monthsIn, hcycle, List.not_mem_nil] at hym
    · by_cases hdates : ∃ months,
          monthsOf (w'.firstDay ops) (w'.lastDay ops) every anchor = .ok months ∧
            ∀ ym ∈ months, ∃ d, s.dateIn ym = .ok d
      · obtain ⟨months, hmonths, hdates⟩ := hdates
        exact windowIndependent_iff_of_cycle hτ hops h hcycle hmonths hdates
      · refine iff_of_true (fun rows hrows => ?_) fun ym hym _ day hday => ?_
        -- the wide window raises
        · rw [expand_of_timed hτ] at hrows
          obtain ⟨days, hdays, -⟩ := Windows.map_eq_ok_iff.mp hrows
          obtain ⟨found, hfound, -⟩ := Windows.map_eq_ok_iff.mp hdays
          obtain ⟨months, hmonths, hall, -⟩ := (candidates_eq_ok_iff hcycle _ _ _).mp hfound
          exact absurd ⟨months, hmonths, hall⟩ hdates
        · rcases hmonths : monthsOf (w'.firstDay ops) (w'.lastDay ops) every anchor with
            why | months
          · simp [monthsIn, hcycle, hmonths, Except.toOption] at hym
          · have hvalid {k : ℤ × ℤ} (hk : k ∈ months) : 1 ≤ k.2 ∧ k.2 ≤ 12 := by
              obtain ⟨-, rfl⟩ := (monthsOf_eq_ok_iff _ _ _ _ _).mp hmonths
              exact month_of_mem_monthIter (List.mem_of_mem_filter hk)
            simp only [monthsIn, hcycle, hmonths, Except.toOption, Option.getD_some] at hym
            exact absurd ⟨months, hmonths, fun k hk =>
              dateIn_returns (hvalid hym) (hvalid hk) ⟨_, hday⟩⟩ hdates

def firstOfMonth : ReleaseSeries where
  seriesId := "first"
  name := "First of the month"
  currency := "USD"
  zone := "UTC"
  localTime := "12:00"
  recurrence := .dayWindow (some 1) none

def exactOps : SourceOps where
  toNs _ := none
  upper := id
  lower := id
  fromTimestamp := id

theorem exactOps_readsTime : exactOps.ReadsTime where
  mono := monotone_id
  near ns := by simp [exactOps]

def fromFebruary (day : ℤ) : QueryWindow where
  startNs := CivilDate.toDay ⟨2026, 2, 20⟩ * dayNs
  endNs := day * dayNs + 23 * hourNs

/-- A window that ends on the 28th of February reaches March. -/
theorem windowIndependent_saturday :
    firstOfMonth.WindowIndependent exactOps (fromFebruary 20512) (fromFebruary 20522) := by
  have hmonths : firstOfMonth.monthsIn exactOps (fromFebruary 20522) =
      firstOfMonth.monthsIn exactOps (fromFebruary 20512) := by decide
  have hinside : (fromFebruary 20512).Inside (fromFebruary 20522) := ⟨le_rfl, by decide⟩
  rw [windowIndependent_iff firstOfMonth exactOps_readsTime hinside, NoneMovedIn, hmonths]
  exact fun ym hym hout => absurd hym hout

/-- The first of March 2026 is a Sunday: its release is moved to Friday, the
27th of February, where a window that ends on that day does not find it. -/
theorem release_lost_at_month_end :
    ¬firstOfMonth.WindowIndependent exactOps (fromFebruary 20511) (fromFebruary 20522) := by
  intro hind
  have hwide : firstOfMonth.dated exactOps (fromFebruary 20522).startNs (fromFebruary 20522).endNs =
      .ok [(20511, 20511 * dayNs + 12 * hourNs)] := by rfl
  have hnarrow : firstOfMonth.dated exactOps (fromFebruary 20511).startNs
      (fromFebruary 20511).endNs = .ok [] := by rfl
  have hrows := hind _ (by rw [expand, hwide]; rfl)
  rw [expand, hnarrow] at hrows
  have hlength := congrArg List.length (Except.ok.inj hrows)
  revert hlength
  decide

end ReleaseSeries

end Sentinel
