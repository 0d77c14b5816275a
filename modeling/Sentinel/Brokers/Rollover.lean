import Mathlib.Data.Int.ConditionallyCompleteOrder
import Mathlib.Data.Int.Interval
import Mathlib.Algebra.BigOperators.Group.Finset.Basic
import Sentinel.Brokers.PaperConservation
import Sentinel.Core.SummerTime

/-!
# Rollover

The value date of the venue, which does not go back where the clocks do, and
what `_apply_rollover` charges when the rate of every position is known.
-/

namespace Sentinel

/-! ## The value date -/

namespace TzRules

theorem summer_year (year : ℤ) :
    nthWeekday year 3 6 2 < nthWeekday year 11 6 1 ∧
      (CivilDate.ofDay (nthWeekday year 11 6 1)).year = year := by
  have hspan := switches_us.span year
  have hstart := switches_us.start_year year
  have hstop := switches_us.stop_year year
  have hlower := CivilDate.year_ofDay_mono
    (show nthWeekday year 3 6 2 - 1 ≤ nthWeekday year 11 6 1 by omega)
  have hupper := CivilDate.year_ofDay_mono
    (show nthWeekday year 11 6 1 ≤ nthWeekday year 11 6 1 + 1 by omega)
  rw [hstart] at hlower
  rw [hstop] at hupper
  exact ⟨by omega, le_antisymm hupper hlower⟩

theorem summer_ends {t u : ℤ} (hle : t ≤ u) (ht : usDst t = true) (hu : usDst u = false) :
    ∃ last, t < last * dayNs + 2 * hourNs ∧ last * dayNs + 2 * hourNs ≤ u := by
  obtain ⟨hspan, hyear⟩ := summer_year (CivilDate.ofDay (dayOf t)).year
  have hday := dayOf_mono hle
  have hsummer := (summerTime_iff hspan t).mp ht
  refine ⟨nthWeekday (CivilDate.ofDay (dayOf t)).year 11 6 1, ?_, ?_⟩
  · exact (lt_day_iff t _ 2 (by decide) (by decide)).mpr hsummer.2
  · by_contra hlt
    have hbefore := (lt_day_iff u _ 2 (by decide) (by decide)).mp (not_le.mp hlt)
    -- until its last day the year is the same, so it is still summer time
    have hsame : (CivilDate.ofDay (dayOf u)).year = (CivilDate.ofDay (dayOf t)).year := by
      have hlower := CivilDate.year_ofDay_mono hday
      have hupper := CivilDate.year_ofDay_mono (show dayOf u ≤
        nthWeekday (CivilDate.ofDay (dayOf t)).year 11 6 1 by omega)
      rw [hyear] at hupper
      exact le_antisymm hupper hlower
    have hstart : nthWeekday (CivilDate.ofDay (dayOf t)).year 3 6 2 < dayOf u ∨
        dayOf u = nthWeekday (CivilDate.ofDay (dayOf t)).year 3 6 2 ∧ 2 ≤ hourOf u := by
      have hstarted := (lt_day_iff t (nthWeekday (CivilDate.ofDay (dayOf t)).year 3 6 2) 2
        (by decide) (by decide)).not
      have hstarted' := (lt_day_iff u (nthWeekday (CivilDate.ofDay (dayOf t)).year 3 6 2) 2
        (by decide) (by decide)).not
      omega
    rw [usDst, hsame, ← Bool.not_eq_true] at hu
    exact hu ((summerTime_iff hspan u).mpr ⟨hstart, hbefore⟩)

end TzRules

namespace PaperBroker

theorem valueDay_mono {t u : ℤ} (h : t ≤ u) : valueDay t ≤ valueDay u := by
  have hoffset : ∀ moment, (TzRules.utcOffsetHours "America/New_York" moment).getD 0 =
      -5 + if TzRules.usDst moment then 1 else 0 := fun _ => rfl
  simp only [valueDay, hoffset]
  by_cases hswitch : TzRules.usDst t = true ∧ TzRules.usDst u = false
  · obtain ⟨last, hbefore, hafter⟩ := TzRules.summer_ends h hswitch.1 hswitch.2
    simp only [hswitch.1, hswitch.2, if_true, Bool.false_eq_true, if_false, dayOf, dayNs, hourNs,
      minuteNs] at hbefore hafter ⊢
    omega
  · refine dayOf_mono ?_
    have hkept : (if TzRules.usDst t = true then (1 : ℤ) else 0) ≤
        if TzRules.usDst u = true then 1 else 0 := by
      split_ifs with ht hu
      · exact le_rfl
      · exact absurd ⟨ht, Bool.eq_false_of_not_eq_true hu⟩ hswitch
      · decide
      · exact le_rfl
    simp only [hourNs, minuteNs]
    omega

/-! ## The days of a rollover -/

theorem daysBetween_eq (last day : ℤ) :
    daysBetween last day = (List.range (day - last).toNat).map fun n : ℕ => last + 1 + (n : ℤ) := by
  simp [daysBetween, ← List.map_eq_flatMap]

theorem mem_daysBetween {last day d : ℤ} : d ∈ daysBetween last day ↔ last < d ∧ d ≤ day := by
  simp only [daysBetween_eq, List.mem_map, List.mem_range]
  constructor
  · rintro ⟨n, hn, rfl⟩
    omega
  · rintro ⟨hlast, hday⟩
    exact ⟨(d - last - 1).toNat, by omega, by omega⟩

theorem nodup_daysBetween (last day : ℤ) : (daysBetween last day).Nodup := by
  rw [daysBetween_eq]
  exact List.nodup_range.map fun m n hmn => by simpa using hmn

theorem sum_daysBetween (last day : ℤ) (f : ℤ → Dec) :
    ((daysBetween last day).map f).sum = ∑ d ∈ Finset.Ioc last day, f d := by
  have hdays : (daysBetween last day).toFinset = Finset.Ioc last day := by
    ext d
    rw [List.mem_toFinset, Finset.mem_Ioc, mem_daysBetween]
  rw [← hdays, List.sum_toFinset f (nodup_daysBetween last day)]

theorem sum_Ioc_trans {a b c : ℤ} (hab : a ≤ b) (hbc : b ≤ c) (f : ℤ → Dec) :
    ∑ d ∈ Finset.Ioc a b, f d + ∑ d ∈ Finset.Ioc b c, f d = ∑ d ∈ Finset.Ioc a c, f d := by
  rw [← Finset.sum_union (Finset.Ioc_disjoint_Ioc_of_le le_rfl),
    Finset.Ioc_union_Ioc_eq_Ioc hab hbc]

/-! ## What a rollover charges -/

section Charges

variable (cfg : PaperSetup) (b : PaperBroker) (symbol : String)

def rateOf : Option Dec :=
  (cfg.instruments.get? symbol).bind fun inst => b.conversionRate inst.quote cfg.currency

def dueOn (day : ℤ) : Dec :=
  if weekdayOf day < 5 then if weekdayOf day = cfg.profile.tripleSwapWeekday then 3 else 1 else 0

def financingAt (multiplier : Dec) : Dec :=
  match b.positions.get? symbol, cfg.instruments.get? symbol with
  | some pos, some inst =>
      let table := match pos.side with
        | .buy => cfg.profile.swapLongPipsPerDay
        | .sell => cfg.profile.swapShortPipsPerDay
      table.getD symbol (-15 / 100) * inst.pip * inst.units pos.lots *
        (rateOf cfg b symbol).getD 0 * multiplier
  | _, _ => 0

structure Financed (amounts : String → Dec) (b b' : PaperBroker) : Prop where
  positions : ∀ symbol, b'.positions.get? symbol = (b.positions.get? symbol).map fun pos =>
    { pos with financingPaid := pos.financingPaid + amounts symbol }
  keys : b'.positions.keys = b.positions.keys
  conversions : b'.conversions = b.conversions
  nowNs : b'.nowNs = b.nowNs
  lastRolloverDay : b'.lastRolloverDay = b.lastRolloverDay
  closed : b'.closed = b.closed

namespace Financed

variable {cfg} {x y : String → Dec} {b b' b'' : PaperBroker}

theorem refl (b : PaperBroker) : Financed (fun _ => 0) b b where
  positions symbol := by simp
  keys := rfl
  conversions := rfl
  nowNs := rfl
  lastRolloverDay := rfl
  closed := rfl

theorem trans (h : Financed x b b') (h' : Financed y b' b'') :
    Financed (fun symbol => x symbol + y symbol) b b'' where
  positions symbol := by
    rw [h'.positions, h.positions, Option.map_map]
    congr 1
    funext pos
    simp [add_assoc]
  keys := h'.keys.trans h.keys
  conversions := h'.conversions.trans h.conversions
  nowNs := h'.nowNs.trans h.nowNs
  lastRolloverDay := h'.lastRolloverDay.trans h.lastRolloverDay
  closed := h'.closed.trans h.closed

theorem congr (h : Financed x b b') (hxy : ∀ symbol ∈ b.positions.keys, x symbol = y symbol) :
    Financed y b b' := by
  refine ⟨fun symbol => ?_, h.keys, h.conversions, h.nowNs, h.lastRolloverDay, h.closed⟩
  rw [h.positions]
  rcases hpos : b.positions.get? symbol with _ | pos
  · rfl
  · rw [hxy symbol (Dict.mem_keys_of_get? hpos)]

theorem rateOf_eq (h : Financed x b b') (symbol : String) :
    rateOf cfg b' symbol = rateOf cfg b symbol := by
  simp only [rateOf, conversionRate, h.conversions]

theorem financingAt_eq (h : Financed x b b') (symbol : String) (multiplier : Dec) :
    financingAt cfg b' symbol multiplier = financingAt cfg b symbol multiplier := by
  simp only [financingAt, h.rateOf_eq, h.positions]
  rcases b.positions.get? symbol with _ | pos
  · rfl
  · rcases cfg.instruments.get? symbol with _ | inst
    · rfl
    · rfl

end Financed

theorem financed_recordTxn (b : PaperBroker) (clientOrderId : String) (kind : TxnKind) :
    Financed (fun _ => 0) b (b.recordTxn clientOrderId kind) where
  positions symbol := by simp [recordTxn]
  keys := rfl
  conversions := rfl
  nowNs := rfl
  lastRolloverDay := rfl
  closed := rfl

theorem run_charge {b : PaperBroker} {symbol : String} (hkey : symbol ∈ b.positions.keys)
    (hrate : rateOf cfg b symbol ≠ none) (multiplier : Dec) :
    ∃ b', (charge cfg multiplier symbol).run b = .ok ⟨⟩ b' ∧
      Financed (fun other => if other = symbol then financingAt cfg b symbol multiplier else 0)
        b b' := by
  obtain ⟨pos, hpos⟩ := Dict.exists_get?_of_mem hkey
  rcases hinst : cfg.instruments.get? symbol with _ | inst
  · simp [rateOf, hinst] at hrate
  · rcases hconv : b.conversionRate inst.quote cfg.currency with _ | rate
    · simp [rateOf, hinst, hconv] at hrate
    · refine ⟨b.book symbol pos (financingAt cfg b symbol multiplier), ?_, ?_⟩
      · rw [charge, run_bind_get, hpos, hinst]
        simp only [run_bind, run_conv, hconv, financingAt, rateOf, hpos, hinst, Option.bind_some,
          Option.getD_some]
        rfl
      · refine ⟨fun other => ?_, Dict.keys_set_of_mem hkey _, rfl, rfl, rfl, rfl⟩
        by_cases hother : other = symbol
        · subst hother
          simp [book, hold, financingAt, rateOf, hpos, hinst, hconv]
        · simp [book, hold, Dict.get?_set_of_ne _ hother, hother]

theorem run_forM_charge (multiplier : Dec) (symbols : List String) (hnodup : symbols.Nodup)
    (b : PaperBroker) (hkeys : ∀ symbol ∈ symbols, symbol ∈ b.positions.keys)
    (hrates : ∀ symbol ∈ symbols, rateOf cfg b symbol ≠ none) :
    ∃ b', (symbols.forM (charge cfg multiplier)).run b = .ok ⟨⟩ b' ∧
      Financed (fun symbol => if symbol ∈ symbols then financingAt cfg b symbol multiplier else 0)
        b b' := by
  induction symbols generalizing b with
  | nil => exact ⟨b, rfl, by simpa using Financed.refl b⟩
  | cons symbol rest ih =>
    obtain ⟨hnew, hrest⟩ := List.nodup_cons.mp hnodup
    obtain ⟨mid, hrun, hmid⟩ := run_charge cfg (hkeys symbol List.mem_cons_self)
      (hrates symbol List.mem_cons_self) multiplier
    obtain ⟨b', hrun', hb'⟩ := ih hrest mid
      (fun other hother => hmid.keys ▸ hkeys other (List.mem_cons_of_mem symbol hother))
      (fun other hother => by
        rw [hmid.rateOf_eq]
        exact hrates other (List.mem_cons_of_mem symbol hother))
    refine ⟨b', ?_, (hmid.trans hb').congr fun other _ => ?_⟩
    · rw [run_forM_cons hrun]
      exact hrun'
    · simp only [hmid.financingAt_eq, List.mem_cons]
      by_cases hother : other = symbol
      · subst hother
        simp [hnew]
      · simp [hother]

def financingOn (day : ℤ) : Dec :=
  financingAt cfg b symbol (dueOn cfg day)

theorem run_rollDay {b : PaperBroker}
    (hrates : ∀ symbol ∈ b.positions.keys, rateOf cfg b symbol ≠ none) (day : ℤ) :
    ∃ b', (rollDay cfg day).run b = .ok ⟨⟩ b' ∧
      Financed (fun symbol => financingOn cfg b symbol day) b b' := by
  by_cases hweekday : weekdayOf day < 5
  · obtain ⟨mid, hrun, hmid⟩ := run_forM_charge cfg (dueOn cfg day) b.positions.keys
      b.positions.nodup b (fun _ h => h) hrates
    refine ⟨mid.recordTxn "" (.rollover (dueOn cfg day) day), ?_, ?_⟩
    · rw [dueOn, if_pos hweekday] at hrun ⊢
      rw [rollDay, if_pos hweekday, run_bind_get, run_bind, hrun]
      rfl
    · refine (hmid.trans (financed_recordTxn mid "" _)).congr fun symbol hkey => ?_
      rw [if_pos hkey, add_zero, financingOn]
  · refine ⟨b, ?_, (Financed.refl b).congr fun symbol _ => ?_⟩
    · rw [rollDay, if_neg hweekday]
      rfl
    · rw [financingOn, dueOn, if_neg hweekday, financingAt]
      rcases b.positions.get? symbol with _ | pos
      · rfl
      · rcases cfg.instruments.get? symbol with _ | inst
        · rfl
        · simp

theorem run_forM_rollDay (days : List ℤ) (b : PaperBroker)
    (hrates : ∀ symbol ∈ b.positions.keys, rateOf cfg b symbol ≠ none) :
    ∃ b', (days.forM (rollDay cfg)).run b = .ok ⟨⟩ b' ∧
      Financed (fun symbol => (days.map (financingOn cfg b symbol)).sum) b b' := by
  induction days generalizing b with
  | nil => exact ⟨b, rfl, by simpa using Financed.refl b⟩
  | cons day days ih =>
    obtain ⟨mid, hrun, hmid⟩ := run_rollDay cfg hrates day
    obtain ⟨b', hrun', hb'⟩ := ih mid fun symbol hkey => by
      rw [hmid.rateOf_eq]
      exact hrates symbol (hmid.keys ▸ hkey)
    refine ⟨b', ?_, (hmid.trans hb').congr fun symbol _ => ?_⟩
    · rw [run_forM_cons hrun]
      exact hrun'
    · have hsame : financingOn cfg mid symbol = financingOn cfg b symbol :=
        funext fun other => hmid.financingAt_eq symbol (dueOn cfg other)
      rw [hsame, List.map_cons, List.sum_cons]

theorem run_applyRollover {b : PaperBroker} {last : ℤ} (hlast : b.lastRolloverDay = some last)
    (hrates : ∀ symbol ∈ b.positions.keys, rateOf cfg b symbol ≠ none) :
    ∃ b', (applyRollover cfg).run b = .ok ⟨⟩ b' ∧
      Financed (fun symbol => ∑ d ∈ Finset.Ioc last (max last (valueDay b.nowNs)),
        financingOn cfg b symbol d)
        { b with lastRolloverDay := some (max last (valueDay b.nowNs)) } b' := by
  rw [applyRollover, run_bind_get, hlast]
  simp only
  by_cases hnew : last < valueDay b.nowNs
  · rw [if_pos hnew, max_eq_right hnew.le]
    by_cases hempty : b.positions.isEmpty = true
    · have hnone : b.positions.keys = [] := by
        rw [Dict.keys, List.isEmpty_iff.mp hempty, List.map_nil]
      refine ⟨{ b with lastRolloverDay := some (valueDay b.nowNs) }, ?_,
        (Financed.refl _).congr fun symbol hkey => absurd hkey (by simp [hnone])⟩
      rw [if_pos hempty]
      rfl
    · obtain ⟨b', hrun, hb'⟩ := run_forM_rollDay cfg (daysBetween last (valueDay b.nowNs))
        { b with lastRolloverDay := some (valueDay b.nowNs) } hrates
      refine ⟨b', ?_, hb'.congr fun symbol _ => sum_daysBetween last _ _⟩
      rw [if_neg hempty]
      exact hrun
  · rw [if_neg hnew, max_eq_left (not_lt.mp hnew), Finset.Ioc_self]
    refine ⟨b, rfl, ?_⟩
    rw [← hlast]
    exact (Financed.refl b).congr fun symbol _ => (Finset.sum_empty).symm

end Charges

end PaperBroker

end Sentinel
