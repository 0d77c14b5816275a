import Sentinel.Brokers.RolloverRuns

/-!
# A rollover that cannot be completed

`_apply_rollover` sets the cursor first and charges one position after another.
Where a rate is missing it raises, with the day marked and the positions before
that one charged.
-/

namespace Sentinel

namespace PaperBroker

section Faults

variable (cfg : PaperSetup) (b : PaperBroker)

def firstUnrated : Option String :=
  b.positions.keys.find? fun symbol => rateOf cfg b symbol = none

def chargeError (symbol : String) : PaperError :=
  match cfg.instruments.get? symbol with
  | none => .unknownInstrument symbol
  | some inst => .conversionMissing inst.quote cfg.currency

def RolloverDue : Prop :=
  ∃ last ∈ b.lastRolloverDay, ∃ d ∈ Finset.Ioc last (valueDay b.nowNs), weekdayOf d < 5

def ConversionFails : Prop :=
  RolloverDue b ∧ ∃ symbol ∈ firstUnrated cfg b, cfg.instruments.get? symbol ≠ none

def RolloverAtomic : Prop :=
  ∀ quoteCcy accountCcy b',
    (applyRollover cfg).run b = .error (.conversionMissing quoteCcy accountCcy) b' →
      b'.balance = b.balance ∧ b'.positions = b.positions ∧
        b'.lastRolloverDay = b.lastRolloverDay

variable {b : PaperBroker}

variable {symbol : String}

theorem run_charge_unrated (hkey : symbol ∈ b.positions.keys)
    (hrate : rateOf cfg b symbol = none) (multiplier : Dec) :
    (charge cfg multiplier symbol).run b = .error (chargeError cfg symbol) b := by
  obtain ⟨pos, hpos⟩ := Dict.exists_get?_of_mem hkey
  rcases hinst : cfg.instruments.get? symbol with _ | inst
  · rw [charge, run_bind_get, hpos, hinst, chargeError, hinst]
    rfl
  · have hconv : b.conversionRate inst.quote cfg.currency = none := by
      simpa [rateOf, hinst] using hrate
    rw [charge, run_bind_get, hpos, hinst, chargeError, hinst]
    simp only [run_bind, run_conv, hconv]

theorem run_forM_charge_unrated (multiplier : Dec) {symbol : String} (symbols : List String)
    (hnodup : symbols.Nodup) (b : PaperBroker)
    (hkeys : ∀ other ∈ symbols, other ∈ b.positions.keys)
    (hfirst : (symbols.find? fun other => rateOf cfg b other = none) = some symbol) :
    ∃ b', (symbols.forM (charge cfg multiplier)).run b = .error (chargeError cfg symbol) b' := by
  induction symbols generalizing b with
  | nil => simp at hfirst
  | cons head rest ih =>
    have hhead := hkeys head List.mem_cons_self
    rcases hrate : rateOf cfg b head with _ | rate
    · obtain rfl : head = symbol := by simpa [hrate] using hfirst
      exact ⟨b, run_forM_error (run_charge_unrated cfg hhead hrate multiplier) rest⟩
    · obtain ⟨mid, hrun, hmid⟩ := run_charge cfg hhead (by simp [hrate]) multiplier
      rw [List.find?_cons_of_neg (by simp [hrate])] at hfirst
      obtain ⟨b', hrun'⟩ := ih (List.nodup_cons.mp hnodup).2 mid
        (fun other hother => hmid.keys ▸ hkeys other (List.mem_cons_of_mem head hother))
        (by simpa only [hmid.rateOf_eq] using hfirst)
      exact ⟨b', (run_forM_cons hrun rest).trans hrun'⟩

theorem run_rollDay_unrated
    (hfirst : firstUnrated cfg b = some symbol) {day : ℤ} (hday : weekdayOf day < 5) :
    ∃ b', (rollDay cfg day).run b = .error (chargeError cfg symbol) b' := by
  obtain ⟨b', hrun⟩ := run_forM_charge_unrated cfg
    (if weekdayOf day = cfg.profile.tripleSwapWeekday then 3 else 1) b.positions.keys
    b.positions.nodup b (fun _ h => h) hfirst
  refine ⟨b', ?_⟩
  rw [rollDay, if_pos hday, run_bind_get, run_bind, hrun]

theorem run_forM_rollDay_unrated (hfirst : firstUnrated cfg b = some symbol) {days : List ℤ}
    (hdays : ∃ d ∈ days, weekdayOf d < 5) :
    ∃ b', (days.forM (rollDay cfg)).run b = .error (chargeError cfg symbol) b' := by
  induction days with
  | nil => simp at hdays
  | cons day days ih =>
    by_cases hday : weekdayOf day < 5
    · obtain ⟨b', hrun⟩ := run_rollDay_unrated cfg hfirst hday
      exact ⟨b', run_forM_error hrun days⟩
    · have hskip : (rollDay cfg day).run b = .ok ⟨⟩ b := by
        rw [rollDay, if_neg hday]
        rfl
      obtain ⟨d, hd, hweekday⟩ := hdays
      have hlater : ∃ d ∈ days, weekdayOf d < 5 := by
        rcases List.mem_cons.mp hd with rfl | hmem
        · exact absurd hweekday hday
        · exact ⟨d, hmem, hweekday⟩
      obtain ⟨b', hrun⟩ := ih hlater
      exact ⟨b', (run_forM_cons hskip days).trans hrun⟩

theorem run_forM_rollDay_weekend {days : List ℤ}
    (hdays : ∀ d ∈ days, ¬weekdayOf d < 5) : (days.forM (rollDay cfg)).run b = .ok ⟨⟩ b := by
  induction days with
  | nil => rfl
  | cons day days ih =>
    have hskip : (rollDay cfg day).run b = .ok ⟨⟩ b := by
      rw [rollDay, if_neg (hdays day List.mem_cons_self)]
      rfl
    exact (run_forM_cons hskip days).trans (ih fun d hd => hdays d (List.mem_cons_of_mem day hd))

theorem run_applyRollover_unrated (hdue : RolloverDue b)
    (hfirst : firstUnrated cfg b = some symbol) :
    ∃ b', (applyRollover cfg).run b = .error (chargeError cfg symbol) b' := by
  obtain ⟨last, hlast, d, hd, hweekday⟩ := hdue
  rw [Finset.mem_Ioc] at hd
  have hnew : last < valueDay b.nowNs := hd.1.trans_le hd.2
  have hopen : b.positions.isEmpty ≠ true := by
    intro hempty
    rw [firstUnrated, Dict.keys, List.isEmpty_iff.mp hempty] at hfirst
    simp at hfirst
  obtain ⟨b', hrun⟩ := run_forM_rollDay_unrated cfg
    (b := { b with lastRolloverDay := some (valueDay b.nowNs) }) hfirst
    ⟨d, mem_daysBetween.mpr hd, hweekday⟩
  refine ⟨b', ?_⟩
  rw [applyRollover, run_bind_get, Option.mem_def.mp hlast]
  simp only
  rw [if_pos hnew, run_bind, if_neg hopen]
  exact hrun

theorem run_applyRollover_ok (h : ¬RolloverDue b ∨ firstUnrated cfg b = none) :
    ∃ b', (applyRollover cfg).run b = .ok ⟨⟩ b' := by
  rcases hlast : b.lastRolloverDay with _ | last
  · refine ⟨{ b with lastRolloverDay := some (valueDay b.nowNs) }, ?_⟩
    rw [applyRollover, run_bind_get, hlast]
    rfl
  · rcases h with hnotDue | hrated
    · rw [applyRollover, run_bind_get, hlast]
      simp only
      by_cases hnew : last < valueDay b.nowNs
      · rw [if_pos hnew]
        by_cases hempty : b.positions.isEmpty = true
        · rw [if_pos hempty]
          exact ⟨_, rfl⟩
        · rw [if_neg hempty]
          refine ⟨_, run_forM_rollDay_weekend cfg
            (b := { b with lastRolloverDay := some (valueDay b.nowNs) }) fun d hd hweekday => ?_⟩
          exact hnotDue ⟨last, hlast, d, Finset.mem_Ioc.mpr (mem_daysBetween.mp hd), hweekday⟩
      · rw [if_neg hnew]
        exact ⟨b, rfl⟩
    · obtain ⟨b', hrun, -⟩ := run_applyRollover cfg hlast fun symbol hkey hnone => by
        have hall := List.find?_eq_none.mp hrated symbol hkey
        simp [hnone] at hall
      exact ⟨b', hrun⟩

theorem not_atomic_of_conversionFails (h : ConversionFails cfg b) : ¬RolloverAtomic cfg b := by
  intro hatomic
  obtain ⟨hdue, symbol, hfirst, hknown⟩ := h
  obtain ⟨b', hrun⟩ := run_applyRollover_unrated cfg hdue (Option.mem_def.mp hfirst)
  obtain ⟨inst, hinst⟩ := Option.ne_none_iff_exists'.mp hknown
  have herror : chargeError cfg symbol = .conversionMissing inst.quote cfg.currency := by
    rw [chargeError, hinst]
  rw [herror] at hrun
  obtain ⟨last, hlast, d, hd, -⟩ := hdue
  rw [Finset.mem_Ioc] at hd
  have hcursor := cursor_applyRollover cfg b
  rw [finalState, hrun, (hatomic _ _ b' hrun).2.2, Option.mem_def.mp hlast] at hcursor
  have hmax : last = max last (valueDay b.nowNs) := Option.some.inj hcursor
  omega

/-- A rollover is all or nothing exactly when no conversion is missing for it. -/
theorem rolloverAtomic_iff : RolloverAtomic cfg b ↔ ¬ConversionFails cfg b := by
  constructor
  · exact fun hatomic hfails => not_atomic_of_conversionFails cfg hfails hatomic
  · intro h quoteCcy accountCcy b' hrun
    by_cases hok : ¬RolloverDue b ∨ firstUnrated cfg b = none
    · obtain ⟨b'', hrun'⟩ := run_applyRollover_ok cfg hok
      rw [hrun] at hrun'
      cases hrun'
    · push Not at hok
      obtain ⟨symbol, hfirst⟩ := Option.ne_none_iff_exists'.mp hok.2
      obtain ⟨b'', hrun'⟩ := run_applyRollover_unrated cfg hok.1 hfirst
      have hunknown : cfg.instruments.get? symbol = none := by
        by_contra hknown
        exact h ⟨hok.1, symbol, hfirst, hknown⟩
      rw [hrun, chargeError, hunknown] at hrun'
      cases hrun'

end Faults

def unconvertedBook : PaperBroker :=
  (sterlingRun.take 2 ++ [Call.setTime dayNs]).foldl (step sterlingVenue)
    (new sterlingVenue 10000 0)

/-- The day is marked as charged, and nothing was. -/
theorem unconverted_not_atomic : ¬RolloverAtomic sterlingVenue unconvertedBook := by
  refine not_atomic_of_conversionFails sterlingVenue ⟨⟨-1, by decide +kernel, 0, ?_, by decide⟩,
    "EUR_GBP", by decide +kernel, by decide +kernel⟩
  rw [Finset.mem_Ioc]
  decide +kernel

end PaperBroker

end Sentinel
