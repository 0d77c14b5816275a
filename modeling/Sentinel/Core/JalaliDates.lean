import Sentinel.Core.Jalali

/-!
# The days of the Persian calendar

Each day is a day of one Jalali year, the years follow one another, and the months of a
year have the lengths of the leap rule; so the conversion takes the next day to the next
date and keeps the order of the days.
-/

namespace Sentinel

namespace Jalali

/-! ## Dates -/

structure Date where
  year : ℤ
  month : ℤ
  day : ℤ
  deriving DecidableEq

def isLeap (jy : ℤ) : Prop := leapOf jy = 0

instance (jy : ℤ) : Decidable (isLeap jy) := inferInstanceAs (Decidable (_ = _))

def yearLength (jy : ℤ) : ℤ := if isLeap jy then 366 else 365

def monthLength (jy jm : ℤ) : ℤ :=
  if jm ≤ 6 then 31 else if jm ≤ 11 then 30 else if isLeap jy then 30 else 29

namespace Date

def toTriple (d : Date) : ℤ × ℤ × ℤ := (d.year, d.month, d.day)

structure Valid (d : Date) : Prop where
  month_pos : 1 ≤ d.month
  month_le : d.month ≤ 12
  day_pos : 1 ≤ d.day
  day_le : d.day ≤ monthLength d.year d.month

def next (d : Date) : Date :=
  if d.day < monthLength d.year d.month then ⟨d.year, d.month, d.day + 1⟩
  else if d.month < 12 then ⟨d.year, d.month + 1, 1⟩
  else ⟨d.year + 1, 1, 1⟩

def Before (d d' : Date) : Prop :=
  d.year < d'.year ∨ d.year = d'.year ∧ (d.month < d'.month ∨
    d.month = d'.month ∧ d.day < d'.day)

end Date

/-! ## The days of a year -/

theorem halves_of_ofYearDay {jy n : ℤ} {d : Date} (h : d.toTriple = ofYearDay jy n) :
    d.year = jy ∧ (n ≤ 185 ∧ d.month = 1 + n / 31 ∧ d.day = n % 31 + 1 ∨
      186 ≤ n ∧ d.month = 7 + (n - 186) / 30 ∧ d.day = (n - 186) % 30 + 1) := by
  simp only [Date.toTriple, ofYearDay] at h
  split_ifs at h with hhalf
  all_goals simp only [Prod.mk.injEq] at h
  all_goals omega

theorem valid_ofYearDay {jy n : ℤ} (h : 0 ≤ n) (h' : n < yearLength jy) {d : Date}
    (hd : d.toTriple = ofYearDay jy n) : d.Valid := by
  obtain ⟨rfl, hhalves⟩ := halves_of_ofYearDay hd
  have hlength : d.day ≤ monthLength d.year d.month := by
    simp only [yearLength] at h'
    simp only [monthLength]
    split_ifs at h' ⊢
    all_goals omega
  have hlong : n < 366 := by
    simp only [yearLength] at h'
    split_ifs at h'
    all_goals omega
  exact ⟨by omega, by omega, by omega, hlength⟩

theorem next_ofYearDay {jy n : ℤ} (h : 0 ≤ n) {d d' : Date}
    (hd : d.toTriple = ofYearDay jy n)
    (hd' : n + 1 < yearLength jy ∧ d'.toTriple = ofYearDay jy (n + 1) ∨
      n + 1 = yearLength jy ∧ d'.toTriple = ofYearDay (jy + 1) 0) : d' = d.next := by
  obtain ⟨rfl, hhalves⟩ := halves_of_ofYearDay hd
  obtain ⟨year', month', day'⟩ := d'
  simp only [Date.next, monthLength, yearLength] at hd' ⊢
  rcases hd' with ⟨hlong, hd'⟩ | ⟨hlast, hd'⟩
  · obtain ⟨hyear, hhalves'⟩ := halves_of_ofYearDay hd'
    simp only at hyear hhalves'
    split_ifs at hlong ⊢
    all_goals simp only [Date.mk.injEq]
    all_goals omega
  · obtain ⟨hyear, hhalves'⟩ := halves_of_ofYearDay hd'
    simp only at hyear hhalves'
    split_ifs at hlast ⊢
    all_goals simp only [Date.mk.injEq]
    all_goals omega

theorem before_ofYearDay {jy jy' n n' : ℤ} (h : 0 ≤ n) (h' : 0 ≤ n')
    (hlt : jy < jy' ∨ jy = jy' ∧ n < n') {d d' : Date} (hd : d.toTriple = ofYearDay jy n)
    (hd' : d'.toTriple = ofYearDay jy' n') : d.Before d' := by
  obtain ⟨rfl, hhalves⟩ := halves_of_ofYearDay hd
  obtain ⟨rfl, hhalves'⟩ := halves_of_ofYearDay hd'
  simp only [Date.Before]
  omega

/-! ## The years -/

def newYear (jy : ℤ) : ℤ := g2d (jy + 621) 3 (marchOf jy)

theorem newYear_succ {jy : ℤ} (h : -62 ≤ jy) (h' : jy < 3177) :
    newYear (jy + 1) = newYear jy + yearLength jy ∧ (leapOf (jy + 1) = 1 ↔ isLeap jy) := by
  have hall : ∀ n ∈ List.range 3239, newYear (n - 62 + 1) = newYear (n - 62) + yearLength (n - 62) ∧
      (leapOf (n - 62 + 1) = 1 ↔ isLeap (n - 62)) := by
    decide +kernel
  have hyear := hall (jy + 62).toNat (List.mem_range.mpr (by omega))
  rwa [show ((jy + 62).toNat : ℤ) - 62 = jy by omega] at hyear

theorem yearLength_pos (jy : ℤ) : 365 ≤ yearLength jy := by
  rw [yearLength]
  split_ifs
  all_goals omega

theorem newYear_add_le {jy jy' : ℤ} (h : -62 ≤ jy) (hlt : jy < jy') (h' : jy' ≤ 3177) :
    newYear jy + yearLength jy ≤ newYear jy' := by
  induction jy', hlt using Int.leInduction with
  | base => exact (newYear_succ h h').1.ge
  | succ later hle ih =>
    have hlater := (newYear_succ (show -62 ≤ later by omega) h').1
    have hpos := yearLength_pos later
    have hbefore := ih (by omega)
    omega

theorem exists_yearDay {jdn : ℤ} {d : Date} (h : 0 ≤ jdn) (hd : d2j jdn = .ok d.toTriple) :
    ∃ jy n, (-62 ≤ jy ∧ jy ≤ 3177) ∧ (0 ≤ n ∧ n < yearLength jy) ∧ jdn = newYear jy + n ∧
      d.toTriple = ofYearDay jy n := by
  obtain ⟨⟨hfirst, hlast⟩, ⟨hlow, hhigh⟩, hdate⟩ := d2j_spec h hd
  obtain ⟨year, hyear⟩ : ∃ year, year = (d2g jdn).1 - 621 := ⟨_, rfl⟩
  rw [← hyear] at hfirst hlast hlow hhigh hdate
  change -90 < jdn - newYear year at hlow
  change jdn - newYear year < 300 at hhigh
  change d.toTriple = if 0 ≤ jdn - newYear year then ofYearDay year (jdn - newYear year) else
    ofYearDay (year - 1) (jdn - newYear year + 365 + if leapOf year = 1 then 1 else 0) at hdate
  by_cases hspring : 0 ≤ jdn - newYear year
  · rw [if_pos hspring] at hdate
    have hlong := yearLength_pos year
    exact ⟨year, _, ⟨by omega, by omega⟩, ⟨hspring, by omega⟩, by omega, hdate⟩
  · obtain ⟨hnext, hleap⟩ := newYear_succ (show -62 ≤ year - 1 by omega) (by omega)
    rw [sub_add_cancel] at hnext hleap
    have hlength : (365 : ℤ) + (if leapOf year = 1 then 1 else 0) = yearLength (year - 1) := by
      rw [yearLength, if_congr hleap rfl rfl]
      split_ifs
      all_goals rfl
    rw [if_neg hspring, add_assoc, hlength] at hdate
    have hlong := yearLength_pos (year - 1)
    exact ⟨year - 1, _, ⟨by omega, by omega⟩, ⟨by omega, by omega⟩, by omega, hdate⟩

/-! ## The conversion -/

namespace Date

theorem Before.asymm {d d' : Date} (h : d.Before d') : ¬ d'.Before d := by
  simp only [Before] at h ⊢
  omega

end Date

theorem exists_yearDay_of_toJalali {g : CivilDate} (hg : g.Valid) (hyear : 1 ≤ g.year) {d : Date}
    (hd : toJalali g.year g.month g.day = .ok d.toTriple) :
    ∃ jy n, (-62 ≤ jy ∧ jy ≤ 3177) ∧ (0 ≤ n ∧ n < yearLength jy) ∧
      g.toDay + 2440588 = newYear jy + n ∧ d.toTriple = ofYearDay jy n := by
  rw [toJalali, g2d_date hg.month_pos hg.month_le (by omega)] at hd
  have hpos : 0 ≤ g.toDay + 2440588 := by
    by_contra hneg
    have hmono := CivilDate.year_ofDay_mono (show g.toDay ≤ -2440588 by omega)
    have hlate : (CivilDate.ofDay (-2440588)).year ≤ 0 := by decide
    rw [CivilDate.ofDay_toDay hg] at hmono
    omega
  exact exists_yearDay hpos hd

theorem before_of_lt {g g' : CivilDate} (hg : g.Valid) (hg' : g'.Valid) (hyear : 1 ≤ g.year)
    (hyear' : 1 ≤ g'.year) {d d' : Date}
    (hd : toJalali g.year g.month g.day = .ok d.toTriple)
    (hd' : toJalali g'.year g'.month g'.day = .ok d'.toTriple) (hlt : g.toDay < g'.toDay) :
    d.Before d' := by
  obtain ⟨jy, n, hjy, hn, hday, hdate⟩ := exists_yearDay_of_toJalali hg hyear hd
  obtain ⟨jy', n', hjy', hn', hday', hdate'⟩ := exists_yearDay_of_toJalali hg' hyear' hd'
  refine before_ofYearDay hn.1 hn'.1 ?_ hdate hdate'
  rcases lt_trichotomy jy jy' with hless | rfl | hmore
  · exact Or.inl hless
  · exact Or.inr ⟨rfl, by omega⟩
  · have hle := newYear_add_le hjy'.1 hmore hjy.2
    omega

theorem next_of_succ {g g' : CivilDate} (hg : g.Valid) (hg' : g'.Valid) (hyear : 1 ≤ g.year)
    (hyear' : 1 ≤ g'.year) {d d' : Date}
    (hd : toJalali g.year g.month g.day = .ok d.toTriple)
    (hd' : toJalali g'.year g'.month g'.day = .ok d'.toTriple) (hsucc : g'.toDay = g.toDay + 1) :
    d' = d.next := by
  obtain ⟨jy, n, hjy, hn, hday, hdate⟩ := exists_yearDay_of_toJalali hg hyear hd
  obtain ⟨jy', n', hjy', hn', hday', hdate'⟩ := exists_yearDay_of_toJalali hg' hyear' hd'
  refine next_ofYearDay hn.1 hdate ?_
  rcases lt_trichotomy jy jy' with hless | rfl | hmore
  · -- the year after begins
    have hle := newYear_add_le hjy.1 hless hjy'.2
    have hfirst := (newYear_succ hjy.1 (by omega)).1
    have hlong := yearLength_pos (jy + 1)
    obtain rfl : jy' = jy + 1 := by
      by_contra hne
      have hskip := newYear_add_le (show -62 ≤ jy + 1 by omega) (by omega) hjy'.2
      omega
    obtain rfl : n' = 0 := by omega
    exact Or.inr ⟨by omega, hdate'⟩
  · obtain rfl : n' = n + 1 := by omega
    exact Or.inl ⟨hn'.2, hdate'⟩
  · have hle := newYear_add_le hjy'.1 hmore hjy.2
    omega

/-- Over the supported range the dates are those of the calendar, the next day has the next
date, and the order of the days is that of the dates. -/
theorem toJalali_calendar {g g' : CivilDate} (hg : g.Valid) (hg' : g'.Valid) (hyear : 1 ≤ g.year)
    (hyear' : 1 ≤ g'.year) {d d' : Date}
    (hd : toJalali g.year g.month g.day = .ok d.toTriple)
    (hd' : toJalali g'.year g'.month g'.day = .ok d'.toTriple) :
    d.Valid ∧ (g' = CivilDate.ofDay (g.toDay + 1) → d' = d.next) ∧ (d = d' ↔ g = g') ∧
      (d.Before d' ↔ g.toDay < g'.toDay) := by
  have hbefore := before_of_lt hg hg' hyear hyear' hd hd'
  have hafter := before_of_lt hg' hg hyear' hyear hd' hd
  have heq : g.toDay = g'.toDay → g = g' := fun h => by
    rw [← CivilDate.ofDay_toDay hg, h, CivilDate.ofDay_toDay hg']
  have hsame : g = g' → d = d' := by
    rintro rfl
    obtain ⟨year, month, day⟩ := d
    obtain ⟨year', month', day'⟩ := d'
    simpa [Date.toTriple] using hd.symm.trans hd'
  refine ⟨?_, ?_, ⟨?_, hsame⟩, ?_, hbefore⟩
  · obtain ⟨jy, n, -, hn, -, hdate⟩ := exists_yearDay_of_toJalali hg hyear hd
    exact valid_ofYearDay hn.1 hn.2 hdate
  · intro hnext
    refine next_of_succ hg hg' hyear hyear' hd hd' ?_
    rw [hnext, CivilDate.toDay_ofDay]
  · rintro rfl
    rcases lt_trichotomy g.toDay g'.toDay with hlt | hday | hgt
    · exact absurd (hbefore hlt) (hbefore hlt).asymm
    · exact heq hday
    · exact absurd (hafter hgt) (hafter hgt).asymm
  · intro hd
    rcases lt_trichotomy g.toDay g'.toDay with hlt | hday | hgt
    · exact hlt
    · obtain rfl := hsame (heq hday)
      exact absurd hd hd.asymm
    · exact absurd (hafter hgt) hd.asymm

theorem toJalali_calendar_newYear :
    (⟨1403, 12, 30⟩ : Date).Valid ∧ (⟨1404, 1, 1⟩ : Date) = (⟨1403, 12, 30⟩ : Date).next ∧
      (⟨1403, 12, 30⟩ : Date) ≠ ⟨1404, 1, 1⟩ ∧ (⟨1403, 12, 30⟩ : Date).Before ⟨1404, 1, 1⟩ := by
  obtain ⟨hvalid, hnext, hsame, horder⟩ := toJalali_calendar
    (show (⟨2025, 3, 20⟩ : CivilDate).Valid by constructor <;> decide)
    (show (⟨2025, 3, 21⟩ : CivilDate).Valid by constructor <;> decide) (by decide) (by decide)
    (show toJalali 2025 3 20 = .ok (⟨1403, 12, 30⟩ : Date).toTriple by decide +kernel)
    (show toJalali 2025 3 21 = .ok (⟨1404, 1, 1⟩ : Date).toTriple by decide +kernel)
  exact ⟨hvalid, hnext (by decide), mt hsame.mp (by decide), horder.mpr (by decide)⟩

end Jalali

end Sentinel
