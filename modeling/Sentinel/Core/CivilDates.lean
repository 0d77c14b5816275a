import Mathlib.Tactic.IntervalCases
import Sentinel.Core.Clock

/-!
# The calendar

The conversion between a day and its date goes both ways and keeps the order;
the year of a day is found from the days of the years before it.
-/

namespace Sentinel

namespace CivilDate

/-- The days from the first of March of year zero to the first of March of `y`. -/
def marchDay (y : ℤ) : ℤ := 365 * y + y / 4 - y / 100 + y / 400

theorem marchDay_succ_le (y : ℤ) : marchDay (y + 1) ≤ marchDay y + 366 := by
  simp only [marchDay]
  omega

theorem marchDay_era (era y : ℤ) : marchDay (y + era * 400) = era * 146097 + marchDay y := by
  simp only [marchDay]
  omega

/-- The year of the era that `ofDay` computes. -/
def yearOfEra (day : ℤ) : ℤ := (day - day / 1460 + day / 36524 - day / 146096) / 365

theorem yearOfEra_mono {a b : ℤ} (h : a ≤ b) : yearOfEra a ≤ yearOfEra b := by
  have hyears : a - a / 1460 ≤ b - b / 1460 := by omega
  have hcenturies : a / 36524 - a / 146096 ≤ b / 36524 - b / 146096 := by omega
  simp only [yearOfEra]
  omega

theorem yearOfEra_ends : ∀ y ∈ List.range 400,
    yearOfEra (marchDay y) = y ∧ yearOfEra (marchDay (y + 1) - 1) = y := by
  decide +kernel

theorem yearOfEra_spec {day : ℤ} (h0 : 0 ≤ day) (h1 : day < 146097) :
    0 ≤ yearOfEra day ∧ yearOfEra day < 400 ∧
      marchDay (yearOfEra day) ≤ day ∧ day < marchDay (yearOfEra day + 1) := by
  have hends : ∀ y : ℤ, 0 ≤ y → y < 400 →
      yearOfEra (marchDay y) = y ∧ yearOfEra (marchDay (y + 1) - 1) = y := by
    intro y hy0 hy1
    have hy := yearOfEra_ends y.toNat (List.mem_range.mpr (by omega))
    rwa [Int.toNat_of_nonneg hy0] at hy
  have hfirst : yearOfEra 0 ≤ yearOfEra day := yearOfEra_mono h0
  have hlast : yearOfEra day ≤ yearOfEra 146096 := yearOfEra_mono (by omega)
  have hzero : yearOfEra 0 = 0 := by decide
  have hmax : yearOfEra 146096 = 399 := by decide
  refine ⟨by omega, by omega, ?_, ?_⟩
  · by_contra hlt
    have hpos : 1 ≤ yearOfEra day := by
      by_contra hneg
      have hyear : yearOfEra day = 0 := by omega
      rw [hyear] at hlt
      exact hlt h0
    have hbefore := (hends (yearOfEra day - 1) (by omega) (by omega)).2
    rw [sub_add_cancel] at hbefore
    have hle := yearOfEra_mono (show day ≤ marchDay (yearOfEra day) - 1 by omega)
    omega
  · by_contra hge
    have hless : yearOfEra day + 1 < 400 := by
      by_contra hfull
      have hyear : yearOfEra day + 1 = 400 := by omega
      rw [hyear] at hge
      exact hge h1
    have hafter := (hends (yearOfEra day + 1) (by omega) hless).1
    have hle := yearOfEra_mono (not_lt.mp hge)
    omega

/-! ## Months -/

def number (d : CivilDate) : ℤ := d.year * 12 + d.month - 1

def monthStart (k : ℤ) : ℤ :=
  marchDay ((k - 2) / 12) + (153 * ((k - 2) % 12) + 2) / 5 - 719468

variable (year month : ℤ)

def isLeap : Bool := year % 4 = 0 && (year % 100 ≠ 0 || year % 400 = 0)

/-- `monthrange(year, month)[1]`: the days of a month. -/
def monthLength : ℤ :=
  if month = 2 then if isLeap year then 29 else 28
  else if month = 4 ∨ month = 6 ∨ month = 9 ∨ month = 11 then 30
  else 31

theorem toDay_eq (d : CivilDate) (h1 : 1 ≤ d.month) (h12 : d.month ≤ 12) :
    d.toDay = monthStart d.number + d.day - 1 := by
  have hmonth : (d.number - 2) % 12 = (d.month + 9) % 12 := by
    simp only [number]
    omega
  have hyear : (d.number - 2) / 12 = if d.month ≤ 2 then d.year - 1 else d.year := by
    simp only [number]
    omega
  simp only [toDay, monthStart, marchDay, hmonth, hyear]
  omega

theorem monthStart_eq (h0 : 0 ≤ month) (h12 : month < 12) :
    monthStart (year * 12 + month + 2) = marchDay year + (153 * month + 2) / 5 - 719468 := by
  have hyear : (year * 12 + month + 2 - 2) / 12 = year := by omega
  have hmonth : (year * 12 + month + 2 - 2) % 12 = month := by omega
  rw [monthStart, hyear, hmonth]

theorem marchDay_succ : marchDay (year + 1) = marchDay year + 337 + monthLength (year + 1) 2 := by
  simp only [marchDay, monthLength, isLeap, if_true, Bool.and_eq_true, Bool.or_eq_true,
    decide_eq_true_eq]
  split_ifs with hleap
  · omega
  · omega

theorem monthStart_succ (k : ℤ) :
    monthStart (k + 1) = monthStart k + monthLength (k / 12) (k % 12 + 1) := by
  obtain ⟨year, month, hk, h0, h12⟩ : ∃ year month : ℤ,
      k = year * 12 + month + 2 ∧ 0 ≤ month ∧ month < 12 :=
    ⟨(k - 2) / 12, (k - 2) % 12, by omega, by omega, by omega⟩
  subst hk
  rw [monthStart_eq year month h0 h12]
  rcases eq_or_lt_of_le (show month ≤ 11 by omega) with hlast | hbefore
  · subst hlast
    have hnext := monthStart_eq (year + 1) 0 le_rfl (by decide)
    have hyear : (year * 12 + 11 + 2) / 12 = year + 1 := by omega
    have hmonth : (year * 12 + 11 + 2) % 12 + 1 = 2 := by omega
    rw [hyear, hmonth, show year * 12 + 11 + 2 + 1 = (year + 1) * 12 + 0 + 2 by omega, hnext,
      marchDay_succ year]
    omega
  · have hnext := monthStart_eq year (month + 1) (by omega) (by omega)
    rw [show year * 12 + month + 2 + 1 = year * 12 + (month + 1) + 2 by omega, hnext]
    have hlength : monthLength ((year * 12 + month + 2) / 12)
        ((year * 12 + month + 2) % 12 + 1) =
          (153 * (month + 1) + 2) / 5 - (153 * month + 2) / 5 := by
      have hnotFeb : (year * 12 + month + 2) % 12 + 1 ≠ 2 := by omega
      have hmod : (year * 12 + month + 2) % 12 = (month + 2) % 12 := by omega
      rw [monthLength, if_neg hnotFeb, hmod]
      clear hnext hnotFeb hmod
      interval_cases month <;> decide
    omega

theorem monthLength_pos : 28 ≤ monthLength year month := by
  unfold monthLength
  split_ifs
  · decide
  · decide
  · decide
  · decide

theorem monthStart_lt {k l : ℤ} (h : k < l) : monthStart k < monthStart l := by
  have hsteps : ∀ n : ℕ, monthStart k < monthStart (k + 1 + n) := by
    intro n
    induction n with
    | zero =>
      have hnext := monthStart_succ k
      have hlength := monthLength_pos (k / 12) (k % 12 + 1)
      simp only [Nat.cast_zero, add_zero]
      omega
    | succ n ih =>
      have hnext := monthStart_succ (k + 1 + n)
      have hlength := monthLength_pos ((k + 1 + n) / 12) ((k + 1 + n) % 12 + 1)
      push_cast
      rw [← add_assoc]
      omega
  have hgap := hsteps (l - (k + 1)).toNat
  rwa [Int.toNat_of_nonneg (by omega), add_sub_cancel] at hgap

theorem monthStart_mono {k l : ℤ} (h : k ≤ l) : monthStart k ≤ monthStart l := by
  rcases eq_or_lt_of_le h with rfl | hlt
  · exact le_rfl
  · exact (monthStart_lt hlt).le

theorem monthStart_succ_number (d : CivilDate) (h1 : 1 ≤ d.month) (h12 : d.month ≤ 12) :
    monthStart (d.number + 1) = monthStart d.number + monthLength d.year d.month := by
  have hyear : d.number / 12 = d.year := by
    rw [number]
    omega
  have hmonth : d.number % 12 + 1 = d.month := by
    rw [number]
    omega
  rw [monthStart_succ, hyear, hmonth]

/-! ## The date of a day -/

theorem ofDay_month (n : ℤ) : 1 ≤ (ofDay n).month ∧ (ofDay n).month ≤ 12 ∧
    monthStart (ofDay n).number ≤ n ∧ n < monthStart ((ofDay n).number + 1) ∧
    (ofDay n).day = n - monthStart (ofDay n).number + 1 := by
  obtain ⟨era, hera⟩ : ∃ era, era = (n + 719468) / 146097 := ⟨_, rfl⟩
  obtain ⟨hy0, hy1, hlower, hupper⟩ :=
    yearOfEra_spec (show 0 ≤ n + 719468 - era * 146097 by omega) (by omega)
  obtain ⟨year, hyear⟩ : ∃ year, year = yearOfEra (n + 719468 - era * 146097) := ⟨_, rfl⟩
  rw [← hyear] at hy0 hy1 hlower hupper
  have hmarch := marchDay_era era year
  have hmarch' := marchDay_era era (year + 1)
  have hlong := marchDay_succ_le year
  have hday : n + 719468 - era * 146097 - (365 * year + year / 4 - year / 100) =
      n + 719468 - era * 146097 - marchDay year := by
    simp only [marchDay]
    omega
  obtain ⟨dayOfYear, hdayOfYear⟩ : ∃ dayOfYear,
      dayOfYear = n + 719468 - era * 146097 - marchDay year := ⟨_, rfl⟩
  obtain ⟨month, hmonth⟩ : ∃ month, month = (5 * dayOfYear + 2) / 153 := ⟨_, rfl⟩
  have hm0 : 0 ≤ month := by omega
  have hm12 : month < 12 := by omega
  have hof : ofDay n =
      { year :=
          year + era * 400 + if (if month < 10 then month + 3 else month - 9) ≤ 2 then 1 else 0
        month := if month < 10 then month + 3 else month - 9
        day := dayOfYear - (153 * month + 2) / 5 + 1 } := by
    rw [yearOfEra] at hyear
    simp only [ofDay, ← hera, ← hyear, hday, ← hdayOfYear, ← hmonth]
  have hnumber : (ofDay n).number = (year + era * 400) * 12 + month + 2 := by
    rw [hof, number]
    simp only
    omega
  have hstart : monthStart (ofDay n).number =
      marchDay (year + era * 400) + (153 * month + 2) / 5 - 719468 := by
    rw [hnumber, monthStart_eq _ month hm0 hm12]
  have hnext : n < monthStart ((ofDay n).number + 1) := by
    rw [hnumber]
    rcases eq_or_lt_of_le (show month ≤ 11 by omega) with hlast | hbefore
    · have hafter := monthStart_eq (year + 1 + era * 400) 0 le_rfl (by decide)
      rw [show (year + era * 400) * 12 + month + 2 + 1 =
        (year + 1 + era * 400) * 12 + 0 + 2 by omega, hafter]
      omega
    · have hafter := monthStart_eq (year + era * 400) (month + 1) (by omega) (by omega)
      rw [show (year + era * 400) * 12 + month + 2 + 1 =
        (year + era * 400) * 12 + (month + 1) + 2 by omega, hafter]
      omega
  refine ⟨?_, ?_, ?_, hnext, ?_⟩
  · rw [hof]
    simp only
    omega
  · rw [hof]
    simp only
    omega
  · rw [hstart]
    omega
  · rw [hstart, hof]
    simp only
    omega

theorem toDay_ofDay (n : ℤ) : (ofDay n).toDay = n := by
  obtain ⟨h1, h12, -, -, hday⟩ := ofDay_month n
  rw [toDay_eq _ h1 h12, hday]
  omega

theorem number_ofDay_iff (n k : ℤ) :
    (ofDay n).number = k ↔ monthStart k ≤ n ∧ n < monthStart (k + 1) := by
  obtain ⟨-, -, hlower, hupper, -⟩ := ofDay_month n
  constructor
  · rintro rfl
    exact ⟨hlower, hupper⟩
  · rintro ⟨hstart, hend⟩
    rcases lt_trichotomy (ofDay n).number k with hlt | heq | hgt
    · have hmono := monthStart_mono (show (ofDay n).number + 1 ≤ k by omega)
      omega
    · exact heq
    · have hmono := monthStart_mono (show k + 1 ≤ (ofDay n).number by omega)
      omega

theorem number_ofDay_mono {n m : ℤ} (h : n ≤ m) : (ofDay n).number ≤ (ofDay m).number := by
  obtain ⟨-, -, hlower, -, -⟩ := ofDay_month n
  obtain ⟨-, -, -, hupper, -⟩ := ofDay_month m
  by_contra hlt
  have hmono := monthStart_mono (show (ofDay m).number + 1 ≤ (ofDay n).number by omega)
  omega

theorem year_ofDay (n : ℤ) : (ofDay n).year = (ofDay n).number / 12 := by
  obtain ⟨h1, h12, -, -, -⟩ := ofDay_month n
  rw [number]
  omega

theorem year_ofDay_mono {n m : ℤ} (h : n ≤ m) : (ofDay n).year ≤ (ofDay m).year := by
  rw [year_ofDay, year_ofDay]
  exact Int.ediv_le_ediv (by decide) (number_ofDay_mono h)

structure Valid (d : CivilDate) : Prop where
  month_pos : 1 ≤ d.month
  month_le : d.month ≤ 12
  day_pos : 1 ≤ d.day
  day_le : d.day ≤ monthLength d.year d.month

theorem valid_ofDay (n : ℤ) : (ofDay n).Valid := by
  obtain ⟨h1, h12, hlower, hupper, hday⟩ := ofDay_month n
  refine ⟨h1, h12, by omega, ?_⟩
  have hnext := monthStart_succ_number (ofDay n) h1 h12
  omega

theorem ofDay_toDay {d : CivilDate} (h : d.Valid) : ofDay d.toDay = d := by
  have htoDay := toDay_eq d h.month_pos h.month_le
  have hnext := monthStart_succ_number d h.month_pos h.month_le
  have h1 := h.day_pos
  have hle := h.day_le
  have hnumber : (ofDay d.toDay).number = d.number :=
    (number_ofDay_iff d.toDay d.number).mpr ⟨by omega, by omega⟩
  obtain ⟨hm1, hm12, -, -, hday⟩ := ofDay_month d.toDay
  rw [hnumber] at hday
  have hd1 := h.month_pos
  have hd12 := h.month_le
  rw [number, number] at hnumber
  rcases hof : ofDay d.toDay with ⟨year, month, day⟩
  rcases d with ⟨dyear, dmonth, dday⟩
  rw [hof] at hnumber hm1 hm12 hday
  simp only [mk.injEq] at *
  omega

end CivilDate

end Sentinel
