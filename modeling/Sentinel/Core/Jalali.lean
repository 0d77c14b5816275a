import Mathlib.Tactic.IntervalCases
import Sentinel.Core.CivilDates

/-!
# The Persian calendar

The Jalali date of a day, by the arithmetic of the leap-year breaks.  Whatever the
breaks, the months follow one another in the order of the days.
-/

namespace Sentinel

namespace Jalali

/-- `_div`: the quotient truncated toward zero (the quotient of floats is exact at these
magnitudes). -/
def div (a b : ℤ) : ℤ := a.tdiv b

def mod (a b : ℤ) : ℤ := a - div a b * b

/-- `_BREAKS`, the first apart. -/
def firstBreak : ℤ := -61

def laterBreaks : List ℤ :=
  [9, 38, 199, 426, 686, 756, 818, 1111, 1181, 1210, 1635, 2060, 2097, 2192, 2262, 2324,
    2394, 2456, 3178]

structure YearError where
  year : ℤ
  deriving DecidableEq

def breaksLoop (jy : ℤ) : List ℤ → ℤ → ℤ → ℤ → ℤ × ℤ × ℤ
  | [], leapJ, jp, jump => (leapJ, jp, jump)
  | jm :: breaks, leapJ, jp, _ =>
      if jy < jm then (leapJ, jp, jm - jp)
      else
        breaksLoop jy breaks
          (leapJ + (div (jm - jp) 33 * 8 + div (mod (jm - jp) 33) 4)) jm (jm - jp)

def marchOf (jy : ℤ) : ℤ :=
  let gy := jy + 621
  let (leapJ, jp, jump) := breaksLoop jy laterBreaks (-14) firstBreak 0
  let n := jy - jp
  let leapJ := leapJ + (div n 33 * 8 + div (mod n 33 + 3) 4)
  let leapJ := if mod jump 33 = 4 ∧ jump - n = 4 then leapJ + 1 else leapJ
  let leapG := div gy 4 - div ((div gy 100 + 1) * 3) 4 - 150
  20 + leapJ - leapG

def leapOf (jy : ℤ) : ℤ :=
  let (_, jp, jump) := breaksLoop jy laterBreaks (-14) firstBreak 0
  let n := jy - jp
  let n := if jump - n < 6 then n - jump + div (jump + 4) 33 * 33 else n
  let leap := mod (mod (n + 1) 33 - 1) 4
  if leap = -1 then 4 else leap

/-- `_jal_cal`: the leap figure, the Gregorian year, and the day of March. -/
def jalCal (jy : ℤ) : Except YearError (ℤ × ℤ × ℤ) :=
  if jy < firstBreak ∨ 3178 ≤ jy then .error ⟨jy⟩
  else .ok (leapOf jy, jy + 621, marchOf jy)

/-- `_g2d`: the Julian day number of a Gregorian date. -/
def g2d (gy gm gd : ℤ) : ℤ :=
  let d := div ((gy + div (gm - 8) 6 + 100100) * 1461) 4 + div (153 * mod (gm + 9) 12 + 2) 5 +
    gd - 34840408
  d - div (div (gy + 100100 + div (gm - 8) 6) 100 * 3) 4 + 752

/-- `_d2g`: the Gregorian date of a Julian day number. -/
def d2g (jdn : ℤ) : ℤ × ℤ × ℤ :=
  let j := 4 * jdn + 139361631
  let j := j + div (div (4 * jdn + 183187720) 146097 * 3) 4 * 4 - 3908
  let i := div (mod j 1461) 4 * 5 + 308
  let gd := div (mod i 153) 5 + 1
  let gm := mod (div i 153) 12 + 1
  let gy := div j 1461 - 100100 + div (8 - gm) 6
  (gy, gm, gd)

/-- `_d2j`: the Jalali date of a Julian day number. -/
def d2j (jdn : ℤ) : Except YearError (ℤ × ℤ × ℤ) := do
  let gy := (d2g jdn).1
  let jy := gy - 621
  let (leap, _, march) ← jalCal jy
  let k := jdn - g2d gy 3 march
  if 0 ≤ k then
    if k ≤ 185 then return (jy, 1 + div k 31, mod k 31 + 1)
    else return (jy, 7 + div (k - 186) 30, mod (k - 186) 30 + 1)
  else
    let k := if leap = 1 then k + 179 + 1 else k + 179
    return (jy - 1, 7 + div k 30, mod k 30 + 1)

def toJalali (gy gm gd : ℤ) : Except YearError (ℤ × ℤ × ℤ) := d2j (g2d gy gm gd)

example : toJalali 2026 3 20 = .ok (1404, 12, 29) ∧ toJalali 2026 3 21 = .ok (1405, 1, 1) := by
  decide +kernel

structure Month where
  year : ℤ
  month : ℤ
  deriving DecidableEq

namespace Month

def number (m : Month) : ℤ := m.year * 12 + m.month - 1

def next (m : Month) : Month := if m.month = 12 then ⟨m.year + 1, 1⟩ else ⟨m.year, m.month + 1⟩

end Month

/-- `jalali_month_of_day`. -/
def monthOfDay (day : ℤ) : Except YearError Month := do
  let date := CivilDate.ofDay day
  let (jy, jm, _) ← toJalali date.year date.month date.day
  return ⟨jy, jm⟩

/-! ## Days of the Gregorian calendar -/

theorem div_of_nonneg {a : ℤ} (h : 0 ≤ a) (b : ℤ) : div a b = a / b :=
  Int.tdiv_eq_ediv_of_nonneg h

theorem mod_of_nonneg {a : ℤ} (h : 0 ≤ a) (b : ℤ) : mod a b = a % b := by
  rw [mod, div_of_nonneg h, Int.emod_def, mul_comm]

theorem days_of_years (y : ℤ) :
    (y + 100100) * 1461 / 4 - (y + 100100) / 100 * 3 / 4 =
      CivilDate.marchDay y + 36560775 := by
  have hcenturies : (y + 100100) / 100 * 3 / 4 = y / 100 - y / 400 + 750 := by
    omega
  have hyears : (y + 100100) * 1461 / 4 = 365 * y + y / 4 + 36561525 := by
    omega
  rw [hcenturies, hyears, CivilDate.marchDay]
  omega

theorem g2d_date {d : CivilDate} (h1 : 1 ≤ d.month) (h12 : d.month ≤ 12) (hyear : 0 ≤ d.year) :
    g2d d.year d.month d.day = d.toDay + 2440588 := by
  obtain ⟨year, month, day⟩ := d
  simp only at h1 h12 hyear
  have hshift : div (month - 8) 6 = if month ≤ 2 then -1 else 0 := by
    interval_cases month
    all_goals decide
  have hmonth : mod (month + 9) 12 = (month + 9) % 12 := mod_of_nonneg (by omega) 12
  have hera : ∀ y : ℤ, y / 400 * 146097 + ((y - y / 400 * 400) * 365 +
      (y - y / 400 * 400) / 4 - (y - y / 400 * 400) / 100) = CivilDate.marchDay y := by
    intro y
    have h := CivilDate.marchDay_era (y / 400) (y - y / 400 * 400)
    simp only [sub_add_cancel, CivilDate.marchDay] at h ⊢
    omega
  have hdate : ∀ y : ℤ, 0 ≤ y + 100100 →
      div ((y + 100100) * 1461) 4 + div (153 * ((month + 9) % 12) + 2) 5 + day - 34840408 -
        div (div (y + 100100) 100 * 3) 4 + 752 =
      y / 400 * 146097 + ((y - y / 400 * 400) * 365 + (y - y / 400 * 400) / 4 -
        (y - y / 400 * 400) / 100 + ((153 * ((month + 9) % 12) + 2) / 5 + day - 1)) -
        719468 + 2440588 := by
    intro y hy
    have hyears := days_of_years y
    have hdays := hera y
    rw [div_of_nonneg hy, div_of_nonneg (by omega), div_of_nonneg (by omega),
      div_of_nonneg (by omega)]
    omega
  simp only [g2d, CivilDate.toDay, hshift, hmonth]
  split_ifs with hfirst
  · have h := hdate (year - 1) (by omega)
    rwa [show year + -1 + 100100 = year - 1 + 100100 by omega,
      show year + 100100 + -1 = year - 1 + 100100 by omega]
  · have h := hdate year (by omega)
    rwa [add_zero, add_zero]

/-! ## The order of the months -/

theorem year_d2g {jdn : ℤ} (h : 0 ≤ jdn) :
    (d2g jdn).1 = (4 * jdn + 139357723 +
      (4 * jdn + 183187720) / 146097 * 3 / 4 * 4 + 237) / 1461 - 100100 := by
  have hcenturies : 0 ≤ (4 * jdn + 183187720) / 146097 := by omega
  simp only [d2g]
  rw [div_of_nonneg (a := 4 * jdn + 183187720) (by omega),
    div_of_nonneg (a := (4 * jdn + 183187720) / 146097 * 3) (by omega)]
  generalize hj : 4 * jdn + 139361631 + (4 * jdn + 183187720) / 146097 * 3 / 4 * 4 - 3908 = j
  have hpos : 0 ≤ j := by omega
  have hmod : mod j 1461 = j % 1461 := mod_of_nonneg hpos 1461
  have hsum : 4 * jdn + 139357723 + (4 * jdn + 183187720) / 146097 * 3 / 4 * 4 + 237 =
      j + 237 := by omega
  rw [hsum, hmod, div_of_nonneg (a := j % 1461) (by omega), div_of_nonneg hpos,
    div_of_nonneg (a := j % 1461 / 4 * 5 + 308) (by omega),
    mod_of_nonneg (a := (j % 1461 / 4 * 5 + 308) / 153) (by omega)]
  -- January and February belong to the year after
  have hmonth : div (8 - ((j % 1461 / 4 * 5 + 308) / 153 % 12 + 1)) 6 =
      if 1224 ≤ j % 1461 then 1 else 0 := by
    have hlow : 2 ≤ (j % 1461 / 4 * 5 + 308) / 153 := by omega
    have hhigh : (j % 1461 / 4 * 5 + 308) / 153 ≤ 13 := by omega
    by_cases hlate : 1224 ≤ j % 1461
    · have hge : 12 ≤ (j % 1461 / 4 * 5 + 308) / 153 := by omega
      rw [if_pos hlate]
      interval_cases (j % 1461 / 4 * 5 + 308) / 153
      · decide
      · decide
    · have hlt : (j % 1461 / 4 * 5 + 308) / 153 < 12 := by omega
      rw [if_neg hlate]
      interval_cases (j % 1461 / 4 * 5 + 308) / 153
      all_goals decide
  rw [hmonth]
  split_ifs
  · omega
  · omega

theorem marchOf_bounds {jy : ℤ} (h : -61 ≤ jy) (h' : jy < 3178) :
    20 ≤ marchOf jy ∧ marchOf jy ≤ 22 := by
  have hall : ∀ n ∈ List.range 3239, 20 ≤ marchOf (n - 61) ∧ marchOf (n - 61) ≤ 22 := by
    decide +kernel
  have hyear := hall (jy + 61).toNat (List.mem_range.mpr (by omega))
  rwa [show ((jy + 61).toNat : ℤ) - 61 = jy by omega] at hyear

theorem g2d_march {gy : ℤ} (h : 0 ≤ gy + 100100) (gd : ℤ) :
    g2d gy 3 gd = CivilDate.marchDay gy + gd + 1721119 := by
  have hyears := days_of_years gy
  have hshift : div (3 - 8) 6 = 0 := by decide
  have hmonth : div (153 * mod (3 + 9) 12 + 2) 5 = 0 := by decide
  simp only [g2d, hshift, hmonth, add_zero]
  rw [div_of_nonneg h, div_of_nonneg (by omega), div_of_nonneg (by omega)]
  omega

theorem sub_march_bounds {jdn : ℤ} (h : 0 ≤ jdn) :
    let march := CivilDate.marchDay (d2g jdn).1 + 1721119
    0 ≤ (d2g jdn).1 + 100100 ∧ -62 ≤ jdn - march ∧ jdn - march ≤ 310 := by
  have hyear := year_d2g h
  have hdays := days_of_years (d2g jdn).1
  refine ⟨by omega, by omega, by omega⟩

def ofYearDay (jy n : ℤ) : ℤ × ℤ × ℤ :=
  if n ≤ 185 then (jy, 1 + n / 31, n % 31 + 1)
  else (jy, 7 + (n - 186) / 30, (n - 186) % 30 + 1)

theorem d2j_spec {jdn : ℤ} {date : ℤ × ℤ × ℤ} (h : 0 ≤ jdn) (hdate : d2j jdn = .ok date) :
    let year := (d2g jdn).1 - 621
    let k := jdn - g2d (year + 621) 3 (marchOf year)
    (-61 ≤ year ∧ year < 3178) ∧ (-90 < k ∧ k < 300) ∧
      date = if 0 ≤ k then ofYearDay year k
        else ofYearDay (year - 1) (k + 365 + if leapOf year = 1 then 1 else 0) := by
  intro year k
  obtain ⟨hpos, hlow, hhigh⟩ := sub_march_bounds h
  have hmarch := g2d_march hpos (marchOf year)
  have hyear : year + 621 = (d2g jdn).1 := sub_add_cancel _ _
  rw [d2j, jalCal] at hdate
  by_cases hrange : year < firstBreak ∨ 3178 ≤ year
  · rw [if_pos hrange] at hdate
    cases hdate
  · rw [if_neg hrange] at hdate
    rw [firstBreak, not_or, not_lt, not_le] at hrange
    obtain ⟨hfirst, hlast⟩ := marchOf_bounds hrange.1 hrange.2
    have hk : -90 < k ∧ k < 300 := by
      simp only [k, hyear, hmarch]
      omega
    have hresult : (if 0 ≤ k then
        if k ≤ 185 then Except.ok (year, 1 + div k 31, mod k 31 + 1)
        else .ok (year, 7 + div (k - 186) 30, mod (k - 186) 30 + 1)
      else .ok (year - 1, 7 + div (if leapOf year = 1 then k + 179 + 1 else k + 179) 30,
        mod (if leapOf year = 1 then k + 179 + 1 else k + 179) 30 + 1)) =
        (Except.ok date : Except YearError (ℤ × ℤ × ℤ)) := by
      simp only [k, hyear]
      exact hdate
    refine ⟨hrange, hk, ?_⟩
    by_cases hspring : 0 ≤ k
    · rw [if_pos hspring] at hresult ⊢
      rw [ofYearDay]
      by_cases hhalf : k ≤ 185
      · rw [if_pos hhalf, div_of_nonneg hspring, mod_of_nonneg hspring] at hresult
        rw [if_pos hhalf, Except.ok.inj hresult]
      · rw [if_neg hhalf, div_of_nonneg (by omega), mod_of_nonneg (by omega)] at hresult
        rw [if_neg hhalf, Except.ok.inj hresult]
    · have hdays : (if leapOf year = 1 then k + 179 + 1 else k + 179) =
          k + 365 + (if leapOf year = 1 then 1 else 0) - 186 := by
        split_ifs
        all_goals omega
      have hlate : 186 ≤ k + 365 + if leapOf year = 1 then 1 else 0 := by
        split_ifs
        all_goals omega
      rw [if_neg hspring, hdays, div_of_nonneg (by omega), mod_of_nonneg (by omega)] at hresult
      rw [if_neg hspring, ofYearDay, if_neg (by omega), Except.ok.inj hresult]

def monthsAt (jy leap k : ℤ) : ℤ :=
  if 0 ≤ k then if k ≤ 185 then jy * 12 + k / 31 else jy * 12 + 6 + (k - 186) / 30
  else (jy - 1) * 12 + 6 + (if leap = 1 then k + 179 + 1 else k + 179) / 30

theorem monthsAt_mono {jy leap k k' : ℤ} (h : k ≤ k') (hlow : -90 ≤ k) :
    monthsAt jy leap k ≤ monthsAt jy leap k' := by
  simp only [monthsAt]
  split_ifs
  all_goals omega

theorem month_of_d2j {jdn jy jm jd : ℤ} (h : 0 ≤ jdn) (hdate : d2j jdn = .ok (jy, jm, jd)) :
    let year := (d2g jdn).1 - 621
    let k := jdn - g2d (d2g jdn).1 3 (marchOf year)
    (⟨jy, jm⟩ : Month).number = monthsAt year (leapOf year) k ∧ 1 ≤ jm ∧ jm ≤ 12 ∧
      -90 < k ∧ k < 300 := by
  intro year k
  obtain ⟨-, hk, hspec⟩ := d2j_spec h hdate
  rw [sub_add_cancel] at hk hspec
  change -90 < k ∧ k < 300 at hk
  change (jy, jm, jd) = if 0 ≤ k then ofYearDay year k
    else ofYearDay (year - 1) (k + 365 + if leapOf year = 1 then 1 else 0) at hspec
  simp only [ofYearDay] at hspec
  simp only [Month.number, monthsAt]
  split_ifs at hspec ⊢
  all_goals simp only [Prod.mk.injEq] at hspec
  all_goals omega

theorem number_mono {a b : ℤ} (h : 0 ≤ a) (hab : a ≤ b) {jy jm jd jy' jm' jd' : ℤ}
    (ha : d2j a = .ok (jy, jm, jd)) (hb : d2j b = .ok (jy', jm', jd')) :
    (⟨jy, jm⟩ : Month).number ≤ (⟨jy', jm'⟩ : Month).number := by
  obtain ⟨hna, -, -, hlow, hhigh⟩ := month_of_d2j h ha
  obtain ⟨hnb, -, -, hlow', hhigh'⟩ := month_of_d2j (h.trans hab) hb
  have hyears : (d2g a).1 ≤ (d2g b).1 := by
    have hcenturies : (4 * a + 183187720) / 146097 ≤ (4 * b + 183187720) / 146097 := by omega
    have hdays : (4 * a + 183187720) / 146097 * 3 / 4 ≤
        (4 * b + 183187720) / 146097 * 3 / 4 := by omega
    rw [year_d2g h, year_d2g (h.trans hab)]
    omega
  rcases hyears.lt_or_eq with hlt | heq
  · -- the tenth month is between
    rw [hna, hnb]
    simp only [monthsAt]
    split_ifs
    all_goals omega
  · rw [heq] at hna hlow
    rw [hna, hnb]
    exact monthsAt_mono (by omega) hlow.le

/-! ## Months of days -/

def firstDate : ℤ := CivilDate.toDay ⟨1, 1, 1⟩

theorem Month.number_inj {m m' : Month} (h : 1 ≤ m.month ∧ m.month ≤ 12)
    (h' : 1 ≤ m'.month ∧ m'.month ≤ 12) (heq : m.number = m'.number) : m = m' := by
  obtain ⟨year, month⟩ := m
  obtain ⟨year', month'⟩ := m'
  simp only [Month.number, Month.mk.injEq] at h h' heq ⊢
  omega

theorem Month.number_next (m : Month) : m.next.number = m.number + 1 := by
  rw [Month.next]
  split_ifs with hlast
  · simp only [Month.number, hlast]
    omega
  · simp only [Month.number]
    omega

theorem g2d_ofDay {day : ℤ} (h : firstDate ≤ day) :
    g2d (CivilDate.ofDay day).year (CivilDate.ofDay day).month (CivilDate.ofDay day).day =
      day + 2440588 := by
  have hvalid := CivilDate.valid_ofDay day
  have hfirst : (CivilDate.ofDay firstDate).year = 1 := by decide
  have hyear := CivilDate.year_ofDay_mono h
  rw [g2d_date hvalid.month_pos hvalid.month_le (by omega), CivilDate.toDay_ofDay]

theorem date_of_monthOfDay {day : ℤ} (h : firstDate ≤ day) {m : Month}
    (hm : monthOfDay day = .ok m) : ∃ jd, d2j (day + 2440588) = .ok (m.year, m.month, jd) := by
  rw [monthOfDay, toJalali, g2d_ofDay h] at hm
  rcases hdate : d2j (day + 2440588) with e | ⟨jy, jm, jd⟩
  · rw [hdate] at hm
    cases hm
  · rw [hdate] at hm
    obtain rfl := Except.ok.inj hm
    exact ⟨jd, rfl⟩

theorem month_bounds {day : ℤ} (h : firstDate ≤ day) {m : Month}
    (hm : monthOfDay day = .ok m) : 1 ≤ m.month ∧ m.month ≤ 12 := by
  obtain ⟨jd, hdate⟩ := date_of_monthOfDay h hm
  have hfirst : (0 : ℤ) ≤ firstDate + 2440588 := by decide
  obtain ⟨-, hlow, hhigh, -⟩ := month_of_d2j (by omega) hdate
  exact ⟨hlow, hhigh⟩

theorem month_mono {a b : ℤ} (h : firstDate ≤ a) (hab : a ≤ b) {m m' : Month}
    (ha : monthOfDay a = .ok m) (hb : monthOfDay b = .ok m') : m.number ≤ m'.number := by
  obtain ⟨jd, hdate⟩ := date_of_monthOfDay h ha
  obtain ⟨jd', hdate'⟩ := date_of_monthOfDay (h.trans hab) hb
  have hfirst : (0 : ℤ) ≤ firstDate + 2440588 := by decide
  exact number_mono (by omega) (by omega) hdate hdate'

-- its arithmetic is not unfolded from here on
attribute [irreducible] monthOfDay

end Jalali

end Sentinel
