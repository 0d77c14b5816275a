import Mathlib.Tactic.Linarith
import Sentinel.Core.CivilDates

/-!
# Terms in calendar months

A term is sold in months of the calendar.  Its end has the day of its beginning,
clamped to the month it falls in; where the subscription began on a later day of
the month, the end re-reaches for that day.
-/

namespace Sentinel

def secondNs : ℤ := 10 ^ 9

/-- What `datetime` cannot compute. -/
inductive TermError where
  | negativeMonths
  | yearOutOfRange
  deriving DecidableEq

/-! ## Months of dates -/

namespace CivilDate

variable (d : CivilDate)

/-- The day of the month, clamped to the month `months` later. -/
def addMonths (months : ℤ) : CivilDate :=
  let total := d.month - 1 + months
  let year := d.year + total / 12
  let month := total % 12 + 1
  { year, month, day := min d.day (monthLength year month) }

def IsLast (d : CivilDate) : Prop := d.day = monthLength d.year d.month

instance (d : CivilDate) : Decidable d.IsLast := inferInstanceAs (Decidable (_ = _))

@[simp] theorem number_addMonths (months : ℤ) :
    (d.addMonths months).number = d.number + months := by
  simp only [number, addMonths]
  omega

theorem day_addMonths (months : ℤ) :
    (d.addMonths months).day =
      min d.day (monthLength (d.addMonths months).year (d.addMonths months).month) := rfl

variable {d : CivilDate}

theorem valid_addMonths (h : d.Valid) (months : ℤ) : (d.addMonths months).Valid := by
  have hday := h.day_pos
  have hlength := monthLength_pos (d.addMonths months).year (d.addMonths months).month
  have hmonth : (d.addMonths months).month = (d.month - 1 + months) % 12 + 1 := rfl
  refine ⟨by omega, by omega, ?_, ?_⟩
  · rw [day_addMonths]
    omega
  · rw [day_addMonths]
    omega

theorem Valid.setDay (h : d.Valid) {day : ℤ} (hpos : 1 ≤ day)
    (hle : day ≤ monthLength d.year d.month) : ({ d with day } : CivilDate).Valid :=
  ⟨h.month_pos, h.month_le, hpos, hle⟩

theorem toDay_setDay (h : d.Valid) (day : ℤ) :
    ({ d with day } : CivilDate).toDay = d.toDay + (day - d.day) := by
  have hset := toDay_eq { d with day } h.month_pos h.month_le
  have hday := toDay_eq d h.month_pos h.month_le
  simp only [number] at hset hday
  omega

theorem toDay_addMonths_ge (h : d.Valid) {months : ℤ} (hpos : 0 < months) :
    d.toDay + 28 ≤ (d.addMonths months).toDay := by
  have hvalid := valid_addMonths h months
  have hstart := monthStart_mono (show d.number + 1 ≤ d.number + months by omega)
  have hover := monthStart_succ_number d h.month_pos h.month_le
  have hlength := monthLength_pos d.year d.month
  have hlength' := monthLength_pos (d.addMonths months).year (d.addMonths months).month
  have hday := h.day_le
  rw [toDay_eq d h.month_pos h.month_le, toDay_eq _ hvalid.month_pos hvalid.month_le,
    number_addMonths, day_addMonths]
  omega

def termEnd (months anchorDay : ℤ) : CivilDate :=
  let ends := d.addMonths months
  if anchorDay ≠ 0 ∧ ends.day < anchorDay then
    { ends with day := min anchorDay (monthLength ends.year ends.month) }
  else ends

theorem valid_termEnd (h : d.Valid) (months anchorDay : ℤ) :
    (d.termEnd months anchorDay).Valid := by
  have hvalid := valid_addMonths h months
  rw [termEnd]
  split_ifs with hanchor
  · have hday := hvalid.day_pos
    have hlength := monthLength_pos (d.addMonths months).year (d.addMonths months).month
    exact hvalid.setDay (by omega) (min_le_right _ _)
  · exact hvalid

def Overshoots (d : CivilDate) (months anchorDay : ℤ) : Prop :=
  d.day < anchorDay ∧ ¬d.IsLast ∧
    d.day < monthLength (d.addMonths months).year (d.addMonths months).month

instance (d : CivilDate) (months anchorDay : ℤ) : Decidable (d.Overshoots months anchorDay) :=
  inferInstanceAs (Decidable (_ ∧ _ ∧ _))

def ClampedImage (d : CivilDate) (anchorDay : ℤ) : Prop := d.IsLast ∧ d.day < anchorDay

instance (d : CivilDate) (anchorDay : ℤ) : Decidable (d.ClampedImage anchorDay) :=
  inferInstanceAs (Decidable (_ ∧ _))

theorem toDay_addMonths_le_termEnd (h : d.Valid) (months anchorDay : ℤ) :
    (d.addMonths months).toDay ≤ (d.termEnd months anchorDay).toDay := by
  have hvalid := valid_addMonths h months
  have hday := hvalid.day_le
  rw [termEnd]
  split_ifs with hanchor
  · have hset := toDay_setDay hvalid
      (min anchorDay (monthLength (d.addMonths months).year (d.addMonths months).month))
    omega
  · exact le_rfl

theorem toDay_termEnd_le_iff (h : d.Valid) {months anchorDay : ℤ}
    (hanchor : 0 < anchorDay) :
    (d.termEnd months anchorDay).toDay ≤ (d.addMonths months).toDay ↔
      ¬(d.day < anchorDay ∧
        d.day < monthLength (d.addMonths months).year (d.addMonths months).month) := by
  have hvalid := valid_addMonths h months
  have hday := day_addMonths d months
  rw [termEnd]
  split_ifs with hreach
  · have hset := toDay_setDay hvalid
      (min anchorDay (monthLength (d.addMonths months).year (d.addMonths months).month))
    omega
  · simp only [le_refl, true_iff]
    omega

theorem termEnd_le_or_clamped_iff (h : d.Valid) (months : ℤ) {anchorDay : ℤ}
    (hanchor : 0 < anchorDay) :
    ((d.termEnd months anchorDay).toDay ≤ (d.addMonths months).toDay ∨
        d.ClampedImage anchorDay) ↔ ¬d.Overshoots months anchorDay := by
  rw [toDay_termEnd_le_iff h hanchor, ClampedImage, Overshoots]
  tauto

def OnAnchor (anchorDay : ℤ) : Prop :=
  d.day = min anchorDay (monthLength d.year d.month)

end CivilDate

/-! ## Moments -/

/-- A `datetime` with a zone of a fixed offset: what its clock shows, and how far
that is ahead of UTC. -/
structure Moment where
  wall : ℤ
  offset : ℤ
  deriving DecidableEq

namespace Moment

variable (m : Moment)

/-- The instant in UTC, `timestamp()`. -/
def instant : ℤ := m.wall - m.offset

def date : CivilDate := CivilDate.ofDay (dayOf m.wall)

def utc (t : ℤ) : Moment := ⟨t, 0⟩

/-- `replace(year, month, day)`. -/
def onDate (d : CivilDate) : Except TermError Moment :=
  if 1 ≤ d.year ∧ d.year ≤ 9999 then .ok { m with wall := d.toDay * dayNs + m.wall % dayNs }
  else .error .yearOutOfRange

def addMonths (m : Moment) (months : ℤ) : Except TermError Moment :=
  if months < 0 then .error .negativeMonths else m.onDate (m.date.addMonths months)

/-- The end of a term that begins at `begins`. -/
def termEnd (begins : Moment) (months anchorDay : ℤ) : Except TermError Moment := do
  let ends ← begins.addMonths months
  if anchorDay ≠ 0 ∧ ends.date.day < anchorDay then
    ends.onDate
      { ends.date with
        day := min anchorDay (CivilDate.monthLength ends.date.year ends.date.month) }
  else .ok ends

theorem valid_date : m.date.Valid := CivilDate.valid_ofDay _

@[simp] theorem instant_utc (t : ℤ) : (utc t).instant = t := sub_zero t

theorem wall_eq : m.wall = m.date.toDay * dayNs + m.wall % dayNs := by
  rw [date, CivilDate.toDay_ofDay, dayOf]
  exact (Int.ediv_mul_add_emod m.wall dayNs).symm

theorem date_mk {d : CivilDate} (h : d.Valid) {rest : ℤ} (h0 : 0 ≤ rest) (h1 : rest < dayNs)
    (offset : ℤ) : date ⟨d.toDay * dayNs + rest, offset⟩ = d := by
  have hday : dayOf (d.toDay * dayNs + rest) = d.toDay := by
    rw [dayOf, add_comm, Int.add_mul_ediv_right _ _ (by decide), Int.ediv_eq_zero_of_lt h0 h1,
      zero_add]
  rw [date, hday, CivilDate.ofDay_toDay h]

structure Moved (m m' : Moment) (d : CivilDate) : Prop where
  date_eq : m'.date = d
  instant_eq : m'.instant = m.instant + (d.toDay - m.date.toDay) * dayNs
  offset_eq : m'.offset = m.offset

theorem moved_onDate {m m' : Moment} {d : CivilDate} (hd : d.Valid)
    (h : m.onDate d = .ok m') : Moved m m' d := by
  rw [onDate] at h
  split_ifs at h
  obtain rfl := Except.ok.inj h
  have hrest := Int.emod_nonneg m.wall (show dayNs ≠ 0 by decide)
  have hrest' := Int.emod_lt_of_pos m.wall (show 0 < dayNs by decide)
  refine ⟨date_mk hd hrest hrest' _, ?_, rfl⟩
  have hwall := m.wall_eq
  simp only [instant]
  linarith

theorem moved_addMonths {m m' : Moment} {months : ℤ} (h : m.addMonths months = .ok m') :
    Moved m m' (m.date.addMonths months) := by
  rw [addMonths] at h
  split_ifs at h
  exact moved_onDate (CivilDate.valid_addMonths m.valid_date months) h

theorem termEnd_eq_ok {begins ends : Moment} {months anchorDay : ℤ}
    (h : begins.termEnd months anchorDay = .ok ends) :
    ∃ bound, begins.addMonths months = .ok bound ∧
      Moved begins bound (begins.date.addMonths months) ∧
      Moved begins ends (begins.date.termEnd months anchorDay) := by
  rw [termEnd] at h
  rcases hadd : begins.addMonths months with e | bound
  · rw [hadd] at h
    cases h
  · rw [hadd] at h
    simp only [bind, Except.bind] at h
    have hbound := moved_addMonths hadd
    refine ⟨bound, rfl, hbound, ?_⟩
    have hvalid := CivilDate.valid_termEnd begins.valid_date months anchorDay
    rw [CivilDate.termEnd] at hvalid ⊢
    rw [hbound.date_eq] at h
    split_ifs at h hvalid ⊢ with hreach
    · obtain ⟨hdate, hinstant, hoffset⟩ := moved_onDate hvalid h
      refine ⟨hdate, ?_, hoffset.trans hbound.offset_eq⟩
      rw [hinstant, hbound.instant_eq, hbound.date_eq]
      linarith
    · obtain rfl := Except.ok.inj h
      exact hbound

end Moment

/-- `_rfc3339`: the text of an instant has whole seconds. -/
def rfc3339 (t : ℤ) : Except TermError ℤ :=
  let year := (Moment.utc t).date.year
  if 1 ≤ year ∧ year ≤ 9999 then .ok (t / secondNs * secondNs) else .error .yearOutOfRange

theorem rfc3339_eq_ok {t s : ℤ} (h : rfc3339 t = .ok s) :
    s ≤ t ∧ t < s + secondNs ∧ (Moment.utc s).date = (Moment.utc t).date := by
  rw [rfc3339] at h
  split_ifs at h
  obtain rfl := Except.ok.inj h
  have hsecond : 0 < secondNs := by decide
  have hday : dayNs = secondNs * 86400 := by decide
  refine ⟨Int.ediv_mul_le t hsecond.ne', Int.lt_ediv_add_one_mul_self t hsecond |>.trans_eq ?_, ?_⟩
  · rw [add_mul, one_mul]
  · simp only [Moment.date, Moment.utc, dayOf, hday]
    rw [← Int.ediv_ediv_of_nonneg hsecond.le, ← Int.ediv_ediv_of_nonneg hsecond.le,
      Int.mul_ediv_cancel _ hsecond.ne']

end Sentinel

/-!
## Chains of terms

Terms that follow one another on one anchor day end where one term of all their
months ends: the day that a short month takes away, the anchor gives back.
-/

namespace Sentinel

namespace CivilDate

variable {d : CivilDate}

theorem termEnd_eq_of_day_le (h : d.Valid) (months : ℤ) {anchorDay : ℤ}
    (hday : d.day ≤ anchorDay) :
    d.termEnd months anchorDay =
      ⟨(d.addMonths months).year, (d.addMonths months).month,
        min anchorDay (monthLength (d.addMonths months).year (d.addMonths months).month)⟩ := by
  have hpos := h.day_pos
  have hclamp := day_addMonths d months
  rw [termEnd]
  split_ifs with hreach
  · rfl
  · have hends : (d.addMonths months).day =
        min anchorDay (monthLength (d.addMonths months).year (d.addMonths months).month) := by
      omega
    rw [← hends]

theorem day_termEnd_le (h : d.Valid) (months : ℤ) {anchorDay : ℤ}
    (hday : d.day ≤ anchorDay) : (d.termEnd months anchorDay).day ≤ anchorDay := by
  rw [termEnd_eq_of_day_le h months hday]
  exact min_le_left _ _

@[simp] theorem number_termEnd (d : CivilDate) (months anchorDay : ℤ) :
    (d.termEnd months anchorDay).number = d.number + months := by
  rw [← number_addMonths, termEnd]
  split_ifs
  · rfl
  · rfl

theorem termEnd_termEnd (h : d.Valid) (first second : ℤ) {anchorDay : ℤ}
    (hday : d.day ≤ anchorDay) :
    (d.termEnd first anchorDay).termEnd second anchorDay =
      d.termEnd (first + second) anchorDay := by
  have hmonth : (d.termEnd first anchorDay).month = (d.addMonths first).month ∧
      (d.termEnd first anchorDay).year = (d.addMonths first).year := by
    rw [termEnd_eq_of_day_le h first hday]
    exact ⟨rfl, rfl⟩
  have hsame : ((d.termEnd first anchorDay).addMonths second).year =
        (d.addMonths (first + second)).year ∧
      ((d.termEnd first anchorDay).addMonths second).month =
        (d.addMonths (first + second)).month := by
    simp only [addMonths] at hmonth ⊢
    omega
  rw [termEnd_eq_of_day_le (valid_termEnd h first anchorDay) second (day_termEnd_le h first hday),
    termEnd_eq_of_day_le h (first + second) hday, hsame.1, hsame.2]

theorem termEnd_zero (h : d.Valid) {anchorDay : ℤ} (hon : d.OnAnchor anchorDay) :
    d.termEnd 0 anchorDay = d := by
  have hmonth := h.month_pos
  have hmonth' := h.month_le
  have hsame : (d.addMonths 0).year = d.year ∧ (d.addMonths 0).month = d.month := by
    simp only [addMonths]
    omega
  rw [OnAnchor] at hon
  rw [termEnd_eq_of_day_le h 0 (hon.trans_le (min_le_left _ _)), hsame.1, hsame.2, ← hon]

theorem year_le_termEnd (d : CivilDate) {months : ℤ} (hpos : 0 ≤ months) (anchorDay : ℤ)
    (h : d.Valid) : d.year ≤ (d.termEnd months anchorDay).year := by
  have hyear : (d.termEnd months anchorDay).year = (d.addMonths months).year := by
    rw [termEnd]
    split_ifs
    · rfl
    · rfl
  have hmonth := h.month_pos
  rw [hyear]
  simp only [addMonths]
  omega

end CivilDate

namespace Moment

theorem onDate_onDate {m m' : Moment} {d : CivilDate} (h : m.onDate d = .ok m')
    (d' : CivilDate) : m'.onDate d' = m.onDate d' := by
  rw [onDate] at h
  split_ifs at h
  obtain rfl := Except.ok.inj h
  have hrest : (d.toDay * dayNs + m.wall % dayNs) % dayNs = m.wall % dayNs := by
    rw [add_comm, Int.add_mul_emod_self_right, Int.emod_emod_of_dvd _ dvd_rfl]
  simp only [onDate, hrest]

theorem onDate_date {m : Moment} (h : 1 ≤ m.date.year ∧ m.date.year ≤ 9999) :
    m.onDate m.date = .ok m := by
  rw [onDate, if_pos h, ← m.wall_eq]

theorem termEnd_eq_onDate (m : Moment) {months : ℤ} (hpos : 0 ≤ months) (anchorDay : ℤ) :
    m.termEnd months anchorDay = m.onDate (m.date.termEnd months anchorDay) := by
  rw [termEnd, addMonths, if_neg (not_lt.mpr hpos)]
  rcases hadd : m.onDate (m.date.addMonths months) with e | bound
  · have hout : ¬(1 ≤ (m.date.addMonths months).year ∧ (m.date.addMonths months).year ≤ 9999) := by
      intro hin
      rw [onDate, if_pos hin] at hadd
      cases hadd
    rw [onDate, if_neg hout] at hadd
    rw [CivilDate.termEnd]
    split_ifs
    · rw [onDate, if_neg hout, ← hadd]
      rfl
    · rw [onDate, if_neg hout, ← hadd]
      rfl
  · have hmoved := moved_onDate (CivilDate.valid_addMonths m.valid_date months) hadd
    simp only [bind, Except.bind]
    rw [CivilDate.termEnd, hmoved.date_eq]
    split_ifs
    · exact onDate_onDate hadd _
    · exact hadd.symm

variable (begins : Moment) (anchorDay : ℤ)

def terms (months : List ℕ) : Except TermError Moment :=
  months.foldlM (fun (m : Moment) (count : ℕ) => m.termEnd count anchorDay) begins

theorem terms_cons (count : ℕ) (months : List ℕ) :
    begins.terms anchorDay (count :: months) =
      begins.termEnd count anchorDay >>= fun m => m.terms anchorDay months :=
  List.foldlM_cons

theorem terms_cons_eq {begins : Moment} {anchorDay : ℤ} (hyear : 1 ≤ begins.date.year)
    (hday : begins.date.day ≤ anchorDay) (count : ℕ) (months : List ℕ) :
    begins.terms anchorDay (count :: months) =
      begins.termEnd ((count :: months).sum : ℕ) anchorDay := by
  induction months generalizing begins count with
  | nil =>
    rw [terms_cons, List.sum_singleton]
    rcases begins.termEnd count anchorDay with e | m
    · rfl
    · rfl
  | cons next months ih =>
    rw [terms_cons, termEnd_eq_onDate _ (Int.natCast_nonneg _),
      termEnd_eq_onDate _ (Int.natCast_nonneg _)]
    have hvalid := begins.valid_date
    have hcomp := CivilDate.termEnd_termEnd hvalid count (next :: months).sum hday
    rw [List.sum_cons, Nat.cast_add, ← hcomp]
    rcases hfirst : begins.onDate (begins.date.termEnd count anchorDay) with e | m
    · -- a year past the last one stays past it
      have hge := begins.date.year_le_termEnd (Int.natCast_nonneg count) anchorDay hvalid
      have hlater := (begins.date.termEnd count anchorDay).year_le_termEnd
        (Int.natCast_nonneg (next :: months).sum) anchorDay
        (CivilDate.valid_termEnd hvalid count anchorDay)
      rw [onDate] at hfirst
      split_ifs at hfirst with hin
      rw [onDate, if_neg (by omega), hfirst]
      rfl
    · have hmoved := moved_onDate (CivilDate.valid_termEnd hvalid count anchorDay) hfirst
      have hge := begins.date.year_le_termEnd (Int.natCast_nonneg count) anchorDay hvalid
      have hle := CivilDate.day_termEnd_le hvalid (count : ℤ) hday
      rw [← hmoved.date_eq] at hge hle
      simp only [bind, Except.bind]
      rw [ih (hyear.trans hge) hle next, termEnd_eq_onDate _ (Int.natCast_nonneg _),
        hmoved.date_eq, onDate_onDate hfirst]

theorem number_terms {begins ends : Moment} {anchorDay : ℤ} {months : List ℕ}
    (h : begins.terms anchorDay months = .ok ends) :
    ends.date.number = begins.date.number + (months.sum : ℕ) := by
  induction months generalizing begins with
  | nil =>
    obtain rfl := Except.ok.inj h
    simp
  | cons count months ih =>
    rw [terms_cons] at h
    rcases hfirst : begins.termEnd count anchorDay with e | m
    · rw [hfirst] at h
      cases h
    · rw [hfirst] at h
      obtain ⟨-, -, -, hmoved⟩ := termEnd_eq_ok hfirst
      rw [ih h, hmoved.date_eq, CivilDate.number_termEnd, List.sum_cons, Nat.cast_add, add_assoc]

/-- A chain of terms ends where one term of its months ends, except that no terms at
all leave a date before its anchor day where it is; and it ends in the month its
months lead to. -/
theorem terms_eq_termEnd (months : List ℕ)
    (hyear : 1 ≤ begins.date.year ∧ begins.date.year ≤ 9999)
    (hday : begins.date.day ≤ anchorDay) :
    (months ≠ [] ∨ begins.date.OnAnchor anchorDay →
      begins.terms anchorDay months = begins.termEnd (months.sum : ℕ) anchorDay) ∧
    ∀ ends, begins.terms anchorDay months = .ok ends →
      ends.date.number = begins.date.number + (months.sum : ℕ) := by
  refine ⟨?_, fun ends h => number_terms h⟩
  intro hsome
  rcases months with _ | ⟨count, months⟩
  · have hon := hsome.resolve_left fun hne => hne rfl
    rw [List.sum_nil, termEnd_eq_onDate _ (by simp), Nat.cast_zero,
      CivilDate.termEnd_zero begins.valid_date hon, onDate_date hyear]
    rfl
  · exact terms_cons_eq hyear.1 hday count months

/-- Noon on 31 March 2026, and four quarters. -/
theorem terms_eq_termEnd_fourQuarters :
    let begins := utc (20543 * dayNs + 12 * hourNs)
    (begins.terms 31 [3, 3, 3, 3] = begins.termEnd (12 : ℕ) 31) ∧
      ∀ ends, begins.terms 31 [3, 3, 3, 3] = .ok ends →
        ends.date.number = begins.date.number + (12 : ℕ) := by
  intro begins
  obtain ⟨hends, hmonth⟩ :=
    terms_eq_termEnd begins 31 [3, 3, 3, 3] (by decide +kernel) (by decide +kernel)
  exact ⟨hends (Or.inl (by simp)), hmonth⟩

/-- No terms leave 30 March where it is; one term of no months moves it to the anchor
day. -/
theorem noTerms_before_anchor :
    let begins := utc (20542 * dayNs)
    begins.date.day ≤ 31 ∧ begins.terms 31 [] ≠ begins.termEnd (([] : List ℕ).sum : ℕ) 31 := by
  decide +kernel

end Moment

end Sentinel
