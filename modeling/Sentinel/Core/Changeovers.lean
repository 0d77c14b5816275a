import Sentinel.Core.SummerTime

/-!
# Instants and their readings

An instant comes back from its reading, and later instants have later readings, but for one
hour in autumn: the one after the clocks go back in New York and London, the one before in
Frankfurt.
-/

namespace Sentinel

namespace TzRules

variable {start stop : ℤ → ℤ}

def readingOf (start stop : ℤ → ℤ) (base u : ℤ) : ℤ :=
  u + summerOffset start stop base (u + summerOffset start stop base u * hourNs) * hourNs

def repeatedFrom (stop : ℤ → ℤ) (base year : ℤ) : ℤ := twoOf (stop year) - (base + 1) * hourNs

theorem Switches.readingOf_eq (h : Switches start stop) {base : ℤ} (hlow : -11 < base)
    (hhigh : base < 10) {x u : ℤ} (hnear : |u - x| ≤ hourNs) :
    let year := (CivilDate.ofDay (dayOf x)).year
    let spring := twoOf (start year) - (if base < 0 then base + 1 else base) * hourNs
    let autumn := repeatedFrom stop base year + if base < 0 then hourNs else 0
    readingOf start stop base u =
      u + (base + if spring ≤ u ∧ u < autumn then 1 else 0) * hourNs := by
  intro year spring autumn
  have hunit : hourNs = 3600000000000 := by decide
  obtain ⟨hoff, hoff'⟩ := summerOffset_bounds start stop base u
  rw [abs_le] at hnear
  have hu := h.near (show |u - x| ≤ 12 * hourNs by
    rw [abs_le]
    omega)
  have hguess := h.near (show |u + summerOffset start stop base u * hourNs - x| ≤ 12 * hourNs by
    rw [hunit] at hnear ⊢
    rw [abs_le]
    omega)
  have hspan := h.span year
  change summerOf start stop u = true ↔ twoOf (start year) ≤ u ∧ u < twoOf (stop year) at hu
  change summerOf start stop (u + summerOffset start stop base u * hourNs) = true ↔
    twoOf (start year) ≤ u + summerOffset start stop base u * hourNs ∧
      u + summerOffset start stop base u * hourNs < twoOf (stop year) at hguess
  have hsame : summerOf start stop (u + summerOffset start stop base u * hourNs) = true ↔
      spring ≤ u ∧ u < autumn := by
    rw [hguess]
    simp only [summerOffset, spring, autumn, repeatedFrom]
    rw [if_congr hu rfl rfl]
    simp only [twoOf, hunit, dayNs] at hspan ⊢
    split_ifs
    all_goals omega
  rw [readingOf, summerOffset, if_congr hsame rfl rfl]

def repeatedHour (zone : String) (year : ℤ) : Option ℤ :=
  match zone with
  | "America/New_York" => some (twoOf (nthWeekday year 11 6 1) + 4 * hourNs)
  | "Europe/Frankfurt" => some (twoOf (lastWeekday year 10 6) - 2 * hourNs)
  | "Europe/London" => some (twoOf (lastWeekday year 10 6) - hourNs)
  | _ => none

theorem Switches.instant_roundTrip (h : Switches start stop) {base : ℤ} (hlow : -11 < base)
    (hhigh : base < 10) (u : ℤ) :
    let first := repeatedFrom stop base (CivilDate.ofDay (dayOf u)).year
    let reading := readingOf start stop base u
    reading - summerOffset start stop base reading * hourNs = u ↔
      ¬ (first ≤ u ∧ u < first + hourNs) := by
  intro first reading
  have hunit : hourNs = 3600000000000 := by decide
  have hreading := h.readingOf_eq hlow hhigh (show |u - u| ≤ hourNs by simp [hunit])
  have hnear := h.near (show |reading - u| ≤ 12 * hourNs by
    obtain ⟨hoff, hoff'⟩ := summerOffset_bounds start stop base
      (u + summerOffset start stop base u * hourNs)
    simp only [reading, readingOf, hunit, abs_le] at hoff hoff' ⊢
    omega)
  have hspan := h.span (CivilDate.ofDay (dayOf u)).year
  rw [summerOffset, if_congr hnear rfl rfl]
  simp only [reading, hreading, first, repeatedFrom, twoOf, hunit, dayNs] at hspan ⊢
  split_ifs
  all_goals omega

theorem Switches.readingOf_lt (h : Switches start stop) {base : ℤ} (hlow : -11 < base)
    (hhigh : base < 10) {t t' : ℤ} (hlt : t < t')
    (hclear : let first := repeatedFrom stop base (CivilDate.ofDay (dayOf t)).year
      ¬ (t < first + hourNs ∧ first ≤ t')) :
    readingOf start stop base t < readingOf start stop base t' := by
  have hunit : hourNs = 3600000000000 := by decide
  obtain ⟨hoff, hoff'⟩ := summerOffset_bounds start stop base
    (t + summerOffset start stop base t * hourNs)
  obtain ⟨hlater, hlater'⟩ := summerOffset_bounds start stop base
    (t' + summerOffset start stop base t' * hourNs)
  by_cases hnear : t' - t ≤ hourNs
  · have hreading := h.readingOf_eq hlow hhigh (show |t - t| ≤ hourNs by simp [hunit])
    have hreading' := h.readingOf_eq hlow hhigh (show |t' - t| ≤ hourNs by
      rw [hunit] at hnear ⊢
      rw [abs_le]
      omega)
    simp only [hreading, hreading', repeatedFrom, hunit] at hclear ⊢
    split_ifs
    all_goals omega
  · simp only [readingOf, hunit] at *
    omega

/-! ## The zones -/

def InRepeatedHour (zone : String) (u : ℤ) : Prop :=
  ∃ first ∈ repeatedHour zone (CivilDate.ofDay (dayOf u)).year, first ≤ u ∧ u < first + hourNs

/-- The reading of an instant leads back to it exactly outside the repeated hour of autumn,
and readings are in the order of the instants that it does not lie between. -/
structure KeepsTime (zone : String) : Prop where
  roundTrip : ∀ u, ∃ reading, utcToLocal u zone = some reading ∧
    (localToUtcNs reading zone = some u ↔ ¬ InRepeatedHour zone u)
  ordered : ∀ t t' reading reading', t < t' → utcToLocal t zone = some reading →
    utcToLocal t' zone = some reading' →
    (∀ year, ∀ first ∈ repeatedHour zone year, ¬ (t < first + hourNs ∧ first ≤ t')) →
    reading < reading'

theorem Switches.keepsTime (h : Switches start stop) {base : ℤ} (hlow : -11 < base)
    (hhigh : base < 10) {zone : String}
    (hoffset : ∀ x, utcOffsetHours zone x = some (summerOffset start stop base x))
    (hhour : ∀ year, repeatedHour zone year = some (repeatedFrom stop base year)) :
    KeepsTime zone := by
  have hlocal : ∀ u, utcToLocal u zone = some (readingOf start stop base u) := by
    intro u
    simp only [utcToLocal, hoffset]
    rfl
  constructor
  · intro u
    have htrip := h.instant_roundTrip hlow hhigh u
    simp only at htrip
    refine ⟨_, hlocal u, ?_⟩
    rw [localToUtcNs, hoffset, Option.map_some, Option.some.injEq, htrip, InRepeatedHour, hhour]
    simp only [Option.mem_def, Option.some.injEq, exists_eq_left']
  · intro t t' reading reading' hlt hreading hreading' hclear
    rw [hlocal, Option.some.injEq] at hreading hreading'
    rw [← hreading, ← hreading']
    exact h.readingOf_lt hlow hhigh hlt (hclear _ _ (hhour _))

theorem keepsTime_of_fixed {base : ℤ} {zone : String}
    (hoffset : ∀ x, utcOffsetHours zone x = some base)
    (hhour : ∀ year, repeatedHour zone year = none) : KeepsTime zone := by
  have hlocal : ∀ u, utcToLocal u zone = some (u + base * hourNs) := by
    intro u
    simp only [utcToLocal, hoffset]
    rfl
  constructor
  · intro u
    refine ⟨_, hlocal u, ?_⟩
    simp [localToUtcNs, hoffset, InRepeatedHour, hhour]
  · intro t t' reading reading' hlt hreading hreading' _
    rw [hlocal, Option.some.injEq] at hreading hreading'
    omega

/-- In every zone of the table. -/
theorem keepsTime_of_mem_zones {zone : String} (h : zone ∈ zones) : KeepsTime zone := by
  have hhours : ∀ day k : ℤ, twoOf day - (k + 1) * hourNs = twoOf day + (-1 - k) * hourNs := by
    intro day k
    ring
  have heast : ∀ x, utcOffsetHours "Europe/London" x =
      some (summerOffset (fun year => lastWeekday year 3 6) (fun year => lastWeekday year 10 6)
        0 x) := by
    intro x
    rw [summerOffset, zero_add]
    rfl
  simp only [zones, List.mem_cons, List.not_mem_nil, or_false] at h
  rcases h with rfl | rfl | rfl | rfl | rfl
  · refine switches_us.keepsTime (show (-11 : ℤ) < -5 by decide) (by decide) (fun _ => rfl) ?_
    intro year
    rw [repeatedFrom, hhours]
    rfl
  · exact switches_eu.keepsTime (show (-11 : ℤ) < 1 by decide) (by decide) (fun _ => rfl)
      fun _ => rfl
  · refine switches_eu.keepsTime (by decide) (by decide) heast ?_
    intro year
    rw [repeatedFrom, zero_add, one_mul]
    rfl
  · exact keepsTime_of_fixed (fun _ => (rfl : _ = some (9 : ℤ))) fun _ => rfl
  · exact keepsTime_of_fixed (fun _ => (rfl : _ = some (0 : ℤ))) fun _ => rfl

theorem keepsTime_of_mem_zones_frankfurt : KeepsTime "Europe/Frankfurt" :=
  keepsTime_of_mem_zones (by decide)

end TzRules

end Sentinel
