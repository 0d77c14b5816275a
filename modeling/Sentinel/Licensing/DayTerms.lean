import Sentinel.Licensing.Renewal

/-!
# Licences sold by the day

A licence sold for a number of days does not carry that number.  A renewal reads
it off the time from the issue of the licence to its end, which is the term sold
where the term began when the licence was issued.
-/

namespace Sentinel

variable {κ : Type}

namespace TermLicense

variable (l : TermLicense κ) (r : Renewal κ) (days : ℤ)

def AddsDays : Prop :=
  l.months r = none → ∃ old new, l.expiry = some old ∧ (l.renewed r).expiry = some new ∧
    new ≤ (startsAt r old).instant + days * dayNs ∧
      (startsAt r old).instant + days * dayNs < new + secondNs

/-- How long after its issue a licence begins that ends at `expiry`. -/
def opensAfter (expiry : ℤ) : ℤ := expiry - days * dayNs - l.issued

/-- The term sold began within half a day of the issue.  A term of one day may
begin any time before it, and half a day exactly rounds to the even number. -/
def OpensAtIssue : Prop :=
  ∃ old, l.expiry = some old ∧
    (2 * |l.opensAfter days old| < dayNs ∨
      (2 * |l.opensAfter days old| = dayNs ∧ days % 2 = 0) ∨
        (days = 1 ∧ l.opensAfter days old < 0))

variable {l r days}

theorem dayTerm_eq_iff {old : ℤ} (hpos : 0 < days) :
    l.dayTerm old = days ↔
      2 * |l.opensAfter days old| < dayNs ∨
        (2 * |l.opensAfter days old| = dayNs ∧ days % 2 = 0) ∨
          (days = 1 ∧ l.opensAfter days old < 0) := by
  have hday : (0 : Dec) < dayNs := by norm_num [dayNs, hourNs, minuteNs]
  obtain ⟨q, hq⟩ : ∃ q : Dec, q = ((old - l.issued : ℤ) : Dec) / (dayNs : Dec) := ⟨_, rfl⟩
  have hopens : q - days = (l.opensAfter days old : Dec) / dayNs := by
    rw [hq, opensAfter, eq_div_iff hday.ne', sub_mul, div_mul_cancel₀ _ hday.ne']
    push_cast
    ring
  have habs : |q - days| = (2 * |l.opensAfter days old| : ℤ) / (2 * (dayNs : Dec)) := by
    rw [hopens, abs_div, abs_of_pos hday, ← Int.cast_abs]
    push_cast
    rw [mul_div_mul_left _ _ (by norm_num)]
  have hnear : |q - days| < 1 / 2 ↔ 2 * |l.opensAfter days old| < dayNs := by
    rw [habs, div_lt_div_iff₀ (by linarith) (by norm_num), mul_comm, one_mul,
      mul_lt_mul_iff_right₀ (by norm_num)]
    exact Int.cast_lt
  have htie : |q - days| = 1 / 2 ↔ 2 * |l.opensAfter days old| = dayNs := by
    rw [habs, div_eq_div_iff (by linarith) (by norm_num), mul_comm, one_mul,
      mul_right_inj' (by norm_num)]
    exact Int.cast_inj
  have hround := roundHalfEven_eq_iff q days
  rw [hnear, htie] at hround
  rw [dayTerm, ← hq, ← or_assoc, ← hround]
  by_cases hone : days = 1
  · -- a day is what the shortest term is renewed for
    have hbelow : l.opensAfter days old < 0 ↔ q < 1 := by
      have hsub : q = 1 + (l.opensAfter days old : Dec) / dayNs := by
        rw [← hopens, hone]
        push_cast
        ring
      rw [hsub, add_lt_iff_neg_left, div_lt_iff₀ hday, zero_mul]
      exact Int.cast_lt_zero.symm
    rw [hbelow, hone]
    constructor
    · intro hmax
      by_contra hnot
      obtain ⟨hne, hge⟩ := not_or.mp hnot
      have hmono := roundHalfEven_mono (not_lt.mp fun hlt => hge ⟨rfl, hlt⟩)
      rw [← Int.cast_one, roundHalfEven_intCast] at hmono
      omega
    · rintro (heq | ⟨-, hlt⟩)
      · omega
      · have hmono := roundHalfEven_mono hlt.le
        rw [← Int.cast_one, roundHalfEven_intCast] at hmono
        omega
  · simp only [hone, false_and, or_false]
    omega

theorem rfc3339_eq {t s : ℤ} (h : rfc3339 t = .ok s) : s = t / secondNs * secondNs := by
  rw [rfc3339] at h
  split_ifs at h
  exact (Except.ok.inj h).symm

theorem issued_of_days {old : ℤ} {l' : TermLicense κ} (hmonths : l.months r = none)
    (h : (l.request r old).issue = .ok l') :
    l'.issued = r.now.instant / secondNs * secondNs ∧
      ∃ new, l'.expiry = some new ∧
        new = ((startsAt r old).instant + l.dayTerm old * dayNs) / secondNs * secondNs := by
  obtain ⟨-, issued, expiry, n, hexpires, hissued, rfl⟩ := issue_eq_ok h
  have hrequest : (l.request r old).perpetual = false ∧
      (l.request r old).validDays = some (some (l.dayTerm old)) ∧
      (l.request r old).begins = startsAt r old ∧ (l.request r old).now = r.now := by
    rw [request, hmonths]
    exact ⟨rfl, rfl, rfl, rfl⟩
  obtain ⟨hperpetual, hdays, hbegins, hnow⟩ := hrequest
  obtain ⟨-, new, hnew, rfl⟩ := expires_days hperpetual hdays hexpires
  rw [hbegins] at hnew
  rw [hnow] at hissued
  exact ⟨rfc3339_eq hissued, new, rfl, rfc3339_eq hnew⟩

theorem addsDays_iff (hpos : 0 < days) (h : l.Succeeds r) :
    l.AddsDays r days ↔ (l.months r = none → l.OpensAtIssue days) := by
  obtain ⟨l', hl'⟩ := exists_of_succeeds h
  obtain ⟨old, hold, hissue⟩ := renew_eq_ok hl'
  rw [AddsDays, OpensAtIssue, renewed_eq hl']
  refine forall_congr' fun hmonths => ?_
  obtain ⟨-, new, hnew, hwhole⟩ := issued_of_days hmonths hissue
  have hle : new ≤ (startsAt r old).instant + l.dayTerm old * dayNs :=
    hwhole.trans_le (Int.ediv_mul_le _ (by decide))
  have hlt : (startsAt r old).instant + l.dayTerm old * dayNs < new + secondNs := by
    rw [hwhole, ← add_one_mul]
    exact Int.lt_ediv_add_one_mul_self _ (by decide)
  have hsecond : secondNs < dayNs := by decide
  constructor
  · rintro ⟨old', new', hold', hnew', hle', hlt'⟩
    obtain rfl := Option.some.inj (hold.symm.trans hold')
    obtain rfl := Option.some.inj (hnew.symm.trans hnew')
    refine ⟨old, hold, (dayTerm_eq_iff hpos).mp ?_⟩
    -- two whole numbers of days that are less than a second apart
    have hbelow : l.dayTerm old < days + 1 := by
      by_contra hmore
      have hmul := mul_le_mul_of_nonneg_right (not_lt.mp hmore) (show 0 ≤ dayNs by decide)
      rw [add_mul, one_mul] at hmul
      omega
    have habove : days < l.dayTerm old + 1 := by
      by_contra hmore
      have hmul := mul_le_mul_of_nonneg_right (not_lt.mp hmore) (show 0 ≤ dayNs by decide)
      rw [add_mul, one_mul] at hmul
      omega
    omega
  · rintro ⟨old', hold', hopens⟩
    obtain rfl := Option.some.inj (hold.symm.trans hold')
    rw [(dayTerm_eq_iff hpos).mpr hopens] at hle hlt
    exact ⟨old, new, hold, hnew, hle, hlt⟩

theorem days_pos_of_issue {q : IssueRequest κ} (hdays : q.validDays = some (some days))
    (h : q.issue = .ok l) : 0 < days := by
  obtain ⟨hcheck, issued, expiry, n, hexpires, -, rfl⟩ := issue_eq_ok h
  have hperpetual : q.perpetual = false := by
    rw [IssueRequest.check, hdays] at hcheck
    split_ifs at hcheck with htier hname hunbound hperp
    simpa using hperp
  exact (expires_days hperpetual hdays hexpires).1

/-- Along any chain of renewals of a licence sold by the day, every renewal by days
adds the days it was sold for exactly when the term of every licence so renewed
began with its issue. -/
theorem addsDays_run_iff {q : IssueRequest κ} (hdays : q.validDays = some (some days))
    (h : q.issue = .ok l) (rs : List (Renewal κ)) (hrs : Along renewed Succeeds l rs) :
    Along renewed (fun l r => l.AddsDays r days) l rs ↔
      Along renewed (fun l r => l.months r = none → l.OpensAtIssue days) l rs := by
  have hpos := days_pos_of_issue hdays h
  apply Along.iff_of_invariant (I := Along renewed Succeeds)
  · exact fun l r rs h => h.2
  · exact fun l r rs h => addsDays_iff hpos h.1
  · exact hrs

/-! ## A month renewed early -/

def thirtyDays : IssueRequest Unit where
  issuedTo := "X"
  tier := "live_single"
  validDays := some (some 30)
  allowUnbound := true
  now := .utc (20000 * dayNs)
  freshId := "A"

def thirtyDaysLicence : TermLicense Unit :=
  thirtyDays.payload (20000 * dayNs) (some (20030 * dayNs)) 0

def earlyAndLate : List (Renewal Unit) :=
  [{ now := .utc (20025 * dayNs), freshId := "B" }, { now := .utc (20060 * dayNs), freshId := "C" }]

theorem addsDays_run_iff_earlyAndLate :
    Along renewed (fun l r => l.AddsDays r 30) thirtyDaysLicence earlyAndLate ↔
      Along renewed (fun l r => l.months r = none → l.OpensAtIssue 30) thirtyDaysLicence
        earlyAndLate :=
  addsDays_run_iff (q := thirtyDays) rfl rfl earlyAndLate (by decide +kernel)

/-- The second renewal adds thirty-five days. -/
theorem earlyRenewal_grows :
    thirtyDays.issue = .ok thirtyDaysLicence ∧
      ¬Along renewed (fun l r => l.AddsDays r 30) thirtyDaysLicence earlyAndLate := by
  refine ⟨rfl, ?_⟩
  rintro ⟨-, hsecond, -⟩
  have hold : (thirtyDaysLicence.renewed { now := .utc (20025 * dayNs), freshId := "B" }).expiry =
      some (20060 * dayNs) := by decide +kernel
  have hnew : ((thirtyDaysLicence.renewed { now := .utc (20025 * dayNs), freshId := "B" }).renewed
      { now := .utc (20060 * dayNs), freshId := "C" }).expiry = some (20095 * dayNs) := by
    decide +kernel
  obtain ⟨old, new, hold', hnew', hle, -⟩ := hsecond (by decide +kernel)
  obtain rfl := Option.some.inj (hold.symm.trans hold')
  obtain rfl := Option.some.inj (hnew.symm.trans hnew')
  revert hle
  decide +kernel

end TermLicense

end Sentinel
