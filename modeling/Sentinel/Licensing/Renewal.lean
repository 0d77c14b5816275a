import Sentinel.Core.Audit
import Sentinel.Core.Money
import Sentinel.Licensing.License
import Sentinel.Licensing.Terms
import Sentinel.Support.Runs

/-!
# Renewals

A licence is renewed from where it ended, or from today where it ended long ago,
for the months bought or, when it was sold by the day, for as many days again.
The new term keeps the anchor day of the subscription, also where it begins on
another day of the month.
-/

namespace Sentinel

variable {κ : Type}

/-- A licence with its term; `κ` are the values of its capabilities. -/
structure TermLicense (κ : Type) extends License where
  issuedTo : String
  tier : String
  capabilities : List (String × κ) := []
  notes : String := ""
  /-- `0` for a perpetual licence and for one sold by the day. -/
  termMonths : ℤ := 0
  termIndex : ℤ := 1
  subscriptionId : String := ""
  /-- The day of the month the subscription began on, `0` where there is none. -/
  anchorDay : ℤ := 0

/-! ## Issuing -/

def tierNames : List String :=
  ["evaluation", "research", "live_single", "live_multi", "unlimited"]

def defaultTermMonths : ℤ := 3

inductive IssueError where
  | unknownTier (tier : String)
  | unnamedLicensee
  | unbound
  | perpetualWithTerm
  | monthsAndDays
  | anchorDay (day : ℤ)
  | validDays
  | termMonths
  | tooLong
  | expiresAtIssue (expires current : ℤ)
  | notAKey
  | term (error : TermError)
  deriving DecidableEq

/-- What `issue` is called with.  A term that is not mentioned is `none`, and one
that is passed as `None` is `some none`. -/
structure IssueRequest (κ : Type) where
  issuedTo : String
  tier : String
  termMonths : Option (Option ℤ) := none
  validDays : Option (Option ℤ) := none
  machine : MachineMap := []
  capabilities : List (String × κ) := []
  notes : String := ""
  activationUrl : Option String := none
  activationIntervalHours : ℤ := 0
  allowUnbound : Bool := false
  perpetual : Bool := false
  subscriptionId : String := ""
  termIndex : ℤ := 1
  anchorDay : ℤ := 0
  startsAt : Option Moment := none
  now : Moment
  /-- The private key can be loaded. -/
  keyLoads : Bool := true
  /-- What `_licence_id` draws. -/
  freshId : String

def stripText (text : String) : String := String.ofList (Chars.strip text.toList)

/-- `value or fallback` on a text. -/
def textOr (value fallback : String) : String := if value = "" then fallback else value

def liftTerm {α : Type} (result : Except TermError α) : Except IssueError α :=
  result.mapError .term

namespace IssueRequest

variable (r : IssueRequest κ)

def begins (r : IssueRequest κ) : Moment := r.startsAt.getD r.now

/-- `anchor_day or begins.day`. -/
def anchor : ℤ :=
  if r.anchorDay = 0 then r.begins.date.day else r.anchorDay

def IsPerpetual (r : IssueRequest κ) : Prop := r.perpetual = true ∨ r.validDays = some none

instance (r : IssueRequest κ) : Decidable r.IsPerpetual := inferInstanceAs (Decidable (_ ∨ _))

def expires : Except IssueError (Option ℤ × ℤ) :=
  if r.IsPerpetual then .ok (none, 0)
  else
    match r.validDays with
    | some (some days) =>
        if days ≤ 0 then .error .validDays
        else do
          let expiry ← liftTerm (rfc3339 (r.begins.instant + days * dayNs))
          return (some expiry, 0)
    | _ =>
        let months := (r.termMonths.getD none).getD defaultTermMonths
        if months ≤ 0 then .error .termMonths
        else if 60 < months then .error .tooLong
        else do
          let ends ← liftTerm (r.begins.termEnd months r.anchor)
          let expiry ← liftTerm (rfc3339 ends.instant)
          return (some expiry, months)

def check : Except IssueError Unit :=
  if r.tier ∉ tierNames then .error (.unknownTier r.tier)
  else if stripText r.issuedTo = "" then .error .unnamedLicensee
  else if r.machine.isEmpty ∧ r.allowUnbound = false then .error .unbound
  else if r.perpetual = true ∧
      (r.termMonths.isSome ∨ (r.validDays.getD none).isSome) then .error .perpetualWithTerm
  else if (r.validDays.getD none).isSome ∧ r.termMonths.isSome then .error .monthsAndDays
  else if r.anchorDay ≠ 0 ∧ ¬(1 ≤ r.anchorDay ∧ r.anchorDay ≤ 31) then
    .error (.anchorDay r.anchorDay)
  else .ok ()

def payload (issued : ℤ) (expiry : Option ℤ) (months : ℤ) :
    TermLicense κ where
  licenceId := r.freshId
  issued := issued
  expiry := expiry
  machine := r.machine
  activationUrl := r.activationUrl
  activationIntervalHours := r.activationIntervalHours
  issuedTo := stripText r.issuedTo
  tier := r.tier
  capabilities := r.capabilities
  notes := stripText r.notes
  termMonths := months
  termIndex := max 1 r.termIndex
  subscriptionId := stripText (textOr r.subscriptionId r.freshId)
  anchorDay :=
    if r.anchorDay ≠ 0 then r.anchorDay
    else if expiry.isSome then r.begins.date.day else 0

def issue (r : IssueRequest κ) : Except IssueError (TermLicense κ) := do
  r.check
  let (expiry, months) ← r.expires
  if expiry.any (· ≤ r.now.instant) then
    .error (.expiresAtIssue (expiry.getD 0) r.now.instant)
  else do
    let issued ← liftTerm (rfc3339 r.now.instant)
    if r.keyLoads then .ok (r.payload issued expiry months) else .error .notAKey

end IssueRequest

/-! ## Renewing -/

inductive RenewalError where
  | refused (reason : LicenseRefusal)
  | nothingToRenew
  | issue (error : IssueError)
  deriving DecidableEq

/-- What `renew` is called with, and the key, the draw and the clock it uses. -/
structure Renewal (κ : Type) where
  /-- The signature of the old document verifies. -/
  signed : Bool := true
  termMonths : Option ℤ := none
  machine : Option MachineMap := none
  tier : Option String := none
  capabilities : Option (List (String × κ)) := none
  notes : Option String := none
  lateRenewalGraceDays : ℕ := 14
  now : Moment
  keyLoads : Bool := true
  freshId : String

namespace TermLicense

variable (l : TermLicense κ) (r : Renewal κ)

variable (expiry : ℤ)

def startsAt : Moment :=
  if r.now.instant - expiry ≤ r.lateRenewalGraceDays * dayNs then .utc expiry else r.now

/-- The months bought; `none` renews a licence sold by the day. -/
def months : Option ℤ :=
  match r.termMonths with
  | some months => some months
  | none => if l.termMonths ≠ 0 then some l.termMonths else none

def dayTerm : ℤ :=
  max 1 (roundHalfEven (((expiry - l.issued : ℤ) : Dec) / (dayNs : Dec)))

def anchor : ℤ :=
  if l.anchorDay ≠ 0 then l.anchorDay else (Moment.utc expiry).date.day

/-- What `renew` asks `issue` for. -/
def request : IssueRequest κ :=
  let machine := r.machine.getD l.machine
  let shared : IssueRequest κ :=
    { issuedTo := l.issuedTo
      tier := textOr (r.tier.getD "") l.tier
      machine := machine
      capabilities := r.capabilities.getD l.capabilities
      notes := r.notes.getD l.notes
      activationUrl := l.activationUrl
      activationIntervalHours := l.activationIntervalHours
      allowUnbound := machine.isEmpty
      subscriptionId := textOr l.subscriptionId l.licenceId
      termIndex := l.termIndex + 1
      startsAt := some (startsAt r expiry)
      now := r.now
      keyLoads := r.keyLoads
      freshId := r.freshId }
  match l.months r with
  | none => { shared with validDays := some (some (l.dayTerm expiry)) }
  | some months => { shared with termMonths := some (some months), anchorDay := l.anchor expiry }

/-- `renew`.  The old licence is verified without the check of the machine. -/
def renew : Except RenewalError (TermLicense κ) :=
  match { l.toLicense with machine := [] }.verify r.signed (10 ^ 6) r.now.instant [] with
  | .error reason => .error (.refused reason)
  | .ok _ =>
      match l.expiry with
      | none => .error .nothingToRenew
      | some expiry => (l.request r expiry).issue.mapError .issue

def renewed : TermLicense κ :=
  match l.renew r with
  | .ok l' => l'
  | .error _ => l

def Succeeds : Prop := (l.renew r).isOk = true

instance : Decidable (l.Succeeds r) := inferInstanceAs (Decidable (_ = _))

/-! ## What is paid for -/

/-- The new term is no longer than what was bought, but for one that begins on a
clamped image of the anchor day, and does not end before the old one. -/
def PaidFor : Prop :=
  ∃ old new, l.expiry = some old ∧ (l.renewed r).expiry = some new ∧ old ≤ new ∧
    match l.months r with
    | some months =>
        ∃ bound, (startsAt r old).addMonths months = .ok bound ∧
          (new ≤ bound.instant ∨ (startsAt r old).date.ClampedImage (l.anchor old))
    | none => new ≤ (startsAt r old).instant + l.dayTerm old * dayNs

/-- The anchor day takes the new term past the months bought. -/
def Overshoots : Prop :=
  ∃ old ∈ l.expiry, ∃ months ∈ l.months r,
    (startsAt r old).date.Overshoots months (l.anchor old)

variable {l r}

theorem liftTerm_eq_ok {α : Type} {result : Except TermError α} {a : α}
    (h : liftTerm result = .ok a) : result = .ok a := by
  rcases result with e | b
  · cases h
  · exact congrArg Except.ok (Except.ok.inj h)

theorem issue_eq_ok {r : IssueRequest κ} {l' : TermLicense κ} (h : r.issue = .ok l') :
    r.check = .ok () ∧ ∃ issued expiry months, r.expires = .ok (expiry, months) ∧
      rfc3339 r.now.instant = .ok issued ∧ l' = r.payload issued expiry months := by
  rw [IssueRequest.issue] at h
  rcases hcheck : r.check with e | _
  · rw [hcheck] at h
    cases h
  · rcases hexpires : r.expires with e | ⟨expiry, months⟩
    · rw [hcheck, hexpires] at h
      cases h
    · rw [hcheck, hexpires] at h
      simp only [bind, Except.bind] at h
      rcases hissued : liftTerm (rfc3339 r.now.instant) with e | issued
      · rw [hissued] at h
        split_ifs at h
      · rw [hissued] at h
        split_ifs at h
        exact ⟨rfl, issued, expiry, months, rfl, liftTerm_eq_ok hissued, (Except.ok.inj h).symm⟩

theorem expires_months {r : IssueRequest κ} {months n : ℤ} {expiry : Option ℤ}
    (hperpetual : r.perpetual = false) (hdays : r.validDays = none)
    (hmonths : r.termMonths = some (some months)) (h : r.expires = .ok (expiry, n)) :
    n = months ∧ 0 < months ∧ ∃ ends new,
      r.begins.termEnd months r.anchor = .ok ends ∧ rfc3339 ends.instant = .ok new ∧
        expiry = some new := by
  have hnot : ¬r.IsPerpetual := by
    rw [IssueRequest.IsPerpetual, hperpetual, hdays]
    simp
  rw [IssueRequest.expires, if_neg hnot, hdays, hmonths] at h
  simp only [Option.getD_some] at h
  split_ifs at h with hpos hlong
  rcases hterm : liftTerm (r.begins.termEnd months r.anchor) with e | ends
  · rw [hterm] at h
    cases h
  · rw [hterm] at h
    simp only [bind, Except.bind] at h
    rcases hnew : liftTerm (rfc3339 ends.instant) with e | new
    · rw [hnew] at h
      cases h
    · rw [hnew] at h
      obtain ⟨rfl, rfl⟩ := Prod.mk.inj (Except.ok.inj h)
      exact ⟨rfl, not_le.mp hpos, ends, new, liftTerm_eq_ok hterm, liftTerm_eq_ok hnew, rfl⟩

theorem expires_days {r : IssueRequest κ} {days n : ℤ} {expiry : Option ℤ}
    (hperpetual : r.perpetual = false) (hdays : r.validDays = some (some days))
    (h : r.expires = .ok (expiry, n)) :
    0 < days ∧ ∃ new, rfc3339 (r.begins.instant + days * dayNs) = .ok new ∧
      expiry = some new := by
  have hnot : ¬r.IsPerpetual := by
    rw [IssueRequest.IsPerpetual, hperpetual, hdays]
    simp
  rw [IssueRequest.expires, if_neg hnot, hdays] at h
  simp only at h
  split_ifs at h with hpos
  rcases hnew : liftTerm (rfc3339 (r.begins.instant + days * dayNs)) with e | new
  · rw [hnew] at h
    cases h
  · rw [hnew] at h
    obtain ⟨rfl, rfl⟩ := Prod.mk.inj (Except.ok.inj h)
    exact ⟨not_le.mp hpos, new, liftTerm_eq_ok hnew, rfl⟩

theorem renew_eq_ok {l' : TermLicense κ} (h : l.renew r = .ok l') :
    ∃ old, l.expiry = some old ∧ (l.request r old).issue = .ok l' := by
  rw [renew] at h
  split at h
  · cases h
  · split at h
    · cases h
    · rename_i old hold
      refine ⟨old, hold, ?_⟩
      rcases hissue : (l.request r old).issue with e | l''
      · rw [hissue] at h
        cases h
      · rw [hissue] at h
        exact congrArg Except.ok (Except.ok.inj h)

theorem exists_of_succeeds (h : l.Succeeds r) : ∃ l', l.renew r = .ok l' := by
  rw [Succeeds] at h
  rcases hrenew : l.renew r with e | l'
  · rw [hrenew] at h
    cases h
  · exact ⟨l', rfl⟩

theorem renewed_eq {l' : TermLicense κ} (h : l.renew r = .ok l') : l.renewed r = l' := by
  rw [renewed, h]

theorem le_startsAt (r : Renewal κ) (old : ℤ) : old ≤ (startsAt r old).instant := by
  rw [startsAt]
  split_ifs with hgrace
  · rw [Moment.instant_utc]
  · have hdays : 0 ≤ (r.lateRenewalGraceDays : ℤ) * dayNs :=
      mul_nonneg (Int.natCast_nonneg _) (by decide)
    omega

structure RenewedMonths (l : TermLicense κ) (r : Renewal κ) (old months : ℤ)
    (l' : TermLicense κ) : Prop where
  months_pos : 0 < months
  anchor_pos : 0 < l.anchor old
  termMonths_eq : l'.termMonths = months
  anchorDay_eq : l'.anchorDay = l.anchor old
  expiry_eq : ∃ ends new, (startsAt r old).termEnd months (l.anchor old) = .ok ends ∧
    rfc3339 ends.instant = .ok new ∧ l'.expiry = some new

theorem renewedMonths_of_ok {old months : ℤ} {l' : TermLicense κ}
    (hmonths : l.months r = some months) (h : (l.request r old).issue = .ok l') :
    RenewedMonths l r old months l' := by
  obtain ⟨hcheck, issued, expiry, n, hexpires, -, rfl⟩ := issue_eq_ok h
  have hday := (Moment.utc old).valid_date.day_pos
  have hne : l.anchor old ≠ 0 := by
    rw [anchor]
    split_ifs with hset
    · exact hset
    · omega
  have hrequest : (l.request r old).anchorDay = l.anchor old ∧
      (l.request r old).perpetual = false ∧ (l.request r old).validDays = none ∧
      (l.request r old).termMonths = some (some months) ∧
      (l.request r old).begins = startsAt r old := by
    rw [request, hmonths]
    exact ⟨rfl, rfl, rfl, rfl, rfl⟩
  obtain ⟨hrequestAnchor, hperpetual, hdays, hterm, hbegins⟩ := hrequest
  have hpos : 0 < l.anchor old := by
    rw [IssueRequest.check, hrequestAnchor] at hcheck
    split_ifs at hcheck with htier hname hunbound hperp htwo hrange
    simp only [ne_eq, hne, not_false_eq_true, true_and, not_not] at hrange
    omega
  obtain ⟨rfl, hmonthsPos, ends, new, hends, hnew, rfl⟩ :=
    expires_months hperpetual hdays hterm hexpires
  rw [IssueRequest.anchor, hrequestAnchor, if_neg hne, hbegins] at hends
  refine ⟨hmonthsPos, hpos, rfl, ?_, ends, new, hends, hnew, rfl⟩
  rw [IssueRequest.payload, hrequestAnchor, if_pos hne]

theorem expiry_of_days {old : ℤ} {l' : TermLicense κ} (hmonths : l.months r = none)
    (h : (l.request r old).issue = .ok l') :
    ∃ new, l'.expiry = some new ∧ old ≤ new ∧
      new ≤ (startsAt r old).instant + l.dayTerm old * dayNs := by
  obtain ⟨-, issued, expiry, n, hexpires, -, rfl⟩ := issue_eq_ok h
  have hrequest : (l.request r old).perpetual = false ∧
      (l.request r old).validDays = some (some (l.dayTerm old)) ∧
      (l.request r old).begins = startsAt r old := by
    rw [request, hmonths]
    exact ⟨rfl, rfl, rfl⟩
  obtain ⟨hpos, new, hnew, rfl⟩ := expires_days hrequest.1 hrequest.2.1 hexpires
  rw [hrequest.2.2] at hnew
  obtain ⟨hle, hlt, -⟩ := rfc3339_eq_ok hnew
  have hstart := le_startsAt r old
  have hsecond : secondNs < dayNs := by decide
  have hdays : dayNs ≤ l.dayTerm old * dayNs := le_mul_of_one_le_left (by decide) hpos
  exact ⟨new, rfl, by omega, hle⟩

theorem RenewedMonths.expiry_iff {old months : ℤ} {l' : TermLicense κ}
    (h : RenewedMonths l r old months l') :
    ∃ new bound, l'.expiry = some new ∧ (startsAt r old).addMonths months = .ok bound ∧
      old ≤ new ∧
        ((new ≤ bound.instant ∨ (startsAt r old).date.ClampedImage (l.anchor old)) ↔
          ¬(startsAt r old).date.Overshoots months (l.anchor old)) := by
  obtain ⟨hmonthsPos, hanchorPos, -, -, ends, new, hends, hnew, hexpiry⟩ := h
  obtain ⟨bound, hbound, hmonthsEnd, htermEnd⟩ := Moment.termEnd_eq_ok hends
  obtain ⟨hle, hlt, -⟩ := rfc3339_eq_ok hnew
  have hstart := le_startsAt r old
  have hvalid := (startsAt r old).valid_date
  have hgrow := CivilDate.toDay_addMonths_ge hvalid hmonthsPos
  have hreach := CivilDate.toDay_addMonths_le_termEnd hvalid months (l.anchor old)
  have hinstant := hmonthsEnd.instant_eq
  have hinstant' := htermEnd.instant_eq
  have hday : 0 < dayNs := by decide
  have hsecond : secondNs < dayNs := by decide
  refine ⟨new, bound, hexpiry, hbound, by nlinarith, ?_⟩
  rw [← CivilDate.termEnd_le_or_clamped_iff hvalid months hanchorPos]
  -- whole days between the two ends, and less than a second lost to the text
  apply or_congr_left'
  intro _
  constructor
  · intro hnewLe
    by_contra hlater
    nlinarith
  · intro hdays
    have hmul := mul_le_mul_of_nonneg_right hdays hday.le
    linarith

theorem paidFor_iff (h : l.Succeeds r) : l.PaidFor r ↔ ¬l.Overshoots r := by
  obtain ⟨l', hl'⟩ := exists_of_succeeds h
  obtain ⟨old, hold, hissue⟩ := renew_eq_ok hl'
  rw [PaidFor, Overshoots, renewed_eq hl']
  rcases hmonths : l.months r with _ | months
  · obtain ⟨new, hnew, hle, hbought⟩ := expiry_of_days hmonths hissue
    refine iff_of_true ⟨old, new, hold, hnew, hle, hbought⟩ ?_
    rintro ⟨-, -, months, hnone, -⟩
    cases hnone
  · obtain ⟨new, bound, hnew, hbound, hle, hiff⟩ :=
      (renewedMonths_of_ok hmonths hissue).expiry_iff
    constructor
    · rintro ⟨old', new', hold', hnew', -, bound', hbound', hpaid⟩
        ⟨old'', hold'', months', hmonths', hover⟩
      obtain rfl := Option.some.inj (hold.symm.trans hold')
      obtain rfl := Option.some.inj (hnew.symm.trans hnew')
      obtain rfl := Option.some.inj (hold.symm.trans hold'')
      obtain rfl := Option.some.inj hmonths'
      obtain rfl := Except.ok.inj (hbound.symm.trans hbound')
      exact hiff.mp hpaid hover
    · intro hnot
      refine ⟨old, new, hold, hnew, hle, bound, hbound, hiff.mpr fun hover => ?_⟩
      exact hnot ⟨old, hold, months, rfl, hover⟩

/-- Along any chain of renewals, early and late, every licence is for what was
bought exactly when no renewal of the chain overshoots. -/
theorem paidFor_run_iff (l : TermLicense κ) (rs : List (Renewal κ))
    (hrs : Along renewed Succeeds l rs) :
    Along renewed PaidFor l rs ↔ Along renewed (fun l r => ¬l.Overshoots r) l rs := by
  apply Along.iff_of_invariant (I := Along renewed Succeeds)
  · exact fun l r rs h => h.2
  · exact fun l r rs h => paidFor_iff h.1
  · exact hrs

def winterQuarter : TermLicense Unit where
  licenceId := "A"
  issued := 20484 * dayNs
  expiry := some (20573 * dayNs)
  machine := []
  activationUrl := none
  activationIntervalHours := 0
  issuedTo := "X"
  tier := "live_single"
  termMonths := 3
  anchorDay := 31

/-- Two quarters more, each bought before the last one ended. -/
theorem paidFor_run_iff_twoQuarters :
    let rs : List (Renewal Unit) :=
      [{ now := .utc (20563 * dayNs), freshId := "B" },
        { now := .utc (20660 * dayNs), freshId := "C" }]
    Along renewed PaidFor winterQuarter rs ↔
      Along renewed (fun l r => ¬l.Overshoots r) winterQuarter rs :=
  paidFor_run_iff winterQuarter _ (by decide +kernel)

/-- A quarter bought on 5 June, five weeks after the last one ended, lasts to 30
September. -/
theorem lateQuarter_overshoots :
    let r : Renewal Unit := { now := .utc (20609 * dayNs), freshId := "B" }
    (winterQuarter.renewed r).expiry = some (20726 * dayNs) ∧
      (startsAt r (20573 * dayNs)).addMonths 3 = .ok (.utc (20701 * dayNs)) ∧
        ¬winterQuarter.PaidFor r := by
  intro r
  refine ⟨by decide +kernel, by decide +kernel, ?_⟩
  rw [paidFor_iff (by decide +kernel), not_not]
  exact ⟨20573 * dayNs, rfl, 3, rfl, by decide +kernel⟩

end TermLicense

end Sentinel
