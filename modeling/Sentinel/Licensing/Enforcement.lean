import Mathlib.Data.List.Dedup
import Sentinel.Licensing.Activation

/-!
# The licence gate

One evaluation reads the licence file, verifies it and runs the clock guard,
which may overturn a valid verdict.  The guard is called on every exit, with
the id and the expiry of a licence whose signature need not have verified; its
key is derived from the machine map of the file that was last parsed.

The guard keeps a small state file: the latest wall-clock time it has seen and
the ids of the licences it has watched expire.  The file carries a tag under a
key that is derived from a machine map; a file whose tag does not fit the key
in use is read as if nothing had been recorded.
-/

namespace Sentinel

def clockSlackNs : ℤ := 6 * hourNs

def expiredBound : ℕ := 200

structure GuardState where
  highWaterNs : ℤ := 0
  firstSeenNs : ℤ := 0
  checks : ℕ := 0
  expiredLicences : List String := []
  lastLicenceId : String := ""
  version : ℕ := 1
deriving DecidableEq

structure GuardFile (τ : Type*) where
  state : GuardState
  tag : τ
deriving DecidableEq

structure GuardKeys (κ τ : Type*) where
  deriveKey : MachineMap → κ
  tag : κ → GuardState → τ

inductive GuardMessage where
  | none
  | unauthenticated
  | clockBehind
  | alreadyExpired
  | notWritten
deriving DecidableEq

structure GuardReport where
  ok : Bool
  rolledBack : Bool
  rollbackNs : ℤ
  previouslyExpired : Bool
  stateMissing : Bool
  stateUnreadable : Bool
  stateUnwritable : Bool
  message : GuardMessage
  checks : ℕ
  firstSeenNs : ℤ
deriving DecidableEq

variable {α : Type*}

/-- The last `n` items of a list. -/
def keepLast (n : ℕ) (l : List α) : List α :=
  l.drop (l.length - n)

theorem keepLast_of_length_le {n : ℕ} {l : List α} (h : l.length ≤ n) : keepLast n l = l := by
  rw [keepLast, Nat.sub_eq_zero_of_le h, List.drop_zero]

theorem length_keepLast_le (n : ℕ) (l : List α) : (keepLast n l).length ≤ n := by
  rw [keepLast, List.length_drop]
  omega

theorem length_eraseDups_le [BEq α] [LawfulBEq α] (l : List α) : l.eraseDups.length ≤ l.length := by
  induction hlen : l.length using Nat.strong_induction_on generalizing l with
  | _ n ih =>
      cases l with
      | nil => simp
      | cons a l =>
          have hfilter : (l.filter fun b => !b == a).length ≤ l.length := List.length_filter_le _ _
          rw [List.length_cons] at hlen
          have hrest := ih _ (by omega) (l.filter fun b => !b == a) rfl
          rw [List.eraseDups_cons, List.length_cons]
          omega

theorem mem_of_mem_keepLast {n : ℕ} {l : List α} {a : α} (h : a ∈ keepLast n l) : a ∈ l :=
  List.mem_of_mem_drop h

namespace GuardState

variable (s : GuardState)

def toDict : GuardState :=
  { s with expiredLicences := s.expiredLicences.eraseDups }

def recordExpired (licenceId : String) (licenceExpired : Bool) : List String :=
  if licenceExpired && licenceId != "" then
    keepLast expiredBound
      (if licenceId ∈ s.expiredLicences then s.expiredLicences
      else s.expiredLicences ++ [licenceId])
  else s.expiredLicences

def advance (now : ℤ) (licenceId : String) (licenceExpired : Bool) : GuardState :=
  { s with
    highWaterNs := max s.highWaterNs now
    firstSeenNs := if s.firstSeenNs = 0 then now else s.firstSeenNs
    checks := s.checks + 1
    lastLicenceId := if licenceId = "" then s.lastLicenceId else licenceId
    expiredLicences := s.recordExpired licenceId licenceExpired }

def rollback (now : ℤ) : ℤ :=
  if s.highWaterNs = 0 then 0 else s.highWaterNs - now

theorem mem_recordExpired {s : GuardState} {licenceId id : String} {licenceExpired : Bool}
    (h : id ∈ s.recordExpired licenceId licenceExpired) :
    id ∈ s.expiredLicences ∨
      licenceExpired = true ∧ licenceId ≠ "" ∧ id = licenceId := by
  rw [recordExpired] at h
  split_ifs at h with hrecords hlisted
  · exact .inl (mem_of_mem_keepLast h)
  · have hmem := mem_of_mem_keepLast h
    rw [List.mem_append, List.mem_singleton] at hmem
    refine hmem.imp_right fun hid => ?_
    simpa [hid] using hrecords
  · exact .inl h

theorem mem_recordExpired_of_mem {s : GuardState} {licenceId id : String}
    {licenceExpired : Bool} (hbound : s.expiredLicences.length ≤ expiredBound)
    (hroom : licenceExpired = true → licenceId ≠ "" → licenceId ∉ s.expiredLicences →
      s.expiredLicences.length < expiredBound)
    (h : id ∈ s.expiredLicences) : id ∈ s.recordExpired licenceId licenceExpired := by
  rw [recordExpired]
  split_ifs with hrecords hlisted
  · rw [keepLast_of_length_le hbound]
    exact h
  · have hrec : licenceExpired = true ∧ licenceId ≠ "" := by simpa using hrecords
    have hlt := hroom hrec.1 hrec.2 hlisted
    have hlen : (s.expiredLicences ++ [licenceId]).length ≤ expiredBound := by
      rw [List.length_append]
      exact hlt
    rw [keepLast_of_length_le hlen]
    exact List.mem_append_left _ h
  · exact h

theorem self_mem_recordExpired {licenceId : String} (h : licenceId ≠ "")
    (hlisted : licenceId ∉ s.expiredLicences) : licenceId ∈ s.recordExpired licenceId true := by
  rw [recordExpired, if_pos (by simpa using h), if_neg hlisted, keepLast]
  rw [List.drop_append_of_le_length (by simp [expiredBound])]
  exact List.mem_append_right _ (List.mem_singleton_self licenceId)

theorem length_recordExpired_le {s : GuardState} {licenceId : String} {licenceExpired : Bool}
    (hbound : s.expiredLicences.length ≤ expiredBound) :
    (s.recordExpired licenceId licenceExpired).length ≤ expiredBound := by
  rw [recordExpired]
  split_ifs with hrecords hlisted
  · exact length_keepLast_le _ _
  · exact length_keepLast_le _ _
  · exact hbound

end GuardState

/-! ## The check -/

structure GuardCall where
  nowNs : ℤ
  licenceId : String
  licenceExpired : Bool
  /-- The state file, when there is one, can be read. -/
  readable : Bool
  /-- The state file can be written. -/
  writable : Bool

namespace ClockGuard

variable {κ τ : Type*} [DecidableEq τ] (keys : GuardKeys κ τ)

def Authenticates (keys : GuardKeys κ τ) (key : κ) (f : GuardFile τ) : Prop :=
  keys.tag key f.state = f.tag

instance (keys : GuardKeys κ τ) (key : κ) (f : GuardFile τ) :
    Decidable (Authenticates keys key f) :=
  inferInstanceAs (Decidable (keys.tag key f.state = f.tag))

def read (key : κ) (readable : Bool) (file : Option (GuardFile τ)) : GuardState × Bool × Bool :=
  match file with
  | none => ({}, true, false)
  | some f =>
      if readable && decide (Authenticates keys key f) then (f.state, false, false)
      else ({}, false, true)

def write (key : κ) (writable : Bool) (file : Option (GuardFile τ))
    (state : GuardState) : Option (GuardFile τ) :=
  if writable then some { state := state.toDict, tag := keys.tag key state.toDict } else file

def evaluate (slackNs : ℤ) (key : κ) (file : Option (GuardFile τ))
    (c : GuardCall) : GuardReport × Option (GuardFile τ) :=
  let (state, missing, unreadable) := read keys key c.readable file
  let rolledBack := decide (slackNs < state.rollback c.nowNs)
  let previouslyExpired := c.licenceId != "" && decide (c.licenceId ∈ state.expiredLicences)
  let message :=
    if rolledBack then GuardMessage.clockBehind
    else if unreadable then .unauthenticated
    else if previouslyExpired then .alreadyExpired
    else if !c.writable then .notWritten
    else .none
  let next := state.advance c.nowNs c.licenceId c.licenceExpired
  ({ ok := !rolledBack && !previouslyExpired
     rolledBack := rolledBack
     rollbackNs := if rolledBack then state.rollback c.nowNs else 0
     previouslyExpired := previouslyExpired
     stateMissing := missing
     stateUnreadable := unreadable
     stateUnwritable := !c.writable
     message := message
     checks := next.checks
     firstSeenNs := next.firstSeenNs },
   write keys key c.writable file next)

def remembered (key : κ) (readable : Bool) (file : Option (GuardFile τ)) : GuardState :=
  (read keys key readable file).1

variable {keys : GuardKeys κ τ}

theorem remembered_of_authenticates {key : κ} {f : GuardFile τ}
    (h : Authenticates keys key f) : remembered keys key true (some f) = f.state := by
  simp [remembered, read, h]

theorem remembered_of_not {key : κ} {readable : Bool}
    {f : GuardFile τ} (h : ¬(readable = true ∧ Authenticates keys key f)) :
    remembered keys key readable (some f) = {} := by
  have hread : (readable && decide (Authenticates keys key f)) = false := by
    rw [← Bool.not_eq_true]
    simpa using h
  simp [remembered, read, hread]

theorem file_evaluate (slackNs : ℤ) (key : κ)
    (file : Option (GuardFile τ)) (c : GuardCall) :
    (evaluate keys slackNs key file c).2 =
      write keys key c.writable file
        ((remembered keys key c.readable file).advance c.nowNs c.licenceId
          c.licenceExpired) := rfl

theorem not_remembered_of_ok {slackNs : ℤ} {key : κ}
    {file : Option (GuardFile τ)} {c : GuardCall}
    (h : (evaluate keys slackNs key file c).1.ok = true) (hid : c.licenceId ≠ "") :
    c.licenceId ∉ (remembered keys key c.readable file).expiredLicences := by
  intro hmem
  have hprev : (c.licenceId != "" && decide
      (c.licenceId ∈ (remembered keys key c.readable file).expiredLicences)) = true := by
    simpa [hmem] using hid
  have hok : (!decide (slackNs < (remembered keys key c.readable file).rollback c.nowNs) &&
      !(c.licenceId != "" && decide
        (c.licenceId ∈ (remembered keys key c.readable file).expiredLicences))) = true := h
  rw [hprev] at hok
  simp at hok

end ClockGuard

end Sentinel

namespace Sentinel

inductive LicenceFile where
  | absent
  /-- Reading or parsing raises something else than `LicenseError`. -/
  | unreadable
  | malformed
  /-- A parsed licence, and whether its signature verifies. -/
  | document (licence : License) (signed : Bool)
deriving DecidableEq

namespace LicenceFile

def peekedId : LicenceFile → String
  | document licence _ => licence.licenceId
  | _ => ""

def signedId : LicenceFile → Option String
  | document licence true => some licence.licenceId
  | _ => none

def Unsigned : LicenceFile → Prop
  | malformed => True
  | document _ signed => signed = false
  | _ => False

instance (file : LicenceFile) : Decidable file.Unsigned :=
  match file with
  | malformed => isTrue trivial
  | document _ signed => inferInstanceAs (Decidable (signed = false))
  | absent => isFalse id
  | unreadable => isFalse id

theorem signedId_of_unsigned {file : LicenceFile} (h : file.Unsigned) :
    file.signedId = none := by
  cases file with
  | document licence signed =>
      have hsigned : signed = false := h
      rw [hsigned]
      rfl
  | absent => rfl
  | unreadable => rfl
  | malformed => rfl

end LicenceFile

inductive LicenceStage where
  | none
  | perpetual
  | expired
  | critical
  | due
  | approaching
  | healthy
  | clock
  | revoked
deriving DecidableEq

def License.remaining (l : License) (now : ℤ) : Option ℤ :=
  l.expiry.map fun expiry => expiry - now

def License.renewalStage (l : License) (now : ℤ) : LicenceStage :=
  match l.remaining now with
  | none => .perpetual
  | some remaining =>
      if remaining < 0 then .expired
      else if remaining ≤ 3 * dayNs then .critical
      else if remaining ≤ 14 * dayNs then .due
      else if remaining ≤ 30 * dayNs then .approaching
      else .healthy

structure LicenseStatus where
  valid : Bool
  unlicensedMode : Bool := false
  licence : Option License := none
  inGrace : Bool := false
  remaining : Option ℤ := none
  clock : Option GuardReport := none
  activation : Option LeaseStatus := none
  stage : LicenceStage := .none
deriving DecidableEq

structure Evaluation where
  now : ℤ
  file : LicenceFile
  current : MachineMap
  /-- The guard's state file, when there is one, can be read. -/
  readable : Bool
  /-- The guard's state file can be written. -/
  writable : Bool
  activation : LeaseStatus

structure LicenseGate (κ τ : Type*) where
  /-- A vendor key is configured. -/
  vendorKey : Bool := true
  graceDays : ℤ := 14
  slackNs : ℤ := clockSlackNs
  keys : GuardKeys κ τ

structure GateState (τ : Type*) where
  guardFile : Option (GuardFile τ)
  bound : MachineMap

def LeaseStatus.withdrawn (a : LeaseStatus) : Bool :=
  a.required && !a.ok && a.lease.any (·.status ≠ "active")

namespace LicenseGate

variable {κ τ : Type*} [DecidableEq τ] (g : LicenseGate κ τ) (s : GateState τ) (e : Evaluation)

def runGuard (licenceId : String) (expired : Bool) : GuardReport × GateState τ :=
  let (report, file) := ClockGuard.evaluate g.keys g.slackNs (g.keys.deriveKey s.bound)
    s.guardFile
    { nowNs := e.now, licenceId := licenceId, licenceExpired := expired,
      readable := e.readable, writable := e.writable }
  (report, { s with guardFile := file })

def accept (licence : License) (e : Evaluation) (clock : GuardReport) : LicenseStatus :=
  { valid := clock.ok && !e.activation.withdrawn
    licence := some licence
    inGrace := (licence.remaining e.now).any (· < 0)
    remaining := licence.remaining e.now
    clock := some clock
    activation := some e.activation
    stage :=
      if e.activation.withdrawn then .revoked
      else if clock.ok then licence.renewalStage e.now
      else if clock.rolledBack then .clock
      else .expired }

/-- `none` when an exception leaves the evaluation. -/
def evaluate : Option LicenseStatus × GateState τ :=
  if !g.vendorKey then (some { valid := true, unlicensedMode := true }, s)
  else
    match e.file with
    | .unreadable => (none, s)
    | .absent =>
        let (clock, s') := g.runGuard s e "" false
        (some { valid := false, clock := some clock }, s')
    | .malformed =>
        let (clock, s') := g.runGuard s e "" false
        (some { valid := false, clock := some clock }, s')
    | .document peeked signed =>
        let rekeyed := { s with bound := peeked.machine }
        match peeked.verify signed g.graceDays e.now e.current with
        | .error .expired =>
            let (clock, s') := g.runGuard rekeyed e peeked.licenceId true
            (some { valid := false, clock := some clock, stage := .expired }, s')
        | .error .invalid =>
            let (clock, s') := g.runGuard rekeyed e peeked.licenceId
              (peeked.pastGrace g.graceDays e.now)
            (some { valid := false, clock := some clock }, s')
        | .error .machineMismatch =>
            let (clock, s') := g.runGuard rekeyed e peeked.licenceId
              (peeked.pastGrace g.graceDays e.now)
            (some { valid := false, clock := some clock }, s')
        | .ok licence =>
            let (clock, s') := g.runGuard rekeyed e licence.licenceId false
            (some (accept licence e clock), s')

/-! ## What every exit does to the guard -/

def RunsGuard (g : LicenseGate κ τ) (e : Evaluation) : Prop :=
  g.vendorKey = true ∧ e.file ≠ .unreadable

instance (g : LicenseGate κ τ) (e : Evaluation) : Decidable (g.RunsGuard e) :=
  inferInstanceAs (Decidable (_ ∧ _))

def keyMap : MachineMap :=
  match e.file with
  | .document licence _ => licence.machine
  | _ => s.bound

def peekedExpired : Bool :=
  match e.file with
  | .document licence _ => licence.pastGrace g.graceDays e.now
  | _ => false

def guardCall : GuardCall :=
  { nowNs := e.now, licenceId := e.file.peekedId, licenceExpired := g.peekedExpired e,
    readable := e.readable, writable := e.writable }

def guardAnswer : GuardReport × Option (GuardFile τ) :=
  ClockGuard.evaluate g.keys g.slackNs (g.keys.deriveKey (keyMap s e)) s.guardFile
    (g.guardCall e)

variable {g : LicenseGate κ τ}

theorem evaluate_of_not_runsGuard {e : Evaluation}
    (h : ¬g.RunsGuard e) (s : GateState τ) : (g.evaluate s e).2 = s := by
  rw [evaluate]
  cases hkey : g.vendorKey with
  | false => rfl
  | true =>
      have hfile : e.file = .unreadable := by
        by_contra hne
        exact h ⟨hkey, hne⟩
      rw [hfile]
      rfl

theorem evaluate_of_runsGuard {e : Evaluation} (h : g.RunsGuard e)
    (s : GateState τ) :
    (g.evaluate s e).2 = { guardFile := (g.guardAnswer s e).2, bound := keyMap s e } := by
  rw [evaluate, if_neg (by simp [h.1])]
  cases hfile : e.file with
  | unreadable => exact absurd hfile h.2
  | absent => simp [guardAnswer, guardCall, keyMap, peekedExpired, hfile, runGuard,
      LicenceFile.peekedId]
  | malformed => simp [guardAnswer, guardCall, keyMap, peekedExpired, hfile, runGuard,
      LicenceFile.peekedId]
  | document peeked signed =>
      have hanswer : g.guardAnswer s e = ClockGuard.evaluate g.keys g.slackNs
          (g.keys.deriveKey peeked.machine) s.guardFile
          { nowNs := e.now, licenceId := peeked.licenceId,
            licenceExpired := peeked.pastGrace g.graceDays e.now, readable := e.readable,
            writable := e.writable } := by
        simp [guardAnswer, guardCall, keyMap, peekedExpired, hfile, LicenceFile.peekedId]
      have hmap : keyMap s e = peeked.machine := by simp [keyMap, hfile]
      rw [hanswer, hmap]
      simp only
      cases hverify : peeked.verify signed g.graceDays e.now e.current with
      | error refusal =>
          cases refusal with
          | invalid => rfl
          | machineMismatch => rfl
          | expired =>
              rw [(License.pastGrace_of_expired hverify).2]
              rfl
      | ok licence =>
          obtain ⟨rfl, -, hgrace⟩ := License.verify_eq_ok hverify
          rw [hgrace]
          rfl

theorem of_valid {s : GateState τ} {e : Evaluation}
    {status : LicenseStatus} {licence : License} (h : (g.evaluate s e).1 = some status)
    (hvalid : status.valid = true) (hlicence : status.licence = some licence) :
    g.RunsGuard e ∧ e.file = .document licence true ∧ (g.guardAnswer s e).1.ok = true := by
  rw [evaluate] at h
  split_ifs at h with hkey
  · cases h
    cases hlicence
  · have hkey' : g.vendorKey = true := by simpa using hkey
    cases hfile : e.file with
    | unreadable =>
        rw [hfile] at h
        cases h
    | absent =>
        rw [hfile] at h
        cases h
        cases hvalid
    | malformed =>
        rw [hfile] at h
        cases h
        cases hvalid
    | document peeked signed =>
        rw [hfile] at h
        simp only at h
        cases hverify : peeked.verify signed g.graceDays e.now e.current with
        | error refusal =>
            rw [hverify] at h
            cases refusal <;> (cases h; cases hvalid)
        | ok accepted =>
            obtain ⟨rfl, hsigned, hgrace⟩ := License.verify_eq_ok hverify
            rw [hverify] at h
            cases h
            cases hlicence
            refine ⟨⟨hkey', by simp [hfile]⟩, by rw [hsigned], ?_⟩
            have hok := (Bool.and_eq_true_iff.mp hvalid).1
            rw [guardAnswer, guardCall, keyMap, peekedExpired, hfile]
            simp only [LicenceFile.peekedId]
            rw [hgrace]
            exact hok

end LicenseGate

end Sentinel
