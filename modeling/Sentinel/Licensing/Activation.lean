import Sentinel.Licensing.License
import Sentinel.Support.Runs

/-!
# Online activation leases

A licence that carries an activation URL must hold a current lease, signed by
the vendor's server, before it may open live positions.  The client keeps the
last answer in a cache file.  A fresh answer must carry the nonce of the
request it answers; a cached one is verified without the nonce and is bounded
by its own expiry.
-/

namespace Sentinel

def serverSlackNs : ℤ := 600 * 10 ^ 9

def rollbackToleranceNs : ℤ := 6 * hourNs

def attemptPauseNs : ℤ := 300 * 10 ^ 9

def leaseFormat : ℤ := 1

structure Lease where
  licenceId : String
  device : String
  nonce : String
  status : String
  issued : ℤ
  expiry : ℤ
  serverClock : ℤ
  message : String := ""
deriving DecidableEq

inductive LeaseDocument (π ς : Type*) where
  | notObject
  /-- `payload` is missing when it is no object, `signature` when it is not base64. -/
  | object (algorithm : String) (payload : Option π) (signature : Option ς)
deriving DecidableEq

structure LeaseReader (π ς : Type*) where
  verifies : π → ς → Bool
  format : π → Option ℤ
  lease : π → Option Lease

inductive LeaseError where
  | notObject
  | algorithm
  | noPayload
  | notBase64
  | badSignature
  | newerFormat
  | malformed
  | otherLicence
  | otherDevice
  | nonceMismatch
  | inFuture
  | expired
  /-- The server could not be reached, or its answer could not be kept. -/
  | network
deriving DecidableEq

variable {π ς : Type*}

/-! ## Verification -/

namespace LeaseReader

def signedLease (r : LeaseReader π ς) : LeaseDocument π ς → Except LeaseError Lease
  | .notObject => .error .notObject
  | .object algorithm payload signature =>
      if algorithm ≠ "Ed25519" then .error .algorithm
      else
        match payload, signature with
        | none, _ => .error .noPayload
        | some _, none => .error .notBase64
        | some body, some sig =>
            if !r.verifies body sig then .error .badSignature
            else
              match r.format body with
              | none => .error .malformed
              | some n =>
                  if leaseFormat < n then .error .newerFormat
                  else
                    match r.lease body with
                    | none => .error .malformed
                    | some lease => .ok lease

def verifyLease (r : LeaseReader π ς) (document : LeaseDocument π ς)
    (licenceId device : String) (nonce : Option String) (now : ℤ) : Except LeaseError Lease :=
  match r.signedLease document with
  | .error e => .error e
  | .ok lease =>
      if lease.licenceId ≠ licenceId then .error .otherLicence
      else if lease.device ≠ device then .error .otherDevice
      else if nonce.any (· ≠ lease.nonce) then .error .nonceMismatch
      else if now + serverSlackNs < lease.issued ∨ now + serverSlackNs < lease.serverClock then
        .error .inFuture
      else if lease.expiry ≤ now then .error .expired
      else .ok lease

theorem of_verifyLease {r : LeaseReader π ς} {document : LeaseDocument π ς}
    {licenceId device : String} {nonce : Option String} {now : ℤ} {lease : Lease}
    (h : r.verifyLease document licenceId device nonce now = .ok lease) :
    r.signedLease document = .ok lease ∧ lease.licenceId = licenceId ∧
      lease.device = device ∧ (∀ n, nonce = some n → lease.nonce = n) ∧ now < lease.expiry := by
  rw [verifyLease] at h
  cases hsigned : r.signedLease document with
  | error e =>
      rw [hsigned] at h
      cases h
  | ok held =>
      rw [hsigned] at h
      simp only at h
      split_ifs at h with hid hdevice hnonce hfuture hexpired
      cases h
      refine ⟨rfl, by simpa using hid, by simpa using hdevice, ?_, by simpa using hexpired⟩
      intro n hn
      rw [hn, Option.any_some, decide_eq_true_eq, not_not] at hnonce
      exact hnonce.symm

end LeaseReader

/-! ## The client -/

/-- The cache file and the time of the last attempt of this process. -/
structure ActivationClient (π ς : Type*) where
  cache : Option (LeaseDocument π ς)
  lastAttempt : Option ℤ

/-- One question to the client. -/
structure StatusCall (π ς : Type*) where
  now : ℤ
  licence : License
  /-- The digest of this machine's identifiers. -/
  device : String
  allowNetwork : Bool
  /-- The nonce drawn for a request of this call. -/
  nonce : String
  /-- What the server answers to that request; `none` when the transport raises. -/
  answer : Option (LeaseDocument π ς)
  /-- The cache file can be written. -/
  writable : Bool

structure LeaseStatus where
  required : Bool
  ok : Bool
  lease : Option Lease
  refreshed : Bool
  networkError : Option LeaseError
  rolledBack : Bool
  checkedAt : ℤ
deriving DecidableEq

def License.requiresActivation (l : License) : Bool :=
  l.activationUrl.any (· ≠ "") && decide (0 < l.activationIntervalHours)

namespace ActivationClient

variable (r : LeaseReader π ς) (s : ActivationClient π ς) (c : StatusCall π ς)

def cachedLease : Option Lease :=
  s.cache.bind fun document =>
    (r.verifyLease document c.licence.licenceId c.device none c.now).toOption

def asks : Bool :=
  let interval := c.licence.activationIntervalHours * hourNs
  let due := match s.cachedLease r c with
    | none => true
    | some lease => decide (interval ≤ c.now - lease.issued)
  let throttled := s.lastAttempt.any (fun last => c.now - last < attemptPauseNs) &&
    (s.cachedLease r c).isSome
  due && c.allowNetwork && !throttled

def fetch : Except LeaseError (LeaseDocument π ς × Lease) :=
  match c.answer with
  | none => .error .network
  | some document =>
      match r.verifyLease document c.licence.licenceId c.device (some c.nonce) c.now with
      | .error e => .error e
      | .ok lease => if c.writable then .ok (document, lease) else .error .network

def verdict (held : Option Lease) (refreshed : Bool)
    (networkError : Option LeaseError) : LeaseStatus :=
  let answer (ok rolledBack : Bool) : LeaseStatus :=
    { required := true, ok := ok, lease := held, refreshed := refreshed,
      networkError := networkError, rolledBack := rolledBack, checkedAt := c.now }
  match held with
  | none => answer false false
  | some lease =>
      if c.now + rollbackToleranceNs < lease.serverClock then answer false true
      else if lease.status ≠ "active" then answer false false
      else answer true false

/-- The question: may this licence open live positions? -/
def status : LeaseStatus × ActivationClient π ς :=
  if !c.licence.requiresActivation then
    ({ required := false, ok := true, lease := none, refreshed := false, networkError := none,
       rolledBack := false, checkedAt := c.now }, s)
  else if s.asks r c then
    match fetch r c with
    | .ok (document, fresh) =>
        (verdict c (some fresh) true none, { cache := some document, lastAttempt := some c.now })
    | .error e =>
        (verdict c (s.cachedLease r c) false (some e), { s with lastAttempt := some c.now })
  else (verdict c (s.cachedLease r c) false none, s)

/-! ## What an ok answer rests on -/

theorem active_of_verdict {c : StatusCall π ς} {held : Option Lease} {refreshed : Bool}
    {networkError : Option LeaseError}
    (h : (verdict c held refreshed networkError).ok = true) :
    ∃ lease, held = some lease ∧ lease.status = "active" := by
  cases held with
  | none => cases h
  | some lease =>
      rw [verdict] at h
      simp only at h
      split_ifs at h with hback hactive
      exact ⟨lease, rfl, by simpa using hactive⟩

theorem of_cachedLease {r : LeaseReader π ς} {s : ActivationClient π ς} {c : StatusCall π ς}
    {lease : Lease} (h : s.cachedLease r c = some lease) :
    ∃ document, s.cache = some document ∧
      r.verifyLease document c.licence.licenceId c.device none c.now = .ok lease := by
  rw [cachedLease, Option.bind_eq_some_iff] at h
  obtain ⟨document, hdocument, hlease⟩ := h
  refine ⟨document, hdocument, ?_⟩
  cases hverify : r.verifyLease document c.licence.licenceId c.device none c.now with
  | error e =>
      rw [hverify] at hlease
      cases hlease
  | ok held =>
      rw [hverify] at hlease
      cases hlease
      rfl

theorem of_fetch {r : LeaseReader π ς} {c : StatusCall π ς} {document : LeaseDocument π ς}
    {lease : Lease} (h : fetch r c = .ok (document, lease)) :
    c.answer = some document ∧
      r.verifyLease document c.licence.licenceId c.device (some c.nonce) c.now = .ok lease := by
  rw [fetch] at h
  cases hanswer : c.answer with
  | none =>
      rw [hanswer] at h
      cases h
  | some received =>
      rw [hanswer] at h
      simp only at h
      cases hverify : r.verifyLease received c.licence.licenceId c.device (some c.nonce) c.now with
      | error e =>
          rw [hverify] at h
          cases h
      | ok held =>
          rw [hverify] at h
          simp only at h
          split_ifs at h
          cases h
          exact ⟨rfl, hverify⟩

theorem held_of_ok {r : LeaseReader π ς} {s : ActivationClient π ς} {c : StatusCall π ς}
    (hrequired : c.licence.requiresActivation = true) (h : (s.status r c).1.ok = true) :
    ∃ lease, lease.status = "active" ∧
      ((∃ document, fetch r c = .ok (document, lease)) ∨ s.cachedLease r c = some lease) := by
  rw [status, if_neg (by simp [hrequired])] at h
  split_ifs at h with hasks
  · cases hfetch : fetch r c with
    | error e =>
        rw [hfetch] at h
        obtain ⟨lease, hheld, hactive⟩ := active_of_verdict h
        exact ⟨lease, hactive, .inr hheld⟩
    | ok fetched =>
        rw [hfetch] at h
        obtain ⟨lease, hheld, hactive⟩ := active_of_verdict h
        cases hheld
        exact ⟨fetched.2, hactive, .inl ⟨fetched.1, rfl⟩⟩
  · obtain ⟨lease, hheld, hactive⟩ := active_of_verdict h
    exact ⟨lease, hactive, .inr hheld⟩

theorem cache_status :
    (s.status r c).2.cache = s.cache ∨
      ∃ document lease, fetch r c = .ok (document, lease) ∧
        (s.status r c).2.cache = some document := by
  rw [status]
  split_ifs with hrequired hasks
  · exact .inl rfl
  · cases hfetch : fetch r c with
    | error e => exact .inl rfl
    | ok fetched => exact .inr ⟨fetched.1, fetched.2, rfl, rfl⟩
  · exact .inl rfl

end ActivationClient

end Sentinel

/-!
## Withdrawn activations

Runs of the activation client: questions, restarts of the process and cache
files put back by somebody else.  An ok answer rests on an active lease of the
licence and the device; once a withdrawal is cached it takes a fresh active
answer, or an active lease put back into the cache file, to be ok again.
-/

namespace Sentinel

variable {π ς : Type*}

/-- What happens to an installation between two questions. -/
inductive ActivationMove (π ς : Type*) where
  | ask (c : StatusCall π ς)
  | restart
  /-- Somebody else writes the cache file, or removes it. -/
  | restore (content : Option (LeaseDocument π ς))

namespace ActivationClient

variable (r : LeaseReader π ς) (licenceId device : String) (s : ActivationClient π ς)

def step :
    ActivationMove π ς → ActivationClient π ς
  | .ask c => (s.status r c).2
  | .restart => { s with lastAttempt := none }
  | .restore content => { s with cache := content }

def IsLeaseOf (document : LeaseDocument π ς) (lease : Lease) : Prop :=
  r.signedLease document = .ok lease ∧ lease.licenceId = licenceId ∧ lease.device = device

def WithdrawnCached : Prop :=
  ∃ document lease, s.cache = some document ∧
    IsLeaseOf r licenceId device document lease ∧ lease.status ≠ "active"

def NoActiveCached (content : Option (LeaseDocument π ς)) : Prop :=
  ∀ document lease, content = some document →
    IsLeaseOf r licenceId device document lease → lease.status ≠ "active"

def RestoresActive :
    ActivationMove π ς → Prop
  | .restore content => ¬NoActiveCached r licenceId device content
  | _ => False

def AnsweredFresh (c : StatusCall π ς) : Prop :=
  c.licence.licenceId = licenceId ∧ c.device = device ∧
    ∃ document lease, c.answer = some document ∧
      r.verifyLease document licenceId device (some c.nonce) c.now = .ok lease ∧
      lease.status = "active"

def HoldsLease (c : StatusCall π ς) : Prop :=
  ∃ document lease, (s.cache = some document ∨ c.answer = some document) ∧
    IsLeaseOf r c.licence.licenceId c.device document lease ∧
    lease.status = "active" ∧ c.now < lease.expiry

theorem WithdrawnCached.noActiveCached {r : LeaseReader π ς} {licenceId device : String}
    {s : ActivationClient π ς} (h : s.WithdrawnCached r licenceId device) :
    NoActiveCached r licenceId device s.cache := by
  obtain ⟨document, lease, hcache, hlease, hstatus⟩ := h
  intro document' lease' hcache' hlease'
  rw [hcache] at hcache'
  cases hcache'
  have heq := hlease.1.symm.trans hlease'.1
  cases heq
  exact hstatus

theorem holdsLease_of_ok {r : LeaseReader π ς} {s : ActivationClient π ς} {c : StatusCall π ς}
    (hrequired : c.licence.requiresActivation = true) (h : (s.status r c).1.ok = true) :
    s.HoldsLease r c := by
  obtain ⟨lease, hactive, ⟨document, hfetch⟩ | hcached⟩ := held_of_ok hrequired h
  · obtain ⟨hanswer, hverify⟩ := of_fetch hfetch
    obtain ⟨hsigned, hid, hdevice, -, hexpiry⟩ := LeaseReader.of_verifyLease hverify
    exact ⟨document, lease, .inr hanswer, ⟨hsigned, hid, hdevice⟩, hactive, hexpiry⟩
  · obtain ⟨document, hcache, hverify⟩ := of_cachedLease hcached
    obtain ⟨hsigned, hid, hdevice, -, hexpiry⟩ := LeaseReader.of_verifyLease hverify
    exact ⟨document, lease, .inl hcache, ⟨hsigned, hid, hdevice⟩, hactive, hexpiry⟩

theorem answeredFresh_of_ok {r : LeaseReader π ς} {s : ActivationClient π ς}
    {c : StatusCall π ς}
    (hcache : NoActiveCached r c.licence.licenceId c.device s.cache)
    (hrequired : c.licence.requiresActivation = true) (h : (s.status r c).1.ok = true) :
    AnsweredFresh r c.licence.licenceId c.device c := by
  obtain ⟨lease, hactive, ⟨document, hfetch⟩ | hcached⟩ := held_of_ok hrequired h
  · obtain ⟨hanswer, hverify⟩ := of_fetch hfetch
    exact ⟨rfl, rfl, document, lease, hanswer, hverify, hactive⟩
  · obtain ⟨document, hheld, hverify⟩ := of_cachedLease hcached
    obtain ⟨hsigned, hid, hdevice, -⟩ := LeaseReader.of_verifyLease hverify
    exact absurd hactive (hcache document lease hheld ⟨hsigned, hid, hdevice⟩)

theorem NoActiveCached.step {r : LeaseReader π ς} {licenceId device : String}
    {s : ActivationClient π ς} (hs : NoActiveCached r licenceId device s.cache)
    {m : ActivationMove π ς} (hrestore : ¬RestoresActive r licenceId device m)
    (hfresh : ∀ c, m = .ask c → ¬AnsweredFresh r licenceId device c) :
    NoActiveCached r licenceId device (s.step r m).cache := by
  cases m with
  | ask c =>
      rcases cache_status r s c with hkept | ⟨document, lease, hfetch, hcache⟩
      · rw [ActivationClient.step, hkept]
        exact hs
      · obtain ⟨hanswer, hverify⟩ := of_fetch hfetch
        have hanswered := LeaseReader.of_verifyLease hverify
        intro document' lease' hcache' hlease'
        rw [ActivationClient.step, hcache] at hcache'
        cases hcache'
        have heq := hanswered.1.symm.trans hlease'.1
        cases heq
        intro hactive
        have hid := hanswered.2.1.symm.trans hlease'.2.1
        have hdevice := hanswered.2.2.1.symm.trans hlease'.2.2
        refine hfresh c rfl ⟨hid, hdevice, document, lease, hanswer, ?_, hactive⟩
        rw [← hid, ← hdevice]
        exact hverify
  | restart => exact hs
  | restore content => exact not_not.mp hrestore

theorem noActiveCached_run {r : LeaseReader π ς} {licenceId device : String}
    {moves : List (ActivationMove π ς)} {s : ActivationClient π ς}
    (hs : NoActiveCached r licenceId device s.cache)
    (hrestore : ∀ m ∈ moves, ¬RestoresActive r licenceId device m)
    (hfresh : ∀ c, .ask c ∈ moves → ¬AnsweredFresh r licenceId device c) :
    NoActiveCached r licenceId device (moves.foldl (step r) s).cache := by
  induction moves generalizing s with
  | nil => exact hs
  | cons m moves ih =>
      have hnext : NoActiveCached r licenceId device (s.step r m).cache := by
        apply hs.step
        · exact hrestore m List.mem_cons_self
        · intro c hm
          exact hfresh c (hm ▸ List.mem_cons_self)
      apply ih hnext
      · intro m' hm'
        exact hrestore m' (List.mem_cons_of_mem m hm')
      · intro c hc
        exact hfresh c (List.mem_cons_of_mem m hc)

/-- In every run, a question about a licence that requires activation is ok only
on an active lease of the licence and the device; and after a cached withdrawal
only once a fresh active answer was verified, unless somebody put an active
lease back into the cache file. -/
theorem ok_rests_on_activeLease (client : ActivationClient π ς)
    (moves : List (ActivationMove π ς)) (c : StatusCall π ς)
    (hrequired : c.licence.requiresActivation = true)
    (hok : ((moves.foldl (step r) client).status r c).1.ok = true) :
    (moves.foldl (step r) client).HoldsLease r c ∧
      ∀ pre post, moves = pre ++ post →
        (pre.foldl (step r) client).WithdrawnCached r c.licence.licenceId c.device →
        (∀ m ∈ post, ¬RestoresActive r c.licence.licenceId c.device m) →
        ∃ c', (ActivationMove.ask c' ∈ post ∨ c' = c) ∧
          AnsweredFresh r c.licence.licenceId c.device c' := by
  refine ⟨holdsLease_of_ok hrequired hok, ?_⟩
  intro pre post hmoves hwithdrawn hrestore
  by_contra hnone
  have hfresh : ∀ c', ActivationMove.ask c' ∈ post →
      ¬AnsweredFresh r c.licence.licenceId c.device c' := by
    intro c' hc' hanswered
    exact hnone ⟨c', .inl hc', hanswered⟩
  have hcache := noActiveCached_run hwithdrawn.noActiveCached hrestore hfresh
  rw [← List.foldl_append, ← hmoves] at hcache
  exact hnone ⟨c, .inr rfl, answeredFresh_of_ok hcache hrequired hok⟩

end ActivationClient

/-! ## An installation with a daily check -/

def plainReader : LeaseReader Lease Bool where
  verifies _ genuine := genuine
  format _ := some 1
  lease body := some body

def dailyLicence : License :=
  { licenceId := "L1", issued := 0, expiry := none, machine := [],
    activationUrl := some "https://vendor", activationIntervalHours := 24 }

/-- An answer at `now` that is good for three days. -/
def answerAt (now : ℤ) (nonce status : String) : LeaseDocument Lease Bool :=
  .object "Ed25519"
    (some { licenceId := "L1", device := "D1", nonce := nonce, status := status, issued := now,
            expiry := now + 3 * dayNs, serverClock := now })
    (some true)

/-- A question at `now` that the server answers in the given way. -/
def askedAt (now : ℤ) (nonce : String) (answer : Option (LeaseDocument Lease Bool)) :
    StatusCall Lease Bool :=
  { now := now, licence := dailyLicence, device := "D1", allowNetwork := true, nonce := nonce,
    answer := answer, writable := true }

def newClient : ActivationClient Lease Bool := { cache := none, lastAttempt := none }

/-- The server withdraws the licence, then grants it again. -/
theorem ok_rests_on_activeLease_granted :
    ∃ c, (ActivationMove.ask c ∈ [] ∨
        c = askedAt dayNs "n2" (some (answerAt dayNs "n2" "active"))) ∧
      ActivationClient.AnsweredFresh plainReader "L1" "D1" c := by
  have hfirst := ActivationClient.ok_rests_on_activeLease plainReader newClient
    [.ask (askedAt 0 "n1" (some (answerAt 0 "n1" "revoked")))]
    (askedAt dayNs "n2" (some (answerAt dayNs "n2" "active")))
    (by decide +kernel) (by decide +kernel)
  apply hfirst.2 [.ask (askedAt 0 "n1" (some (answerAt 0 "n1" "revoked")))] [] rfl
  · exact ⟨answerAt 0 "n1" "revoked", _, by decide +kernel, ⟨rfl, rfl, rfl⟩, by decide +kernel⟩
  · intro m hm
    cases hm

def withdrawnMoves : List (ActivationMove Lease Bool) :=
  [.ask (askedAt 0 "n1" (some (answerAt 0 "n1" "active"))),
    .ask (askedAt dayNs "n2" (some (answerAt dayNs "n2" "revoked")))]

def restoredMoves : List (ActivationMove Lease Bool) :=
  [.restore (some (answerAt 0 "n1" "active"))]

/-- After a cached withdrawal the restored lease makes the question ok again
although no server answers it. -/
theorem not_withdrawn_restoredLease :
    (withdrawnMoves.foldl (ActivationClient.step plainReader) newClient).cache =
        some (answerAt dayNs "n2" "revoked") ∧
      (((withdrawnMoves ++ restoredMoves).foldl (ActivationClient.step plainReader)
          newClient).status plainReader (askedAt (dayNs + hourNs) "n3" none)).1.ok = true ∧
      ¬∃ c, (ActivationMove.ask c ∈ restoredMoves ∨
          c = askedAt (dayNs + hourNs) "n3" none) ∧
        ActivationClient.AnsweredFresh plainReader "L1" "D1" c := by
  refine ⟨by decide +kernel, by decide +kernel, ?_⟩
  rintro ⟨c, hc, hanswered⟩
  rcases hc with hc | rfl
  · simp [restoredMoves] at hc
  · obtain ⟨-, -, document, lease, hanswer, -⟩ := hanswered
    cases hanswer

end Sentinel
