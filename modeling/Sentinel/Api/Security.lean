import Mathlib.Algebra.Order.Field.Rat
import Mathlib.Data.Rat.Floor
import Sentinel.Api.Credentials
import Sentinel.Support.DigitForms

/-!
# Accounts, sessions and the second factor

The state of the security manager, and the sections it runs under its lock,
one definition each.  Readings of the monotonic clock are exact rationals, in
seconds; those of the wall clock are nanoseconds.  Password hashing, the hash of
a client's fingerprint, the one-time code and the token's signature are
parameters.
-/

namespace Sentinel

/-! ## Accounts -/

inductive Role
  | viewer
  | operator
  | owner
  deriving DecidableEq

def Role.ofName? (name : String) : Option Role :=
  if name = "viewer" then some .viewer
  else if name = "operator" then some .operator
  else if name = "owner" then some .owner
  else none

structure User where
  username : String
  passwordHash : String
  totpSecret : String
  role : Role
  createdNs : ℤ
  disabled : Bool
  deriving DecidableEq

namespace User

def canWrite (u : User) : Bool := (u.role = .operator || u.role = .owner) && !u.disabled

/-- `can_change_risk`: an enabled owner. -/
def canChangeRisk (u : User) : Bool := u.role = .owner && !u.disabled

end User

structure Accounts where
  table : Dict String User
  named : ∀ name user, table.get? name = some user → user.username = name

namespace Accounts

def empty : Accounts := ⟨Dict.empty, fun _ _ h => nomatch h⟩

def get? (a : Accounts) (name : String) : Option User := a.table.get? name

def put (a : Accounts) (user : User) : Accounts where
  table := a.table.set user.username user
  named name u h := by
    rw [Dict.get?_set] at h
    split at h
    · rename_i hname
      cases h
      exact hname.symm
    · exact a.named name u h

/-- `UserStore.upsert`: an account that exists keeps the day it was created. -/
def upsert (a : Accounts) (user : User) : Accounts :=
  a.put { user with createdNs := ((a.get? user.username).map (·.createdNs)).getD user.createdNs }

/-- `UserStore.delete`. -/
def delete (a : Accounts) (name : String) : Accounts where
  table := a.table.erase name
  named k u h := by
    rw [Dict.get?_erase] at h
    split at h
    · cases h
    · exact a.named k u h

theorem username_of_get? {a : Accounts} {name : String} {user : User}
    (h : a.get? name = some user) : user.username = name := a.named name user h

theorem get?_put (a : Accounts) (user : User) (name : String) :
    (a.put user).get? name = if name = user.username then some user else a.get? name :=
  Dict.get?_set _ _ _ _

theorem get?_upsert (a : Accounts) (user : User) (name : String) :
    (a.upsert user).get? name =
      if name = user.username then
        some { user with
          createdNs := ((a.get? user.username).map (·.createdNs)).getD user.createdNs }
      else a.get? name :=
  get?_put _ _ _

theorem get?_delete (a : Accounts) (k name : String) :
    (a.delete k).get? name = if name = k then none else a.get? name :=
  Dict.get?_erase _ _ _

def EnabledOwner (a : Accounts) (name : String) : Prop :=
  ∃ user, a.get? name = some user ∧ user.canChangeRisk = true

instance (a : Accounts) (name : String) : Decidable (a.EnabledOwner name) :=
  match h : a.get? name with
  | some user =>
      if hu : user.canChangeRisk = true then isTrue ⟨user, h, hu⟩
      else isFalse fun ⟨u, hget, hown⟩ => by
        rw [h, Option.some.injEq] at hget
        exact hu (hget ▸ hown)
  | none => isFalse fun ⟨u, hget, _⟩ => by simp [h] at hget

/-- The names of the enabled owners other than `excluding`. -/
def ownersBut (a : Accounts) (excluding : String) : List String :=
  (a.table.items.filter fun kv => kv.2.canChangeRisk && kv.1 ≠ excluding).map Prod.fst

theorem mem_ownersBut {a : Accounts} {excluding name : String} :
    name ∈ a.ownersBut excluding ↔ a.EnabledOwner name ∧ name ≠ excluding := by
  simp only [ownersBut, List.mem_map, List.mem_filter, Bool.and_eq_true, decide_eq_true_eq,
    Prod.exists, exists_and_right, exists_eq_right, Dict.mem_items_iff, EnabledOwner, get?]
  constructor
  · rintro ⟨user, hget, hown, hne⟩
    exact ⟨⟨user, hget, hown⟩, hne⟩
  · rintro ⟨⟨user, hget, hown⟩, hne⟩
    exact ⟨user, hget, hown, hne⟩

end Accounts

/-! ## The state of the manager -/

structure LoginSession where
  tokenId : String
  username : String
  role : Role
  issuedNs : ℤ
  expiresNs : ℤ
  fingerprint : String
  deriving DecidableEq

/-- The settings of the manager. -/
structure SecurityConfig where
  sessionTtl : ℤ
  maxLoginAttempts : ℤ
  lockoutSec : ℤ
  writeRatePerMinute : ℤ

/-- What the manager calls from elsewhere. -/
structure SecurityWorld where
  text : TextOps
  verifyPassword : String → String → Bool
  dummyHash : String
  fingerprint : String → String → String
  acceptsTotp : String → ℤ → String → Bool
  encodeToken : LoginSession → String
  decodeToken : ℤ → String → Option String

structure Reading where
  mono : ℚ
  wall : ℤ
  storeOk : Bool

/-- The account table, the tables the manager keeps in memory, and the thread
that holds its administration lock.  The other fields are no part of the
program: the account the holder is about to change, whether it has read the
accounts and not yet written, the codes that have been checked and not yet
consumed, by thread, and the writes let through. -/
structure SecurityState where
  store : Accounts
  users : Accounts
  sessions : Dict String LoginSession
  failures : Dict String (List ℚ)
  lockouts : Dict String ℚ
  usedTotp : Dict (String × String) ℚ
  strikes : Dict String ℕ
  rate : Dict String (List ℚ)
  adminLock : Option ℕ
  target : String
  deciding : Bool
  verified : List (ℕ × String × String)
  writes : List (String × String × ℚ)

def maxTrackedKeys : ℕ := 20000

/-- `_TOTP_REPLAY_TTL_SEC`. -/
def totpReplayTtl : ℚ := 120

namespace SecurityState

variable (cfg : SecurityConfig) (w : SecurityWorld)

/-- The manager over a database, as it is constructed. -/
def start (store : Accounts) : SecurityState where
  store := store
  users := store
  sessions := Dict.empty
  failures := Dict.empty
  lockouts := Dict.empty
  usedTotp := Dict.empty
  strikes := Dict.empty
  rate := Dict.empty
  adminLock := none
  target := ""
  deciding := false
  verified := []
  writes := []

/-! ## Lockouts and tracking -/

variable (s : SecurityState)

/-- `_locked_out`: how long the key stays locked out. -/
def lockedOut (key : String) (now : ℚ) : SecurityState × Option ℚ :=
  match s.lockouts.get? key with
  | some until_ =>
      if until_ = 0 then (s, none)
      else if now < until_ then (s, some (until_ - now))
      else ({ s with lockouts := s.lockouts.erase key }, none)
  | none => (s, none)

def recordFailure (key : String) (now : ℚ) : SecurityState :=
  let window := (s.failures.getD key []).filter (fun t => now - t < cfg.lockoutSec) ++ [now]
  if (window.length : ℤ) ≥ cfg.maxLoginAttempts then
    let strikes := s.strikes.getD key 0 + 1
    let factor := 2 ^ (strikes - 1)
    { s with
      strikes := s.strikes.set key strikes
      lockouts := s.lockouts.set key (now + cfg.lockoutSec * (min factor 16 : ℕ))
      failures := s.failures.set key [] }
  else { s with failures := s.failures.set key window }

def trackingHorizon : ℚ := max (cfg.lockoutSec : ℚ) 60 * 4

/-- The newest `n` items of a table, by the time they are judged by. -/
def newest {α : Type} (n : ℕ) (time : α → ℚ) (d : Dict String α) : Dict String α :=
  Dict.ofEntries ((d.items.mergeSort fun a b => time b.2 ≤ time a.2).take n)

/-- `max(v)`, or zero for an empty list. -/
def latest (v : List ℚ) : ℚ := v.max?.getD 0

def recentTimes (now : ℚ) (table : Dict String (List ℚ)) : Dict String (List ℚ) :=
  table.keep fun _ v => !v.isEmpty && !(now - latest v > trackingHorizon cfg : Bool)

def pruneTimes (now : ℚ) (table : Dict String (List ℚ)) : Dict String (List ℚ) :=
  if maxTrackedKeys < (recentTimes cfg now table).items.length then
    newest maxTrackedKeys latest (recentTimes cfg now table)
  else recentTimes cfg now table

def pruneTracking (r : Reading) : SecurityState :=
  let expired := fun key => match s.lockouts.get? key with
    | some until_ => decide (r.mono > until_ + trackingHorizon cfg)
    | none => false
  let lockouts := s.lockouts.restrict fun key => !expired key
  let strikes := s.strikes.restrict fun key => !expired key
  let capped := if maxTrackedKeys < lockouts.items.length then
      newest maxTrackedKeys id lockouts else lockouts
  { s with
    failures := pruneTimes cfg r.mono s.failures
    rate := pruneTimes cfg r.mono s.rate
    lockouts := capped
    strikes := if maxTrackedKeys < lockouts.items.length then
      strikes.restrict fun key => capped.contains key else strikes
    usedTotp := s.usedTotp.keep fun _ ts => !(ts < r.mono - totpReplayTtl : Bool)
    sessions := s.sessions.keep fun _ sess => !(r.wall > sess.expiresNs : Bool) }

variable (username : String)

def dropSessions : SecurityState :=
  { s with sessions := s.sessions.keep fun _ sess => sess.username ≠ username }

/-! ## Accounts in memory -/

/-- `_reload_user`: the account as it is stored now, into memory. -/
def reloadUser (r : Reading) : SecurityState × Option User :=
  if r.storeOk then
    match s.store.get? username with
    | some fresh => ({ s with users := s.users.put fresh }, some fresh)
    | none => ({ s with users := s.users.delete username }, none)
  else (s, s.users.get? username)

/-! ## Login and sessions -/

def userKey : String := "user:" ++ username

def ipKey (clientIp : String) : String := "ip:" ++ clientIp

/-- The first section of `login`: locked out, or the account if there is one. -/
def openLogin (username clientIp : String) (r : Reading) : SecurityState × (ℚ ⊕ Option User) :=
  match (s.pruneTracking cfg r).lockedOut (userKey username) r.mono with
  | (s, some remaining) => (s, .inl remaining)
  | (s, none) =>
      match s.lockedOut (ipKey clientIp) r.mono with
      | (s, some remaining) => (s, .inl remaining)
      | (s, none) =>
          match s.reloadUser username r with
          | (s, user) => (s, .inr user)

/-- The second section of `login`, once the password has been checked. -/
def closeLogin (username clientIp : String) (user : Option User) (ok : Bool)
    (tokenId fingerprint : String) (r : Reading) : SecurityState × Option LoginSession :=
  match user with
  | some user =>
      if ok && !user.disabled then
        let session : LoginSession :=
          { tokenId := tokenId, username := username, role := user.role, issuedNs := r.wall,
            expiresNs := r.wall + cfg.sessionTtl * 1000000000, fingerprint := fingerprint }
        ({ s with
            failures := (s.failures.erase (userKey username)).erase (ipKey clientIp)
            sessions := s.sessions.set tokenId session }, some session)
      else
        ((s.recordFailure cfg (userKey username) r.mono).recordFailure cfg (ipKey clientIp) r.mono,
          none)
  | none =>
      ((s.recordFailure cfg (userKey username) r.mono).recordFailure cfg (ipKey clientIp) r.mono,
        none)

def dropSession (tokenId : String) : SecurityState :=
  { s with sessions := s.sessions.erase tokenId }

/-- The section of `verify_token`. -/
def verifySession (tokenId fingerprint : String) (r : Reading) :
    SecurityState × Option LoginSession :=
  match s.sessions.get? tokenId with
  | none => (s.dropSession tokenId, none)
  | some session =>
      if r.wall > session.expiresNs then (s.dropSession tokenId, none)
      else if session.fingerprint ≠ fingerprint then (s, none)
      else
        match s.reloadUser session.username r with
        | (s, none) => (s.dropSession tokenId, none)
        | (s, some user) =>
            if user.disabled then (s.dropSession tokenId, none)
            else
              let session := { session with role := user.role }
              ({ s with sessions := s.sessions.set tokenId session }, some session)

def purgeExpired (r : Reading) : SecurityState :=
  { s with sessions := s.sessions.keep fun _ sess => !(sess.expiresNs < r.wall : Bool) }

/-! ## Rates -/

def checkRate (key : String) (perMinute : ℤ) (now : ℚ) : SecurityState × Bool :=
  let window := (s.rate.getD key []).filter fun t => now - t < 60
  if (window.length : ℤ) ≥ perMinute then ({ s with rate := s.rate.set key window }, false)
  else ({ s with rate := s.rate.set key (window ++ [now]) }, true)

/-! ## The second factor -/

def totpText (code : String) : String :=
  String.ofList ((Chars.strip code.toList).filter fun c => c ≠ ' ')

def sixDigits (text : String) : Bool := text.toList.all isDigit && text.toList.length = 6

def verifyTotp (username code : String) (consume : Bool) (r : Reading) :
    SecurityState × (Bool × String) :=
  match s.users.get? username with
  | none => (s, false, "unknown user")
  | some user =>
      if user.disabled then (s, false, "unknown user")
      else if !sixDigits (totpText code) then (s, false, "a TOTP code is six digits")
      else if s.usedTotp.contains (username, totpText code) then
        (s, false, "this code has already been used")
      else if !w.acceptsTotp user.totpSecret r.wall (totpText code) then (s, false, "invalid code")
      else if consume then
        ({ s with usedTotp := s.usedTotp.set (username, totpText code) r.mono }, true, "ok")
      else (s, true, "ok")

def consumeTotp (username code : String) (now : ℚ) : SecurityState :=
  { s with usedTotp := s.usedTotp.set (username, totpText code) now }

def failSecondFactor (r : Reading) : SecurityState :=
  match (s.recordFailure cfg (userKey username) r.mono).lockedOut (userKey username) r.mono with
  | (s, some _) => s.dropSessions username
  | (s, none) => s

/-! ## The tables a section can change -/

section Changes

variable {cfg w}
variable (s : SecurityState)

theorem lockedOut_changes (key : String) (now : ℚ) :
    ∃ l, (s.lockedOut key now).1 = { s with lockouts := l } := by
  rw [lockedOut]
  split
  · split
    · exact ⟨_, rfl⟩
    · split
      · exact ⟨_, rfl⟩
      · exact ⟨_, rfl⟩
  · exact ⟨_, rfl⟩

theorem lockedOut_congr {s s' : SecurityState} (h : s'.lockouts = s.lockouts) (key : String)
    (now : ℚ) : (s'.lockedOut key now).2 = (s.lockedOut key now).2 := by
  simp only [lockedOut, h]
  split
  · split
    · rfl
    · split <;> rfl
  · rfl

variable (cfg) in
theorem recordFailure_changes (key : String) (now : ℚ) :
    ∃ f l k, s.recordFailure cfg key now =
      { s with failures := f, lockouts := l, strikes := k } := by
  simp only [recordFailure]
  split <;> exact ⟨_, _, _, rfl⟩

theorem reloadUser_changes (username : String) (r : Reading) :
    ∃ u, (s.reloadUser username r).1 = { s with users := u } := by
  rw [reloadUser]
  split
  · split <;> exact ⟨_, rfl⟩
  · exact ⟨_, rfl⟩

variable (cfg) in
theorem openLogin_changes (username clientIp : String) (r : Reading) :
    ∃ u l, (s.openLogin cfg username clientIp r).1 =
      { s.pruneTracking cfg r with users := u, lockouts := l } := by
  obtain ⟨l₁, h₁⟩ := lockedOut_changes (s.pruneTracking cfg r) (userKey username) r.mono
  rw [openLogin]
  split
  · rename_i s₁ remaining heq
    rw [heq] at h₁
    exact ⟨_, _, h₁⟩
  · rename_i s₁ heq
    rw [heq] at h₁
    dsimp only at h₁
    subst h₁
    obtain ⟨l₂, h₂⟩ :=
      lockedOut_changes { s.pruneTracking cfg r with lockouts := l₁ } (ipKey clientIp) r.mono
    split
    · rename_i s₂ remaining heq₂
      rw [heq₂] at h₂
      exact ⟨_, _, h₂⟩
    · rename_i s₂ heq₂
      rw [heq₂] at h₂
      dsimp only at h₂
      subst h₂
      obtain ⟨u, h₃⟩ := reloadUser_changes
        { s.pruneTracking cfg r with lockouts := l₂ } username r
      exact ⟨u, l₂, h₃⟩

variable (cfg) in
theorem closeLogin_changes (username clientIp : String) (user : Option User) (ok : Bool)
    (tokenId fingerprint : String) (r : Reading) :
    ∃ f l k ss, (s.closeLogin cfg username clientIp user ok tokenId fingerprint r).1 =
      { s with failures := f, lockouts := l, strikes := k, sessions := ss } := by
  have hfail : ∃ f l k ss,
      (s.recordFailure cfg (userKey username) r.mono).recordFailure cfg (ipKey clientIp) r.mono =
        { s with failures := f, lockouts := l, strikes := k, sessions := ss } := by
    obtain ⟨f₁, l₁, k₁, h₁⟩ := s.recordFailure_changes cfg (userKey username) r.mono
    rw [h₁]
    obtain ⟨f₂, l₂, k₂, h₂⟩ := recordFailure_changes cfg
      { s with failures := f₁, lockouts := l₁, strikes := k₁ } (ipKey clientIp) r.mono
    exact ⟨f₂, l₂, k₂, s.sessions, h₂⟩
  rcases user with - | user
  · exact hfail
  · simp only [closeLogin]
    split
    · exact ⟨_, _, _, _, rfl⟩
    · exact hfail

theorem verifySession_changes (tokenId fingerprint : String) (r : Reading) :
    ∃ u ss, (s.verifySession tokenId fingerprint r).1 = { s with users := u, sessions := ss } := by
  rw [verifySession]
  split
  · exact ⟨_, _, rfl⟩
  · rename_i session _
    split
    · exact ⟨_, _, rfl⟩
    · split
      · exact ⟨_, _, rfl⟩
      · obtain ⟨u, hu⟩ := s.reloadUser_changes session.username r
        split
        · rename_i s₁ heq
          rw [heq] at hu
          dsimp only at hu
          subst hu
          exact ⟨_, _, rfl⟩
        · rename_i s₁ user heq
          rw [heq] at hu
          dsimp only at hu
          subst hu
          split <;> exact ⟨_, _, rfl⟩

theorem checkRate_changes (key : String) (perMinute : ℤ) (now : ℚ) :
    ∃ table, (s.checkRate key perMinute now).1 = { s with rate := table } := by
  simp only [checkRate]
  split <;> exact ⟨_, rfl⟩

variable (w) in
theorem verifyTotp_keeps (username code : String) (r : Reading) :
    (s.verifyTotp w username code false r).1 = s := by
  rw [verifyTotp]
  split
  · rfl
  · split
    · rfl
    · split
      · rfl
      · split
        · rfl
        · split <;> rfl

theorem verifyTotp_accepted {username code : String} {consume : Bool} {r : Reading}
    (h : (s.verifyTotp w username code consume r).2.1 = true) :
    ∃ user, s.users.get? username = some user ∧ user.disabled = false ∧
      sixDigits (totpText code) = true ∧ s.usedTotp.get? (username, totpText code) = none ∧
      w.acceptsTotp user.totpSecret r.wall (totpText code) = true := by
  rw [verifyTotp] at h
  split at h
  · cases h
  · rename_i user hget
    by_cases hdisabled : user.disabled = true
    · rw [if_pos hdisabled] at h
      cases h
    · rw [if_neg hdisabled] at h
      by_cases hdigits : sixDigits (totpText code) = true
      · rw [if_neg (by simp [hdigits])] at h
        by_cases hused : s.usedTotp.contains (username, totpText code) = true
        · rw [if_pos hused] at h
          cases h
        · rw [if_neg hused] at h
          by_cases haccepts : w.acceptsTotp user.totpSecret r.wall (totpText code) = true
          · refine ⟨user, hget, by simpa using hdisabled, hdigits, ?_, haccepts⟩
            simpa [Dict.contains] using hused
          · rw [if_pos (by simp [haccepts])] at h
            cases h
      · rw [if_pos (by simp [hdigits])] at h
        cases h

variable (cfg) in
theorem failSecondFactor_changes (username : String) (r : Reading) :
    ∃ f l k ss, s.failSecondFactor cfg username r =
      { s with failures := f, lockouts := l, strikes := k, sessions := ss } := by
  obtain ⟨f₁, l₁, k₁, h₁⟩ := s.recordFailure_changes cfg (userKey username) r.mono
  rw [failSecondFactor, h₁]
  obtain ⟨l₂, h₂⟩ := lockedOut_changes
    { s with failures := f₁, lockouts := l₁, strikes := k₁ } (userKey username) r.mono
  split
  · rename_i s₁ remaining heq
    rw [heq] at h₂
    dsimp only at h₂
    subst h₂
    exact ⟨_, _, _, _, rfl⟩
  · rename_i s₁ heq
    rw [heq] at h₂
    dsimp only at h₂
    subst h₂
    exact ⟨_, _, _, s.sessions, rfl⟩

end Changes

end SecurityState

end Sentinel
