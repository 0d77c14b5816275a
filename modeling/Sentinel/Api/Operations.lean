import Sentinel.Api.Security
import Sentinel.Support.Interleaving

/-!
# The operations of the security manager

Every operation as the program of its atomic sections: the sections under the
manager's lock, the administration lock, and the reads and writes of the
account table.  Between two of them any other call may run, and another process
may change the account table.
-/

namespace Sentinel

/-! ## Atomic sections -/

inductive Section
  | load
  | upsert (user : User)
  | delete (username : String)
  | acquire (username : String)
  | release
  | cached (username : String)
  | accounts
  | refresh (fresh : Accounts)
  | remember (user : User)
  | rememberDisabled (user : User)
  | forget (username : String)
  | reenrol (user : User)
  | openLogin (username clientIp : String)
  | closeLogin (username clientIp : String) (user : Option User) (ok : Bool)
      (tokenId fingerprint : String)
  | verifySession (tokenId fingerprint : String)
  | logout (tokenId : String)
  | purgeExpired
  | reload (username : String)
  | checkRate (key : String) (perMinute : ℤ)
  | lockedOut (key : String)
  | verifyTotp (username code : String)
  | failSecondFactor (username : String)
  | consumeTotp (username code : String)

@[reducible] def Section.Answer : Section → Type
  | load => Option Accounts
  | upsert _ => Bool
  | delete _ => Option Bool
  | cached _ => Option User
  | accounts => Accounts
  | openLogin _ _ => ℚ ⊕ Option User
  | closeLogin .. => Option LoginSession
  | verifySession _ _ => Option LoginSession
  | logout _ => Bool
  | reload _ => Option User
  | checkRate _ _ => Bool
  | lockedOut _ => Option ℚ
  | verifyTotp _ _ => Bool × String
  | _ => Unit

def SecurityState.remember (s : SecurityState) (user : User) : SecurityState :=
  { s with users := s.users.put user }

def SecurityState.mark (s : SecurityState) (t : ℕ) (value : Bool) : SecurityState :=
  if s.adminLock = some t then { s with deciding := value } else s

variable (cfg : SecurityConfig) (w : SecurityWorld)

def performSection (t : ℕ) :
    (a : Section) → Reading → SecurityState → Option (SecurityState × a.Answer)
  | .load, r, s =>
      if r.storeOk then some (s.mark t true, some s.store) else some (s, none)
  | .upsert user, r, s =>
      if r.storeOk then some ({ s with store := s.store.upsert user }.mark t false, true)
      else some (s, false)
  | .delete username, r, s =>
      if r.storeOk then
        some ({ s with store := s.store.delete username }.mark t false,
          some (s.store.get? username).isSome)
      else some (s, none)
  | .acquire username, _, s =>
      if s.adminLock = none then
        some ({ s with adminLock := some t, target := username, deciding := false }, ())
      else none
  | .release, _, s => some ({ s with adminLock := none, deciding := false }, ())
  | .cached username, _, s => some (s, s.users.get? username)
  | .accounts, _, s => some (s.mark t true, s.users)
  | .refresh fresh, _, s => some ({ s with users := fresh }, ())
  | .remember user, _, s => some (s.remember user, ())
  | .rememberDisabled user, _, s => some ((s.remember user).dropSessions user.username, ())
  | .forget username, _, s =>
      some ({ s with users := s.users.delete username }.dropSessions username, ())
  | .reenrol user, _, s =>
      some ({ (s.remember user).dropSessions user.username with
        usedTotp := s.usedTotp.keep fun key _ => key.1 ≠ user.username }, ())
  | .openLogin username clientIp, r, s => some (s.openLogin cfg username clientIp r)
  | .closeLogin username clientIp user ok tokenId fingerprint, r, s =>
      some (s.closeLogin cfg username clientIp user ok tokenId fingerprint r)
  | .verifySession tokenId fingerprint, r, s => some (s.verifySession tokenId fingerprint r)
  | .logout tokenId, _, s => some (s.dropSession tokenId, (s.sessions.get? tokenId).isSome)
  | .purgeExpired, r, s => some (s.purgeExpired r, ())
  | .reload username, r, s => some (s.reloadUser username r)
  | .checkRate key perMinute, r, s => some (s.checkRate key perMinute r.mono)
  | .lockedOut key, r, s => some (s.lockedOut key r.mono)
  | .verifyTotp username code, r, s =>
      match s.verifyTotp w username code false r with
      | (s, true, message) =>
          some ({ s with
            verified := (t, username, SecurityState.totpText code) :: s.verified }, true, message)
      | (s, false, message) => some (s, false, message)
  | .failSecondFactor username, r, s => some (s.failSecondFactor cfg username r, ())
  | .consumeTotp username code, r, s =>
      let s := s.consumeTotp username code r.mono
      some ({ s with
        verified := s.verified.filter fun v => v.1 ≠ t
        writes := (username, SecurityState.totpText code, r.mono) :: s.writes }, ())

/-! ## Programs -/

inductive Outcome
  | raised (message : String)
  | answered (ok : Bool)
  | created (user : User)
  | enrolled (secret : Option String)
  | token (token : Option String) (message : String)
  | session (session : Option LoginSession)
  | verdict (ok : Bool) (message : String)

abbrev SecurityProg (ρ : Type) : Type := Prog Section.Answer ρ

namespace Operations

def atomic (a : Section) : SecurityProg a.Answer := Prog.perform a

def persist (user : User) : SecurityProg Bool := atomic (.upsert user)

/-- `_all_accounts`: from the table, or from memory when it cannot be read. -/
def allAccounts : SecurityProg Accounts := do
  match ← atomic .load with
  | some fresh =>
      atomic (.refresh fresh)
      return fresh
  | none => atomic .accounts

/-- What `_last_owner_problem_locked` says of the accounts it has read. -/
def lastOwnerProblem (accounts : Accounts) (username action : String) : Option String :=
  match accounts.get? username with
  | none => none
  | some existing =>
      if !existing.canChangeRisk then none
      else if accounts.ownersBut username ≠ [] then none
      else some (username ++ " تنها مدیر فعال سامانه است. اگر این حساب " ++ action ++ "، " ++
        "دیگر هیچ‌کس نمی‌تواند سقف‌های ایمنی را عوض کند، توقف اضطراری " ++
        "را آزاد کند یا کاربر تازه بسازد. اول یک مدیر دیگر بسازید.")

def leave (o : Outcome) : SecurityProg Outcome := do
  atomic .release
  return o

def writeRecord (updated : User) (remember : Section) : SecurityProg Outcome := do
  if ← persist updated then
    let _ ← atomic remember
    leave (.answered true)
  else leave (.answered false)

/-- `add_user`, once the name, the role and the password are accepted. -/
def createUser (user : User) : SecurityProg Outcome := do
  atomic (.acquire user.username)
  let accounts ← allAccounts
  if (accounts.get? user.username).isSome then
    leave (.raised ("user '" ++ user.username ++ "' already exists"))
  else if ← persist user then
    atomic (.remember user)
    leave (.created user)
  else leave (.raised ("could not persist account '" ++ user.username ++ "'"))

/-- `add_user`, with the secret and the hash it draws. -/
def addUser (text : TextOps) (username password role secret hash : String) (createdNs : ℤ) :
    SecurityProg Outcome :=
  match Role.ofName? role with
  | none => return .raised "role must be viewer, operator or owner"
  | some role =>
      let username := TextOps.strip username
      match TextOps.checkUsername username with
      | some problem => return .raised problem
      | none =>
          match text.checkPasswordPolicy password username with
          | some policy => return .raised policy
          | none =>
              createUser
                { username := username, passwordHash := hash, totpSecret := secret, role := role,
                  createdNs := createdNs, disabled := false }

/-- `set_password`, with the hash it draws: the record is read from memory, and
written whole. -/
def setPassword (text : TextOps) (username password hash : String) : SecurityProg Outcome := do
  match ← atomic (.cached username) with
  | none => return .answered false
  | some existing =>
      match text.checkPasswordPolicy password username with
      | some policy => return .raised policy
      | none =>
          let updated := { existing with passwordHash := hash }
          if ← persist updated then
            atomic (.remember updated)
            return .answered true
          else return .answered false

def setRole (username role : String) : SecurityProg Outcome :=
  match Role.ofName? role with
  | none => return .raised "role must be viewer, operator or owner"
  | some role => do
      atomic (.acquire username)
      match (← allAccounts).get? username with
      | none => leave (.answered false)
      | some existing =>
          let updated := { existing with role := role }
          if role = .owner then writeRecord updated (.remember updated)
          else
            match lastOwnerProblem (← allAccounts) username "مدیر نباشد" with
            | some problem => leave (.raised problem)
            | none => writeRecord updated (.remember updated)

def setDisabled (username : String) (disabled : Bool) : SecurityProg Outcome := do
  match ← atomic (.cached username) with
  | none => return .answered false
  | some _ =>
      atomic (.acquire username)
      match (← allAccounts).get? username with
      | none => leave (.answered false)
      | some existing =>
          let updated := { existing with disabled := disabled }
          if disabled then
            match lastOwnerProblem (← allAccounts) username "غیرفعال شود" with
            | some problem => leave (.raised problem)
            | none => writeRecord updated (.rememberDisabled updated)
          else writeRecord updated (.remember updated)

def deleteUser (username : String) : SecurityProg Outcome := do
  atomic (.acquire username)
  match lastOwnerProblem (← allAccounts) username "حذف شود" with
  | some problem => leave (.raised problem)
  | none =>
      if ((← allAccounts).get? username).isSome then
        match ← atomic (.delete username) with
        | none => leave (.raised "the account table cannot be written")
        | some false => leave (.answered false)
        | some true =>
            atomic (.forget username)
            leave (.answered true)
      else leave (.answered false)

/-- `rotate_totp`, with the secret it draws: the record is read from memory, and
written whole. -/
def rotateTotp (username secret : String) : SecurityProg Outcome := do
  match ← atomic (.cached username) with
  | none => return .enrolled none
  | some existing =>
      let updated := { existing with totpSecret := secret }
      if ← persist updated then
        atomic (.reenrol updated)
        return .enrolled (some secret)
      else return .enrolled none

/-- `login`, with the token id it draws. -/
def login (username password userAgent clientIp tokenId : String) : SecurityProg Outcome := do
  match ← atomic (.openLogin username clientIp) with
  | .inl remaining =>
      return .token none ("locked out; try again in " ++ toString ⌊remaining⌋ ++ "s")
  | .inr user =>
      let ok := w.verifyPassword password ((user.map (·.passwordHash)).getD w.dummyHash)
      match ← atomic (.closeLogin username clientIp user ok tokenId
          (w.fingerprint userAgent clientIp)) with
      | none => return .token none "invalid credentials"
      | some session => return .token (some (w.encodeToken session)) "ok"

/-- `verify_token`; `now` is when the token's signature was checked. -/
def verifyToken (token : String) (now : ℤ) (userAgent clientIp : String) : SecurityProg Outcome :=
  match w.decodeToken now token with
  | none => return .session none
  | some tokenId => do
      return .session (← atomic (.verifySession tokenId (w.fingerprint userAgent clientIp)))

def writeKey (username : String) : String := "write:" ++ username

def checkRate (key : String) (perMinute : ℤ) : SecurityProg Bool :=
  atomic (.checkRate key perMinute)

def authoriseWrite (cfg : SecurityConfig) (username code : String) (requiresOwner : Bool) :
    SecurityProg Outcome := do
  match ← atomic (.reload username) with
  | none => return .verdict false "this role cannot perform write actions"
  | some user =>
      if !user.canWrite then
        return .verdict false "this role cannot perform write actions"
      else if requiresOwner && !user.canChangeRisk then
        return .verdict false "only the owner may change a risk limit"
      else if ← checkRate (writeKey username) cfg.writeRatePerMinute then
        match ← atomic (.lockedOut (SecurityState.userKey username)) with
        | some remaining =>
            return .verdict false ("this account is locked for another " ++
              toString ⌊remaining⌋ ++ "s after repeated failures")
        | none =>
            match ← atomic (.verifyTotp username code) with
            | (false, message) =>
                atomic (.failSecondFactor username)
                return .verdict false message
            | (true, _) =>
                atomic (.consumeTotp username code)
                return .verdict true "ok"
      else return .verdict false "too many write actions; slow down"

end Operations

/-! ## The machine -/

inductive SecurityOp
  | addUser (username password role secret hash : String) (createdNs : ℤ)
  | setPassword (username password hash : String)
  | setRole (username role : String)
  | setDisabled (username : String) (disabled : Bool)
  | deleteUser (username : String)
  | rotateTotp (username secret : String)
  | login (username password userAgent clientIp tokenId : String)
  | verifyToken (token : String) (now : ℤ) (userAgent clientIp : String)
  | logout (tokenId : String)
  | purgeExpired
  | loginRate (clientIp : String)
  | readRate (username : String) (perMinute : ℤ)
  | authoriseWrite (username code : String) (requiresOwner : Bool)

def SecurityOp.program :
    SecurityOp → SecurityProg Outcome
  | addUser username password role secret hash createdNs =>
      Operations.addUser w.text username password role secret hash createdNs
  | setPassword username password hash => Operations.setPassword w.text username password hash
  | setRole username role => Operations.setRole username role
  | setDisabled username disabled => Operations.setDisabled username disabled
  | deleteUser username => Operations.deleteUser username
  | rotateTotp username secret => Operations.rotateTotp username secret
  | login username password userAgent clientIp tokenId =>
      Operations.login w username password userAgent clientIp tokenId
  | verifyToken token now userAgent clientIp =>
      Operations.verifyToken w token now userAgent clientIp
  | logout tokenId => do return .answered (← Operations.atomic (.logout tokenId))
  | purgeExpired => do
      Operations.atomic .purgeExpired
      return .answered true
  | loginRate clientIp => do
      return .answered (← Operations.checkRate ("login:" ++ clientIp) 10)
  | readRate username perMinute => do
      return .answered (← Operations.checkRate ("read:" ++ username) perMinute)
  | authoriseWrite username code requiresOwner =>
      Operations.authoriseWrite cfg username code requiresOwner

inductive AccountChange
  | write (user : User)
  | delete (username : String)

def AccountChange.apply : AccountChange → Accounts → Accounts
  | write user, a => a.upsert user
  | delete username, a => a.delete username

def securityMachine :
    Machine SecurityState Reading SecurityOp AccountChange Outcome Section.Answer where
  code := SecurityOp.program cfg w
  perform := performSection cfg w
  outside c s := { s with store := c.apply s.store }

/-! ## The sections each operation takes -/

def Uses (op : SecurityOp) (a : Section) : Prop :=
  match a with
  | .openLogin username clientIp =>
      ∃ password userAgent tokenId, op = .login username password userAgent clientIp tokenId
  | .closeLogin username clientIp _ _ tokenId fingerprint =>
      ∃ password userAgent, op = .login username password userAgent clientIp tokenId ∧
        fingerprint = w.fingerprint userAgent clientIp
  | .checkRate key perMinute =>
      (∃ username code requiresOwner, op = .authoriseWrite username code requiresOwner ∧
        key = Operations.writeKey username ∧ perMinute = cfg.writeRatePerMinute) ∨
      (∃ clientIp, op = .loginRate clientIp ∧ key = "login:" ++ clientIp) ∨
      ∃ username, op = .readRate username perMinute ∧ key = "read:" ++ username
  | _ => True

section SectionsTaken

variable {cfg : SecurityConfig} {w : SecurityWorld} {op : SecurityOp}

theorem all_atomic {a : Section} (h : Uses cfg w op a) :
    (Operations.atomic a).All (Uses cfg w op) := Prog.All.perform h

def isCommon : Section → Bool
  | .openLogin .. | .closeLogin .. | .checkRate .. => false
  | _ => true

theorem uses_of_common {a : Section} (h : isCommon a = true) : Uses cfg w op a := by
  cases a
  case openLogin | closeLogin | checkRate => cases h
  all_goals trivial

theorem all_common {a : Section} (h : isCommon a = true) :
    (Operations.atomic a).All (Uses cfg w op) := all_atomic (uses_of_common h)

theorem all_return (o : Outcome) : (pure o : SecurityProg Outcome).All (Uses cfg w op) :=
  Prog.All.ret _ o

theorem all_allAccounts : Operations.allAccounts.All (Uses cfg w op) := by
  apply Prog.All.bind (all_common rfl)
  intro accounts
  cases accounts
  · exact all_common rfl
  · exact Prog.All.bind (all_common rfl) fun _ => Prog.All.ret _ _

theorem all_leave (o : Outcome) : (Operations.leave o).All (Uses cfg w op) :=
  Prog.All.bind (all_common rfl) fun _ => all_return o

theorem all_writeRecord (user : User) {remember : Section} (h : isCommon remember = true) :
    (Operations.writeRecord user remember).All (Uses cfg w op) := by
  apply Prog.All.bind (all_common rfl)
  intro b
  cases b
  · exact all_leave _
  · exact Prog.All.bind (all_common h) fun _ => all_leave _

theorem all_addUser (text : TextOps) (username password role secret hash : String)
    (createdNs : ℤ) :
    (Operations.addUser text username password role secret hash createdNs).All
      (Uses cfg w op) := by
  rw [Operations.addUser]
  split
  · exact all_return _
  · dsimp only
    split
    · exact all_return _
    · split
      · exact all_return _
      · apply Prog.All.bind (all_common rfl)
        intro _
        apply Prog.All.bind all_allAccounts
        intro accounts
        split
        · exact all_leave _
        · apply Prog.All.bind (all_common rfl)
          intro b
          cases b
          · exact all_leave _
          · exact Prog.All.bind (all_common rfl) fun _ => all_leave _

theorem all_setPassword (text : TextOps) (username password hash : String) :
    (Operations.setPassword text username password hash).All (Uses cfg w op) := by
  apply Prog.All.bind (all_common rfl)
  intro existing
  cases existing
  · exact all_return _
  · dsimp only
    split
    · exact all_return _
    · apply Prog.All.bind (all_common rfl)
      intro b
      cases b
      · exact all_return _
      · exact Prog.All.bind (all_common rfl) fun _ => all_return _

theorem all_setRole (username role : String) :
    (Operations.setRole username role).All (Uses cfg w op) := by
  rw [Operations.setRole]
  split
  · exact all_return _
  · apply Prog.All.bind (all_common rfl)
    intro _
    apply Prog.All.bind all_allAccounts
    intro accounts
    split
    · exact all_leave _
    · dsimp only
      split
      · exact all_writeRecord _ rfl
      · apply Prog.All.bind all_allAccounts
        intro again
        split
        · exact all_leave _
        · exact all_writeRecord _ rfl

theorem all_setDisabled (username : String) (disabled : Bool) :
    (Operations.setDisabled username disabled).All (Uses cfg w op) := by
  apply Prog.All.bind (all_common rfl)
  intro cached
  cases cached
  · exact all_return _
  · apply Prog.All.bind (all_common rfl)
    intro _
    apply Prog.All.bind all_allAccounts
    intro accounts
    split
    · exact all_leave _
    · dsimp only
      split
      · apply Prog.All.bind all_allAccounts
        intro again
        split
        · exact all_leave _
        · exact all_writeRecord _ rfl
      · exact all_writeRecord _ rfl

theorem all_deleteUser (username : String) :
    (Operations.deleteUser username).All (Uses cfg w op) := by
  apply Prog.All.bind (all_common rfl)
  intro _
  apply Prog.All.bind all_allAccounts
  intro accounts
  split
  · exact all_leave _
  · apply Prog.All.bind all_allAccounts
    intro again
    split
    · apply Prog.All.bind (all_common rfl)
      intro b
      rcases b with - | - | -
      · exact all_leave _
      · exact all_leave _
      · exact Prog.All.bind (all_common rfl) fun _ => all_leave _
    · exact all_leave _

theorem all_rotateTotp (username secret : String) :
    (Operations.rotateTotp username secret).All (Uses cfg w op) := by
  apply Prog.All.bind (all_common rfl)
  intro existing
  cases existing
  · exact all_return _
  · apply Prog.All.bind (all_common rfl)
    intro b
    cases b
    · exact all_return _
    · exact Prog.All.bind (all_common rfl) fun _ => all_return _

theorem all_authoriseWrite (username code : String) (requiresOwner : Bool) :
    (Operations.authoriseWrite cfg username code requiresOwner).All
      (Uses cfg w (.authoriseWrite username code requiresOwner)) := by
  apply Prog.All.bind (all_common rfl)
  intro user
  cases user
  · exact all_return _
  · dsimp only
    split
    · exact all_return _
    · split
      · exact all_return _
      · refine Prog.All.bind (all_atomic ?_) ?_
        · exact .inl ⟨_, _, _, rfl, rfl, rfl⟩
        intro b
        split
        · apply Prog.All.bind (all_common rfl)
          intro remaining
          cases remaining
          · apply Prog.All.bind (all_common rfl)
            rintro ⟨ok, message⟩
            cases ok
            · exact Prog.All.bind (all_common rfl) fun _ => all_return _
            · exact Prog.All.bind (all_common rfl) fun _ => all_return _
          · exact all_return _
        · exact all_return _

theorem all_login (username password userAgent clientIp tokenId : String) :
    (Operations.login w username password userAgent clientIp tokenId).All
      (Uses cfg w (.login username password userAgent clientIp tokenId)) := by
  refine Prog.All.bind (all_atomic ?_) ?_
  · exact ⟨_, _, _, rfl⟩
  intro b
  cases b
  · exact all_return _
  · refine Prog.All.bind (all_atomic ?_) ?_
    · exact ⟨_, _, rfl, rfl⟩
    intro b
    cases b <;> exact all_return _

end SectionsTaken

theorem program_uses (op : SecurityOp) : (op.program cfg w).All (Uses cfg w op) := by
  cases op with
  | addUser username password role secret hash createdNs =>
      exact all_addUser _ _ _ _ _ _ _
  | setPassword username password hash => exact all_setPassword _ _ _ _
  | setRole username role => exact all_setRole _ _
  | setDisabled username disabled => exact all_setDisabled _ _
  | deleteUser username => exact all_deleteUser _
  | rotateTotp username secret => exact all_rotateTotp _ _
  | login username password userAgent clientIp tokenId => exact all_login _ _ _ _ _
  | verifyToken token now userAgent clientIp =>
      simp only [SecurityOp.program, Operations.verifyToken]
      split
      · exact all_return _
      · exact Prog.All.bind (all_common rfl) fun _ => all_return _
  | logout tokenId => exact Prog.All.bind (all_common rfl) fun _ => all_return _
  | purgeExpired => exact Prog.All.bind (all_common rfl) fun _ => all_return _
  | loginRate clientIp =>
      refine Prog.All.bind (all_atomic ?_) fun _ => all_return _
      exact .inr (.inl ⟨_, rfl, rfl⟩)
  | readRate username perMinute =>
      refine Prog.All.bind (all_atomic ?_) fun _ => all_return _
      exact .inr (.inr ⟨_, rfl, rfl⟩)
  | authoriseWrite username code requiresOwner => exact all_authoriseWrite _ _ _

/-! ## What each section of account administration can do -/

section Inversion

variable {cfg : SecurityConfig} {w : SecurityWorld} {t : ℕ} {r : Reading} {s s' : SecurityState}

theorem performed {β : Type*} {p : SecurityState × β} {b : β} (hs : p.1 = s)
    (h : some p = some (s', b)) : s' = s :=
  (congrArg Prod.fst (Option.some.inj h)).symm.trans hs

theorem perform_load {b : Option Accounts}
    (h : (securityMachine cfg w).perform t .load r s = some (s', b)) :
    (b = some s.store ∧ s' = s.mark t true) ∨ (b = none ∧ s' = s) := by
  by_cases hok : r.storeOk = true
  · simp only [securityMachine, performSection, hok, if_true] at h
    exact .inl ⟨(congrArg Prod.snd (Option.some.inj h)).symm,
      (congrArg Prod.fst (Option.some.inj h)).symm⟩
  · simp only [securityMachine, performSection, hok, Bool.false_eq_true, if_false] at h
    exact .inr ⟨(congrArg Prod.snd (Option.some.inj h)).symm,
      (congrArg Prod.fst (Option.some.inj h)).symm⟩

theorem perform_accounts {b : Accounts}
    (h : (securityMachine cfg w).perform t .accounts r s = some (s', b)) :
    b = s.users ∧ s' = s.mark t true :=
  ⟨(congrArg Prod.snd (Option.some.inj h)).symm, (congrArg Prod.fst (Option.some.inj h)).symm⟩

theorem perform_upsert {user : User} {b : Bool}
    (h : (securityMachine cfg w).perform t (.upsert user) r s = some (s', b)) :
    (r.storeOk = true ∧ b = true ∧
      s' = { s with store := s.store.upsert user }.mark t false) ∨
      (r.storeOk = false ∧ b = false ∧ s' = s) := by
  by_cases hok : r.storeOk = true
  · simp only [securityMachine, performSection, hok, if_true] at h
    exact .inl ⟨hok, (congrArg Prod.snd (Option.some.inj h)).symm,
      (congrArg Prod.fst (Option.some.inj h)).symm⟩
  · simp only [securityMachine, performSection, hok, Bool.false_eq_true, if_false] at h
    exact .inr ⟨by simpa using hok, (congrArg Prod.snd (Option.some.inj h)).symm,
      (congrArg Prod.fst (Option.some.inj h)).symm⟩

theorem perform_delete {username : String} {b : Option Bool}
    (h : (securityMachine cfg w).perform t (.delete username) r s = some (s', b)) :
    (b = some (s.store.get? username).isSome ∧
      s' = { s with store := s.store.delete username }.mark t false) ∨ (b = none ∧ s' = s) := by
  by_cases hok : r.storeOk = true
  · simp only [securityMachine, performSection, hok, if_true] at h
    exact .inl ⟨(congrArg Prod.snd (Option.some.inj h)).symm,
      (congrArg Prod.fst (Option.some.inj h)).symm⟩
  · simp only [securityMachine, performSection, hok, Bool.false_eq_true, if_false] at h
    exact .inr ⟨(congrArg Prod.snd (Option.some.inj h)).symm,
      (congrArg Prod.fst (Option.some.inj h)).symm⟩

theorem perform_acquire {username : String} {b : Unit}
    (h : (securityMachine cfg w).perform t (.acquire username) r s = some (s', b)) :
    s.adminLock = none ∧
      s' = { s with adminLock := some t, target := username, deciding := false } := by
  by_cases hfree : s.adminLock = none
  · simp only [securityMachine, performSection, hfree, if_true] at h
    exact ⟨hfree, (congrArg Prod.fst (Option.some.inj h)).symm⟩
  · simp only [securityMachine, performSection, hfree, if_false] at h
    cases h

theorem perform_release {b : Unit}
    (h : (securityMachine cfg w).perform t .release r s = some (s', b)) :
    s' = { s with adminLock := none, deciding := false } :=
  (congrArg Prod.fst (Option.some.inj h)).symm

theorem perform_cached {username : String} {b : Option User}
    (h : (securityMachine cfg w).perform t (.cached username) r s = some (s', b)) :
    b = s.users.get? username ∧ s' = s :=
  ⟨(congrArg Prod.snd (Option.some.inj h)).symm, (congrArg Prod.fst (Option.some.inj h)).symm⟩

theorem perform_verifyTotp {username code : String} {b : Bool × String}
    (h : (securityMachine cfg w).perform t (.verifyTotp username code) r s = some (s', b)) :
    (b.1 = true ∧ (s.verifyTotp w username code false r).2.1 = true ∧
      s' = { s with verified := (t, username, SecurityState.totpText code) :: s.verified }) ∨
      (b.1 = false ∧ s' = s) := by
  have hs := s.verifyTotp_keeps w username code r
  simp only [securityMachine, performSection] at h
  split at h
  · rename_i s₁ message heq
    rw [heq] at hs
    dsimp only at hs
    subst hs
    have hpair := Option.some.inj h
    exact .inl ⟨(congrArg (fun x => x.2.1) hpair).symm, by rw [heq],
      (congrArg Prod.fst hpair).symm⟩
  · rename_i s₁ message heq
    rw [heq] at hs
    dsimp only at hs
    subst hs
    have hpair := Option.some.inj h
    exact .inr ⟨(congrArg (fun x => x.2.1) hpair).symm, (congrArg Prod.fst hpair).symm⟩

theorem perform_consumeTotp {username code : String} {b : Unit}
    (h : (securityMachine cfg w).perform t (.consumeTotp username code) r s = some (s', b)) :
    s' = { s.consumeTotp username code r.mono with
      verified := s.verified.filter fun v => v.1 ≠ t
      writes := (username, SecurityState.totpText code, r.mono) :: s.writes } :=
  (congrArg Prod.fst (Option.some.inj h)).symm

end Inversion

end Sentinel
