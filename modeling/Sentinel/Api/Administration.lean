import Sentinel.Api.Operations

/-!
# Account administration under interleaving

The operations that hold the administration lock read the accounts, decide and
write without another of them in between.  Password resets and rotations of the
second factor do not hold it: they write back a whole record read from memory
earlier.  As long as these records are those of the table, and another process
leaves the owners alone that a decision has counted, an enabled owner remains.
-/

namespace Sentinel
namespace Administration

/-! ## Owners -/

variable (name : String) (a : Accounts)

def HasOwner (a : Accounts) : Prop := ∃ name, a.EnabledOwner name

/-- Someone other than `name` can. -/
def OwnerBesides : Prop :=
  ∃ other, other ≠ name ∧ a.EnabledOwner other

def Dispensable : Prop :=
  OwnerBesides name a ∨ ¬ a.EnabledOwner name

def SameOwners (a b : Accounts) : Prop := ∀ name, a.EnabledOwner name ↔ b.EnabledOwner name

/-- What a decision about `name` has found out from `a` still holds of `b`: an
owner besides it remains, and it has not become the only one. -/
def Undisturbed (name : String) (a b : Accounts) : Prop :=
  (OwnerBesides name a → OwnerBesides name b) ∧
    (¬ OwnerBesides name b → b.EnabledOwner name → a.EnabledOwner name)

theorem Undisturbed.refl : Undisturbed name a a :=
  ⟨id, fun _ h => h⟩

variable {name : String}

theorem Undisturbed.trans {a b c : Accounts} (hab : Undisturbed name a b)
    (hbc : Undisturbed name b c) : Undisturbed name a c := by
  refine ⟨fun h => hbc.1 (hab.1 h), ?_⟩
  intro hnone howner
  apply hab.2 _ (hbc.2 hnone howner)
  exact fun hb => hnone (hbc.1 hb)

variable {a b : Accounts}

theorem SameOwners.ownerBesides (h : SameOwners a b) :
    OwnerBesides name a ↔ OwnerBesides name b := by
  simp only [OwnerBesides, h _]

theorem SameOwners.undisturbed (h : SameOwners a b) (name : String) : Undisturbed name a b :=
  ⟨h.ownerBesides.mp, fun _ => (h name).mpr⟩

theorem SameOwners.hasOwner (h : SameOwners a b) (ha : HasOwner a) : HasOwner b :=
  ha.imp fun name => (h name).mp

theorem Undisturbed.dispensable (h : Undisturbed name a b)
    (ha : Dispensable name a) : Dispensable name b := by
  by_cases hb : OwnerBesides name b
  · exact .inl hb
  · rcases ha with ha | ha
    · exact absurd (h.1 ha) hb
    · exact .inr fun howner => ha (h.2 hb howner)

variable {a : Accounts}

theorem enabledOwner_put {user : User} {name : String} :
    (a.put user).EnabledOwner name ↔
      if name = user.username then user.canChangeRisk = true else a.EnabledOwner name := by
  simp only [Accounts.EnabledOwner, Accounts.get?_put]
  by_cases hname : name = user.username
  · simp [hname]
  · simp [hname]

theorem enabledOwner_upsert {user : User} {name : String} :
    (a.upsert user).EnabledOwner name ↔
      if name = user.username then user.canChangeRisk = true else a.EnabledOwner name :=
  enabledOwner_put

theorem enabledOwner_delete {k name : String} :
    (a.delete k).EnabledOwner name ↔ name ≠ k ∧ a.EnabledOwner name := by
  simp only [Accounts.EnabledOwner, Accounts.get?_delete]
  by_cases hname : name = k
  · simp [hname]
  · simp [hname]

theorem hasOwner_upsert {user : User}
    (h : user.canChangeRisk = true ∨ Dispensable user.username a) (ha : HasOwner a) :
    HasOwner (a.upsert user) := by
  have hkeep : OwnerBesides user.username a → HasOwner (a.upsert user) := by
    rintro ⟨other, hne, howner⟩
    exact ⟨other, enabledOwner_upsert.mpr (by rw [if_neg hne]; exact howner)⟩
  rcases h with h | h | h
  · exact ⟨user.username, enabledOwner_upsert.mpr (by rw [if_pos rfl]; exact h)⟩
  · exact hkeep h
  · obtain ⟨name, howner⟩ := ha
    exact hkeep ⟨name, fun heq => h (heq ▸ howner), howner⟩

theorem hasOwner_delete (h : Dispensable name a) (ha : HasOwner a) : HasOwner (a.delete name) := by
  have hkeep : OwnerBesides name a → HasOwner (a.delete name) := by
    rintro ⟨other, hne, howner⟩
    exact ⟨other, enabledOwner_delete.mpr ⟨hne, howner⟩⟩
  rcases h with h | h
  · exact hkeep h
  · obtain ⟨other, howner⟩ := ha
    exact hkeep ⟨other, fun heq => h (heq ▸ howner), howner⟩

theorem dispensable_of_lastOwnerProblem {username action : String}
    (h : Operations.lastOwnerProblem a username action = none) : Dispensable username a := by
  rw [Operations.lastOwnerProblem] at h
  cases hget : a.get? username with
  | none =>
      right
      rintro ⟨user, hsome, -⟩
      rw [hget] at hsome
      cases hsome
  | some existing =>
      rw [hget] at h
      by_cases howner : existing.canChangeRisk = true
      · simp only [howner, Bool.not_true, Bool.false_eq_true, if_false] at h
        by_cases hothers : a.ownersBut username ≠ []
        · left
          obtain ⟨other, hmem⟩ := List.exists_mem_of_ne_nil _ hothers
          obtain ⟨hother, hne⟩ := Accounts.mem_ownersBut.mp hmem
          exact ⟨other, hne, hother⟩
        · rw [if_neg hothers] at h
          cases h
      · right
        rintro ⟨user, hsome, hrisk⟩
        rw [hget, Option.some.injEq] at hsome
        exact howner (hsome ▸ hrisk)

/-! ## What a run is asked for -/

def FreshRewrite (s : SecurityState) (op : SecurityOp) (a : Section) (e : Reading) : Prop :=
  match op, a with
  | .setPassword _ _ _, .upsert r =>
      e.storeOk = true → ∃ cur, s.store.get? r.username = some cur ∧
        r.totpSecret = cur.totpSecret ∧ r.role = cur.role ∧ r.disabled = cur.disabled
  | .rotateTotp _ _, .upsert r =>
      e.storeOk = true → ∃ cur, s.store.get? r.username = some cur ∧
        r.passwordHash = cur.passwordHash ∧ r.role = cur.role ∧ r.disabled = cur.disabled
  | _, _ => True

def ReadsOwners (s : SecurityState) (a : Section) : Prop :=
  match a with
  | .accounts => SameOwners s.users s.store
  | _ => True

def LockRely (t : ℕ) (s s' : SecurityState) : Prop :=
  s.adminLock = some t →
    s'.adminLock = some t ∧ s'.target = s.target ∧ s'.deciding = s.deciding ∧
      (s.deciding = true → Undisturbed s.target s.store s'.store)

theorem LockRely.refl (t : ℕ) (s : SecurityState) : LockRely t s s :=
  fun h => ⟨h, rfl, rfl, fun _ => Undisturbed.refl _ _⟩

theorem LockRely.trans {t : ℕ} {s₁ s₂ s₃ : SecurityState} (h₁₂ : LockRely t s₁ s₂)
    (h₂₃ : LockRely t s₂ s₃) : LockRely t s₁ s₃ := by
  intro hlock
  obtain ⟨hlock₂, htarget₂, hdeciding₂, hstore₂⟩ := h₁₂ hlock
  obtain ⟨hlock₃, htarget₃, hdeciding₃, hstore₃⟩ := h₂₃ hlock₂
  refine ⟨hlock₃, htarget₃.trans htarget₂, hdeciding₃.trans hdeciding₂, ?_⟩
  intro hd
  have hnext := hstore₃ (hdeciding₂.trans hd)
  rw [htarget₂] at hnext
  exact (hstore₂ hd).trans hnext

def LeavesOwners (s : SecurityState) (c : AccountChange) : Prop :=
  (HasOwner s.store → HasOwner (c.apply s.store)) ∧
    (s.deciding = true → Undisturbed s.target s.store (c.apply s.store))

def discipline (cfg : SecurityConfig) (w : SecurityWorld) :
    Discipline (securityMachine cfg w) where
  inv _ := True
  rely := LockRely
  meetsStart _ _ := True
  meets s _ op a e := FreshRewrite s op a e ∧ ReadsOwners s a
  meetsOutside := LeavesOwners
  effect _ _ _ s s' := HasOwner s.store → HasOwner s'.store
  rely_refl := LockRely.refl
  rely_trans _ _ _ _ h₁₂ h₂₃ := h₁₂.trans h₂₃
  outside_keeps s c _ hc := by
    refine ⟨trivial, ?_⟩
    intro t hlock
    exact ⟨hlock, rfl, rfl, hc.2⟩

/-! ## Sections that only use the memory of the manager -/

structure SameAdmin (s s' : SecurityState) : Prop where
  store : s'.store = s.store
  adminLock : s'.adminLock = s.adminLock
  target : s'.target = s.target
  deciding : s'.deciding = s.deciding

namespace SameAdmin

variable {s s' s'' : SecurityState}

theorem refl (s : SecurityState) : SameAdmin s s := ⟨rfl, rfl, rfl, rfl⟩

theorem rely (h : SameAdmin s s') (t : ℕ) : LockRely t s s' := by
  intro hlock
  refine ⟨h.adminLock.trans hlock, h.target, h.deciding, ?_⟩
  intro _
  rw [h.store]
  exact Undisturbed.refl _ _

end SameAdmin

def inMemory : Section → Bool
  | .load | .upsert _ | .delete _ | .acquire _ | .release | .accounts => false
  | _ => true

theorem sameAdmin_perform {cfg : SecurityConfig} {w : SecurityWorld} {t : ℕ} {a : Section}
    {e : Reading} {s s' : SecurityState} {b : a.Answer} (ha : inMemory a = true)
    (h : (securityMachine cfg w).perform t a e s = some (s', b)) : SameAdmin s s' := by
  cases a
  case load | upsert | delete | acquire | release | accounts => cases ha
  case openLogin username clientIp =>
    obtain ⟨u, l, hs⟩ := s.openLogin_changes cfg username clientIp e
    obtain rfl := performed hs h
    exact ⟨rfl, rfl, rfl, rfl⟩
  case closeLogin username clientIp user ok tokenId fingerprint =>
    obtain ⟨f, l, k, ss, hs⟩ :=
      s.closeLogin_changes cfg username clientIp user ok tokenId fingerprint e
    obtain rfl := performed hs h
    exact ⟨rfl, rfl, rfl, rfl⟩
  case verifySession tokenId fingerprint =>
    obtain ⟨u, ss, hs⟩ := s.verifySession_changes tokenId fingerprint e
    obtain rfl := performed hs h
    exact ⟨rfl, rfl, rfl, rfl⟩
  case reload username =>
    obtain ⟨u, hs⟩ := s.reloadUser_changes username e
    obtain rfl := performed hs h
    exact ⟨rfl, rfl, rfl, rfl⟩
  case checkRate key perMinute =>
    obtain ⟨table, hs⟩ := s.checkRate_changes key perMinute e.mono
    obtain rfl := performed hs h
    exact ⟨rfl, rfl, rfl, rfl⟩
  case lockedOut key =>
    obtain ⟨l, hs⟩ := s.lockedOut_changes key e.mono
    obtain rfl := performed hs h
    exact ⟨rfl, rfl, rfl, rfl⟩
  case failSecondFactor username =>
    obtain ⟨f, l, k, ss, hs⟩ := s.failSecondFactor_changes cfg username e
    obtain rfl := performed (p := (_, ())) hs h
    exact ⟨rfl, rfl, rfl, rfl⟩
  case verifyTotp username code =>
    rcases perform_verifyTotp h with ⟨-, -, rfl⟩ | ⟨-, rfl⟩
    · exact ⟨rfl, rfl, rfl, rfl⟩
    · exact .refl _
  all_goals
    have hfst := congrArg Prod.fst (Option.some.inj h)
    dsimp only at hfst
    rw [← hfst]
    exact ⟨rfl, rfl, rfl, rfl⟩

/-! ## Assertions of the holder of the lock -/

structure Holds (t : ℕ) (username : String) (s : SecurityState) : Prop where
  adminLock : s.adminLock = some t
  target : s.target = username

/-- It has read the accounts, and knows `K` of those in the table. -/
structure Decides (t : ℕ) (username : String) (K : Accounts → Prop) (s : SecurityState) : Prop
    extends Holds t username s where
  deciding : s.deciding = true
  known : K s.store

def Lasting (username : String) (K : Accounts → Prop) : Prop :=
  ∀ a b, Undisturbed username a b → K a → K b

theorem lasting_undisturbed (username : String) (r : Accounts) :
    Lasting username (Undisturbed username r) :=
  fun _ _ hab hra => hra.trans hab

theorem lasting_dispensable (username : String) : Lasting username (Dispensable username) :=
  fun _ _ hab ha => hab.dispensable ha

section Triples

variable {cfg : SecurityConfig} {w : SecurityWorld} {t : ℕ} {op : SecurityOp} {username : String}

theorem Holds.stable : (discipline cfg w).Stable t (Holds t username) := by
  intro s s' hrely h
  obtain ⟨hlock, htarget, -⟩ := hrely h.adminLock
  exact ⟨hlock, htarget.trans h.target⟩

variable {K : Accounts → Prop}

variable (cfg w) in
theorem stable_decides (hK : Lasting username K) :
    (discipline cfg w).Stable t (Decides t username K) := by
  intro s s' hrely h
  obtain ⟨hlock, htarget, hdeciding, hstore⟩ := hrely h.adminLock
  have hund := hstore h.deciding
  rw [h.target] at hund
  exact ⟨⟨hlock, htarget.trans h.target⟩, hdeciding.trans h.deciding, hK _ _ hund h.known⟩

theorem Holds.frame {s s' : SecurityState} (h : SameAdmin s s') (hs : Holds t username s) :
    Holds t username s' :=
  ⟨h.adminLock.trans hs.adminLock, h.target.trans hs.target⟩

theorem Decides.frame {s s' : SecurityState} (h : SameAdmin s s')
    (hs : Decides t username K s) : Decides t username K s' :=
  ⟨hs.toHolds.frame h, h.deciding.trans hs.deciding, h.store.symm ▸ hs.known⟩

theorem rely_of_holder {u : ℕ} {s s' : SecurityState} (h : s.adminLock = some t) (hu : u ≠ t) :
    LockRely u s s' := by
  intro hlock
  rw [h, Option.some.injEq] at hlock
  exact absurd hlock.symm hu

theorem triple_inMemory {a : Section} (ha : inMemory a = true) {P : SecurityState → Prop}
    (hstable : (discipline cfg w).Stable t P) (hframe : ∀ s s', SameAdmin s s' → P s → P s') :
    (discipline cfg w).Triple t op P (Operations.atomic a) fun _ => P := by
  apply Discipline.Triple.action hstable
  intro s e s' b hP _ _ hperform
  have hsame := sameAdmin_perform ha hperform
  refine ⟨?_, trivial, fun u _ => hsame.rely u, hframe s s' hsame hP⟩
  intro howner
  rw [hsame.store]
  exact howner

theorem triple_free {a : Section} (ha : inMemory a = true) :
    (discipline cfg w).Triple t op (fun _ => True) (Operations.atomic a) fun _ _ => True :=
  triple_inMemory ha (fun _ _ _ _ => trivial) fun _ _ _ _ => trivial

theorem Holds.mark {s : SecurityState} (h : Holds t username s) (value : Bool) :
    s.mark t value = { s with deciding := value } := by
  rw [SecurityState.mark, if_pos h.adminLock]

theorem triple_allAccounts {P : SecurityState → Prop} (hP : ∀ s, P s → Holds t username s)
    (hstable : (discipline cfg w).Stable t P) (hframe : ∀ s s', SameAdmin s s' → P s → P s')
    (hmark : ∀ s, P s → P { s with deciding := true }) :
    (discipline cfg w).Triple t op P Operations.allAccounts
      fun r s => P s ∧ Decides t username (Undisturbed username r) s := by
  have hboth : ∀ r, (discipline cfg w).Stable t
      fun s => P s ∧ Decides t username (Undisturbed username r) s := by
    intro r s s' hrely hs
    exact ⟨hstable s s' hrely hs.1,
      stable_decides cfg w (lasting_undisturbed username r) s s' hrely hs.2⟩
  have hread : ∀ s, P s → ∀ r, Undisturbed username r s.store →
      (HasOwner s.store → HasOwner (s.mark t true).store) ∧
        (∀ u, u ≠ t → LockRely u s (s.mark t true)) ∧
        P (s.mark t true) ∧ Decides t username (Undisturbed username r) (s.mark t true) := by
    intro s hs r hr
    have hholds := hP s hs
    refine ⟨?_, fun u hu => rely_of_holder hholds.adminLock hu, ?_⟩
    · rw [hholds.mark]
      exact id
    · rw [hholds.mark]
      exact ⟨hmark s hs, ⟨hholds.adminLock, hholds.target⟩, rfl, hr⟩
  rw [Operations.allAccounts]
  apply Discipline.Triple.bind
    (R := fun b s => P s ∧ ∀ r, b = some r → Decides t username (Undisturbed username r) s)
  · apply Discipline.Triple.action hstable
    intro s e s' b hs _ _ hperform
    rcases perform_load hperform with ⟨rfl, rfl⟩ | ⟨rfl, rfl⟩
    · obtain ⟨heffect, hrely, hP', hdecides⟩ :=
        hread s hs s.store (Undisturbed.refl _ _)
      refine ⟨heffect, trivial, hrely, hP', ?_⟩
      intro r hr
      cases hr
      exact hdecides
    · refine ⟨id, trivial, fun u _ => LockRely.refl u _, hs, ?_⟩
      intro r hr
      cases hr
  · intro b
    rcases b with - | fresh
    · apply Discipline.Triple.weaken (P := P) _ fun s hs => hs.1
      apply Discipline.Triple.action hstable
      intro s e s' b hs _ hmeets hperform
      obtain ⟨rfl, rfl⟩ := perform_accounts hperform
      obtain ⟨heffect, hrely, hP', hdecides⟩ :=
        hread s hs s.users (SameOwners.undisturbed hmeets.2 username)
      exact ⟨heffect, trivial, hrely, hP', hdecides⟩
    · apply Discipline.Triple.weaken
        (P := fun s => P s ∧ Decides t username (Undisturbed username fresh) s) _
        fun s hs => ⟨hs.1, hs.2 fresh rfl⟩
      apply Discipline.Triple.bind
      · apply triple_inMemory rfl (hboth fresh)
        intro s s' hsame hs
        exact ⟨hframe s s' hsame hs.1, hs.2.frame hsame⟩
      · intro _
        exact Discipline.Triple.ret fun _ hs => hs

theorem triple_acquire :
    (discipline cfg w).Triple t op (fun _ => True) (Operations.atomic (.acquire username))
      fun _ => Holds t username := by
  apply Discipline.Triple.action fun _ _ _ _ => trivial
  intro s e s' b _ _ _ hperform
  obtain ⟨hfree, rfl⟩ := perform_acquire hperform
  refine ⟨id, trivial, ?_, rfl, rfl⟩
  intro u _ hlock
  rw [hfree] at hlock
  cases hlock

theorem triple_leave (o : Outcome) :
    (discipline cfg w).Triple t op (Holds t username) (Operations.leave o) fun _ _ => True := by
  apply Discipline.Triple.bind (R := fun _ _ => True)
  · apply Discipline.Triple.action Holds.stable
    intro s e s' b hs _ _ hperform
    obtain rfl := perform_release hperform
    exact ⟨id, trivial,
      fun u hu => rely_of_holder hs.adminLock hu, trivial⟩
  · intro _
    exact Discipline.Triple.ret fun _ _ => trivial

theorem triple_leave_decides (o : Outcome) :
    (discipline cfg w).Triple t op (Decides t username K) (Operations.leave o)
      fun _ _ => True :=
  (triple_leave o).weaken fun _ hs => hs.toHolds

def Writable (user : User) (a : Accounts) : Prop :=
  user.canChangeRisk = true ∨ Dispensable user.username a

theorem lasting_writable (user : User) : Lasting user.username (Writable user) :=
  fun _ _ hab ha => ha.imp_right hab.dispensable

variable {user : User}

theorem triple_persist :
    (discipline cfg w).Triple t op (Decides t user.username (Writable user))
      (Operations.persist user) fun _ => Holds t user.username := by
  apply Discipline.Triple.action (stable_decides cfg w (lasting_writable user))
  intro s e s' b hs _ _ hperform
  rcases perform_upsert hperform with ⟨-, rfl, rfl⟩ | ⟨-, rfl, rfl⟩
  · have hmark : Holds t user.username { s with store := s.store.upsert user } :=
      ⟨hs.adminLock, hs.target⟩
    rw [hmark.mark]
    exact ⟨hasOwner_upsert hs.known, trivial,
      fun u hu => rely_of_holder hs.adminLock hu, hs.adminLock, hs.target⟩
  · exact ⟨id, trivial, fun u _ => LockRely.refl u _, hs.toHolds⟩

theorem triple_writeRecord {remember : Section}
    (hremember : inMemory remember = true) :
    (discipline cfg w).Triple t op (Decides t user.username (Writable user))
      (Operations.writeRecord user remember) fun _ _ => True := by
  apply Discipline.Triple.bind triple_persist
  intro b
  cases b
  · exact triple_leave _
  · apply Discipline.Triple.bind (R := fun _ => Holds t user.username)
    · exact triple_inMemory hremember Holds.stable fun _ _ hsame hs => hs.frame hsame
    · intro _
      exact triple_leave _

theorem triple_readAccounts :
    (discipline cfg w).Triple t op (Holds t username) Operations.allAccounts
      fun r => Decides t username (Undisturbed username r) := by
  apply Discipline.Triple.imp
    (triple_allAccounts (P := Holds t username) (fun _ h => h) Holds.stable
      (fun _ _ hsame h => h.frame hsame) fun _ h => ⟨h.adminLock, h.target⟩)
  exact fun _ _ h => h.2

theorem triple_readAgain (hK : Lasting username K) :
    (discipline cfg w).Triple t op (Decides t username K) Operations.allAccounts
      fun _ => Decides t username K := by
  apply Discipline.Triple.imp
    (triple_allAccounts (P := Decides t username K) (fun _ h => h.toHolds) (stable_decides cfg w hK)
      (fun _ _ hsame h => h.frame hsame) fun _ h => ⟨⟨h.adminLock, h.target⟩, rfl, h.known⟩)
  exact fun _ _ h => h.1

theorem decides_of_read {r : Accounts} {K : Accounts → Prop} (hK : Lasting username K) (hr : K r)
    {s : SecurityState} (h : Decides t username (Undisturbed username r) s) :
    Decides t username K s :=
  ⟨h.toHolds, h.deciding, hK _ _ h.known hr⟩

theorem writable_of_read {existing updated : User}
    (hget : a.get? updated.username = some existing)
    (h : existing.canChangeRisk = true → updated.canChangeRisk = true) : Writable updated a := by
  by_cases howner : existing.canChangeRisk = true
  · exact .inl (h howner)
  · refine .inr (.inr ?_)
    rintro ⟨user, hsome, hrisk⟩
    rw [hget, Option.some.injEq] at hsome
    exact howner (hsome ▸ hrisk)

theorem verified_createUser :
    (discipline cfg w).Triple t op (fun _ => True) (Operations.createUser user)
      fun _ _ => True := by
  apply Discipline.Triple.bind triple_acquire
  intro _
  apply Discipline.Triple.bind triple_readAccounts
  intro accounts
  by_cases hexists : (accounts.get? user.username).isSome = true
  · rw [if_pos hexists]
    exact triple_leave_decides _
  · rw [if_neg hexists]
    have habsent : Writable user accounts := by
      refine .inr (.inr ?_)
      rintro ⟨existing, hget, -⟩
      rw [hget] at hexists
      exact hexists rfl
    apply Discipline.Triple.bind
      (triple_persist.weaken fun s hs => decides_of_read (lasting_writable user) habsent hs)
    intro b
    cases b
    · exact triple_leave _
    · apply Discipline.Triple.bind (R := fun _ => Holds t user.username)
      · exact triple_inMemory rfl Holds.stable fun _ _ hsame hs => hs.frame hsame
      · intro _
        exact triple_leave _

theorem verified_setRole (role : String) :
    (discipline cfg w).Triple t op (fun _ => True) (Operations.setRole username role)
      fun _ _ => True := by
  rw [Operations.setRole]
  split
  · exact Discipline.Triple.ret fun _ _ => trivial
  · rename_i role _
    apply Discipline.Triple.bind triple_acquire
    intro _
    apply Discipline.Triple.bind triple_readAccounts
    intro accounts
    cases hget : accounts.get? username with
    | none => exact triple_leave_decides _
    | some existing =>
        have hname : existing.username = username := Accounts.username_of_get? hget
        subst hname
        dsimp only
        by_cases howner : role = .owner
        · rw [if_pos howner]
          have hwrite : Writable { existing with role := role } accounts := by
            apply writable_of_read
            · exact hget
            · intro hrisk
              simp_all [User.canChangeRisk]
          exact (triple_writeRecord rfl).weaken fun s hs =>
            decides_of_read (lasting_writable { existing with role := role }) hwrite hs
        · rw [if_neg howner]
          apply Discipline.Triple.bind (triple_readAccounts.weaken fun _ hs => hs.toHolds)
          intro again
          cases hproblem : Operations.lastOwnerProblem again existing.username "مدیر نباشد" with
          | some problem => exact triple_leave_decides _
          | none =>
              have hwrite : Writable { existing with role := role } again :=
                .inr (dispensable_of_lastOwnerProblem hproblem)
              exact (triple_writeRecord rfl).weaken fun s hs =>
                decides_of_read (lasting_writable { existing with role := role }) hwrite hs

theorem verified_setDisabled (disabled : Bool) :
    (discipline cfg w).Triple t op (fun _ => True) (Operations.setDisabled username disabled)
      fun _ _ => True := by
  apply Discipline.Triple.bind (triple_free rfl)
  intro cached
  rcases cached with - | cached
  · exact Discipline.Triple.ret fun _ _ => trivial
  · apply Discipline.Triple.bind triple_acquire
    intro _
    apply Discipline.Triple.bind triple_readAccounts
    intro accounts
    cases hget : accounts.get? username with
    | none => exact triple_leave_decides _
    | some existing =>
        have hname : existing.username = username := Accounts.username_of_get? hget
        subst hname
        cases disabled
        · have hwrite : Writable { existing with disabled := false } accounts := by
            apply writable_of_read
            · exact hget
            · intro hrisk
              simp_all [User.canChangeRisk]
          exact (triple_writeRecord rfl).weaken fun s hs =>
            decides_of_read (lasting_writable { existing with disabled := false }) hwrite hs
        · apply Discipline.Triple.bind (triple_readAccounts.weaken fun _ hs => hs.toHolds)
          intro again
          cases hproblem : Operations.lastOwnerProblem again existing.username "غیرفعال شود" with
          | some problem => exact triple_leave_decides _
          | none =>
              have hwrite : Writable { existing with disabled := true } again :=
                .inr (dispensable_of_lastOwnerProblem hproblem)
              exact (triple_writeRecord rfl).weaken fun s hs =>
                decides_of_read (lasting_writable { existing with disabled := true }) hwrite hs

theorem triple_delete :
    (discipline cfg w).Triple t op (Decides t username (Dispensable username))
      (Operations.atomic (.delete username)) fun _ => Holds t username := by
  apply Discipline.Triple.action (stable_decides cfg w (lasting_dispensable username))
  intro s e s' b hs _ _ hperform
  rcases perform_delete hperform with ⟨rfl, rfl⟩ | ⟨rfl, rfl⟩
  · have hmark : Holds t username { s with store := s.store.delete username } :=
      ⟨hs.adminLock, hs.target⟩
    rw [hmark.mark]
    exact ⟨hasOwner_delete hs.known, trivial,
      fun u hu => rely_of_holder hs.adminLock hu, hs.adminLock, hs.target⟩
  · exact ⟨id, trivial, fun u _ => LockRely.refl u _,
      hs.toHolds⟩

theorem verified_deleteUser :
    (discipline cfg w).Triple t op (fun _ => True) (Operations.deleteUser username)
      fun _ _ => True := by
  apply Discipline.Triple.bind triple_acquire
  intro _
  apply Discipline.Triple.bind triple_readAccounts
  intro accounts
  cases hproblem : Operations.lastOwnerProblem accounts username "حذف شود" with
  | some problem => exact triple_leave_decides _
  | none =>
      have hspare := dispensable_of_lastOwnerProblem hproblem
      apply Discipline.Triple.bind
        ((triple_readAgain (lasting_dispensable username)).weaken fun s hs =>
          decides_of_read (lasting_dispensable username) hspare hs)
      intro again
      by_cases hexists : (again.get? username).isSome = true
      · rw [if_pos hexists]
        apply Discipline.Triple.bind triple_delete
        intro b
        rcases b with - | - | -
        · exact triple_leave _
        · exact triple_leave _
        · apply Discipline.Triple.bind (R := fun _ => Holds t username)
          · exact triple_inMemory rfl Holds.stable fun _ _ hsame hs => hs.frame hsame
          · intro _
            exact triple_leave _
      · rw [if_neg hexists]
        exact triple_leave_decides _

/-! ## Records read from memory -/

theorem sameOwners_upsert {user cur : User}
    (hget : a.get? user.username = some cur) (hrole : user.role = cur.role)
    (hdisabled : user.disabled = cur.disabled) : SameOwners a (a.upsert user) := by
  intro name
  rw [enabledOwner_upsert]
  by_cases hname : name = user.username
  · subst hname
    simp only [if_true, Accounts.EnabledOwner, hget, Option.some.injEq, exists_eq_left',
      User.canChangeRisk, hrole, hdisabled]
  · rw [if_neg hname]

theorem rely_of_sameOwners {u : ℕ} {s : SecurityState} {a : Accounts} {value : Bool}
    (h : SameOwners s.store a) (hu : u ≠ t) :
    LockRely u s ({ s with store := a }.mark t value) := by
  intro hlock
  have hmark : ({ s with store := a } : SecurityState).mark t value = { s with store := a } := by
    rw [SecurityState.mark, if_neg]
    intro ht
    rw [show ({ s with store := a } : SecurityState).adminLock = s.adminLock from rfl, hlock,
      Option.some.injEq] at ht
    exact hu ht
  rw [hmark]
  exact ⟨hlock, rfl, rfl, fun _ => h.undisturbed _⟩

theorem store_mark (s : SecurityState) (value : Bool) : (s.mark t value).store = s.store := by
  rw [SecurityState.mark]
  split <;> rfl

theorem triple_rewrite (hfresh : ∀ s e, FreshRewrite s op (.upsert user) e → e.storeOk = true →
      SameOwners s.store (s.store.upsert user)) :
    (discipline cfg w).Triple t op (fun _ => True) (Operations.persist user)
      fun _ _ => True := by
  apply Discipline.Triple.action fun _ _ _ _ => trivial
  intro s e s' b _ _ hmeets hperform
  rcases perform_upsert hperform with ⟨hok, -, rfl⟩ | ⟨-, -, rfl⟩
  · have hsame := hfresh s e hmeets.1 hok
    refine ⟨?_, trivial, fun u hu => rely_of_sameOwners hsame hu, trivial⟩
    intro howner
    rw [store_mark]
    exact hsame.hasOwner howner
  · exact ⟨id, trivial, fun u _ => LockRely.refl u _, trivial⟩

theorem verified_setPassword (password hash : String) :
    (discipline cfg w).Triple t (.setPassword username password hash) (fun _ => True)
      (Operations.setPassword w.text username password hash) fun _ _ => True := by
  apply Discipline.Triple.bind (triple_free rfl)
  intro existing
  rcases existing with - | existing
  · exact Discipline.Triple.ret fun _ _ => trivial
  · dsimp only
    split
    · exact Discipline.Triple.ret fun _ _ => trivial
    · apply Discipline.Triple.bind (R := fun _ _ => True)
      · apply triple_rewrite
        intro s e hmeets hok
        obtain ⟨cur, hget, -, hrole, hdisabled⟩ := hmeets hok
        exact sameOwners_upsert hget hrole hdisabled
      · intro b
        cases b
        · exact Discipline.Triple.ret fun _ _ => trivial
        · exact Discipline.Triple.bind (triple_free rfl)
            fun _ => Discipline.Triple.ret fun _ _ => trivial

theorem verified_rotateTotp (secret : String) :
    (discipline cfg w).Triple t (.rotateTotp username secret) (fun _ => True)
      (Operations.rotateTotp username secret) fun _ _ => True := by
  apply Discipline.Triple.bind (triple_free rfl)
  intro existing
  rcases existing with - | existing
  · exact Discipline.Triple.ret fun _ _ => trivial
  · apply Discipline.Triple.bind (R := fun _ _ => True)
    · apply triple_rewrite
      intro s e hmeets hok
      obtain ⟨cur, hget, -, hrole, hdisabled⟩ := hmeets hok
      exact sameOwners_upsert hget hrole hdisabled
    · intro b
      cases b
      · exact Discipline.Triple.ret fun _ _ => trivial
      · exact Discipline.Triple.bind (triple_free rfl)
          fun _ => Discipline.Triple.ret fun _ _ => trivial

/-! ## The other operations -/

theorem verified_addUser (text : TextOps) (password role secret hash : String) (createdNs : ℤ) :
    (discipline cfg w).Triple t op (fun _ => True)
      (Operations.addUser text username password role secret hash createdNs)
      fun _ _ => True := by
  rw [Operations.addUser]
  split
  · exact Discipline.Triple.ret fun _ _ => trivial
  · dsimp only
    split
    · exact Discipline.Triple.ret fun _ _ => trivial
    · split
      · exact Discipline.Triple.ret fun _ _ => trivial
      · exact verified_createUser

theorem verified_login (password userAgent clientIp tokenId : String) :
    (discipline cfg w).Triple t op (fun _ => True)
      (Operations.login w username password userAgent clientIp tokenId) fun _ _ => True := by
  apply Discipline.Triple.bind (triple_free rfl)
  intro b
  rcases b with remaining | user
  · exact Discipline.Triple.ret fun _ _ => trivial
  · apply Discipline.Triple.bind (triple_free rfl)
    intro b
    cases b <;> exact Discipline.Triple.ret fun _ _ => trivial

theorem verified_authoriseWrite (code : String) (requiresOwner : Bool) :
    (discipline cfg w).Triple t op (fun _ => True)
      (Operations.authoriseWrite cfg username code requiresOwner) fun _ _ => True := by
  have hdone : ∀ o : Outcome, (discipline cfg w).Triple t op (fun _ => True)
      (pure o) fun _ _ => True := fun _ => Discipline.Triple.ret fun _ _ => trivial
  apply Discipline.Triple.bind (triple_free rfl)
  intro user
  rcases user with - | user
  · exact hdone _
  · dsimp only
    split
    · exact hdone _
    · split
      · exact hdone _
      · apply Discipline.Triple.bind (R := fun _ _ => True) (triple_free rfl)
        intro b
        cases b
        · exact hdone _
        · apply Discipline.Triple.bind (triple_free rfl)
          intro remaining
          rcases remaining with - | remaining
          · apply Discipline.Triple.bind (triple_free rfl)
            rintro ⟨ok, message⟩
            cases ok
            · exact Discipline.Triple.bind (triple_free rfl) fun _ => hdone _
            · exact Discipline.Triple.bind (triple_free rfl) fun _ => hdone _
          · exact hdone _

end Triples

theorem verified (cfg : SecurityConfig) (w : SecurityWorld) : (discipline cfg w).Verified := by
  intro t op
  apply Discipline.Triple.weaken (P := fun _ => True) _ fun _ _ => trivial
  cases op with
  | addUser username password role secret hash createdNs =>
      exact verified_addUser w.text password role secret hash createdNs
  | setPassword username password hash => exact verified_setPassword password hash
  | setRole username role => exact verified_setRole role
  | setDisabled username disabled => exact verified_setDisabled disabled
  | deleteUser username => exact verified_deleteUser
  | rotateTotp username secret => exact verified_rotateTotp secret
  | login username password userAgent clientIp tokenId =>
      exact verified_login password userAgent clientIp tokenId
  | verifyToken token now userAgent clientIp =>
      simp only [securityMachine, SecurityOp.program, Operations.verifyToken]
      split
      · exact Discipline.Triple.ret fun _ _ => trivial
      · exact Discipline.Triple.bind (triple_free rfl)
          fun _ => Discipline.Triple.ret fun _ _ => trivial
  | logout tokenId =>
      exact Discipline.Triple.bind (triple_free rfl)
        fun _ => Discipline.Triple.ret fun _ _ => trivial
  | purgeExpired =>
      exact Discipline.Triple.bind (triple_free rfl)
        fun _ => Discipline.Triple.ret fun _ _ => trivial
  | loginRate clientIp =>
      exact Discipline.Triple.bind (triple_free rfl)
        fun _ => Discipline.Triple.ret fun _ _ => trivial
  | readRate username perMinute =>
      exact Discipline.Triple.bind (triple_free rfl)
        fun _ => Discipline.Triple.ret fun _ _ => trivial
  | authoriseWrite username code requiresOwner => exact verified_authoriseWrite code requiresOwner

end Administration
end Sentinel
