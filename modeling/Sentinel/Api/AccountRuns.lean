import Sentinel.Api.Administration

/-!
# Password resets and rotations of the second factor

Both read a record from memory and write it back whole.  What they change in the
account table beyond their own field is what has changed in between, and an
enabled owner may be lost on the way.
-/

namespace Sentinel
namespace Administration

/-! ## Narrow writes -/

def NarrowWrite (op : SecurityOp) (a : Section) (s s' : SecurityState) : Prop :=
  match op, a with
  | .setPassword username _ hash, .upsert _ =>
      s'.store = s.store ∨ ∃ cur, s.store.get? username = some cur ∧
        s'.store = s.store.put { cur with passwordHash := hash }
  | .rotateTotp username secret, .upsert _ =>
      s'.store = s.store ∨ ∃ cur, s.store.get? username = some cur ∧
        s'.store = s.store.put { cur with totpSecret := secret }
  | _, _ => True

theorem upsert_eq_of_password {a : Accounts} {user cur : User}
    (hget : a.get? user.username = some cur) (htotp : user.totpSecret = cur.totpSecret)
    (hrole : user.role = cur.role) (hdisabled : user.disabled = cur.disabled) :
    a.upsert user = a.put { cur with passwordHash := user.passwordHash } := by
  have hname := Accounts.username_of_get? hget
  simp only [Accounts.upsert, hget, Option.map_some, Option.getD_some]
  rw [htotp, hrole, hdisabled, ← hname]

theorem upsert_eq_of_secret {a : Accounts} {user cur : User}
    (hget : a.get? user.username = some cur) (hhash : user.passwordHash = cur.passwordHash)
    (hrole : user.role = cur.role) (hdisabled : user.disabled = cur.disabled) :
    a.upsert user = a.put { cur with totpSecret := user.totpSecret } := by
  have hname := Accounts.username_of_get? hget
  simp only [Accounts.upsert, hget, Option.map_some, Option.getD_some]
  rw [hhash, hrole, hdisabled, ← hname]

theorem narrowWrite_of_ne {op : SecurityOp} {a : Section} (ha : ∀ user, a ≠ .upsert user)
    (s s' : SecurityState) : NarrowWrite op a s s' := by
  cases a
  case upsert user => exact absurd rfl (ha user)
  all_goals cases op <;> trivial

/-! ## A record between its reading and its writing -/

def rewritten : SecurityOp → Option String
  | .setPassword username _ _ | .rotateTotp username _ => some username
  | _ => none

def revise : SecurityOp → User → User
  | .setPassword _ _ hash, user => { user with passwordHash := hash }
  | .rotateTotp _ secret, user => { user with totpSecret := secret }
  | _, user => user

def Current (a : Accounts) (op : SecurityOp) (user : User) : Prop :=
  rewritten op = some user.username ∧ a.get? user.username = some user

def NoUpsert : SecurityProg Outcome → Prop := Prog.All fun a => ∀ user, a ≠ .upsert user

def HasRead (a : Accounts) (op : SecurityOp) (rest : SecurityProg Outcome) : Prop :=
  NoUpsert rest ∨ ∃ user k, rest = .act (.upsert (revise op user)) k ∧
    (∀ b, NoUpsert (k b)) ∧ Current a op user

theorem Current.congr {a b : Accounts} {op : SecurityOp} {user : User} (h : Current a op user)
    (hsame : ∀ name ∈ rewritten op, b.get? name = a.get? name) : Current b op user :=
  ⟨h.1, (hsame _ h.1).trans h.2⟩

theorem HasRead.congr {a b : Accounts} {op : SecurityOp} {rest : SecurityProg Outcome}
    (h : HasRead a op rest)
    (hsame : (∃ user k, rest = .act (.upsert user) k) →
      ∀ name ∈ rewritten op, b.get? name = a.get? name) : HasRead b op rest := by
  rcases h with hnone | ⟨user, k, rfl, hk, hcurrent⟩
  · exact .inl hnone
  · exact .inr ⟨user, k, rfl, hk, hcurrent.congr (hsame ⟨_, _, rfl⟩)⟩

theorem code_rewrite (cfg : SecurityConfig) (w : SecurityWorld) {op : SecurityOp}
    {name : String} (h : rewritten op = some name) :
    ∃ k, op.program cfg w = .act (.cached name) k ∧
      ∀ a b, (∀ user ∈ b, Current a op user) → HasRead a op (k b) := by
  cases op
  case setPassword username password hash =>
    obtain rfl := Option.some.inj h
    refine ⟨_, rfl, fun a b hb => ?_⟩
    cases b with
    | none => exact .inl trivial
    | some user =>
        cases w.text.checkPasswordPolicy password username with
        | some policy => exact .inl trivial
        | none =>
            right
            refine ⟨user, _, rfl, ?_, hb user rfl⟩
            intro b
            cases b
            · trivial
            · exact ⟨by simp, fun _ => trivial⟩
  case rotateTotp username secret =>
    obtain rfl := Option.some.inj h
    refine ⟨_, rfl, fun a b hb => ?_⟩
    cases b with
    | none => exact .inl trivial
    | some user =>
        refine .inr ⟨user, _, rfl, ?_, hb user rfl⟩
        intro b
        cases b
        · trivial
        · exact ⟨by simp, fun _ => trivial⟩
  all_goals cases h

theorem Current.fresh {s : SecurityState} {op : SecurityOp} {user : User}
    (h : Current s.store op user) (e : Reading) :
    FreshRewrite s op (.upsert (revise op user)) e := by
  obtain ⟨hname, hget⟩ := h
  cases op
  case setPassword username password hash => exact fun _ => ⟨user, hget, rfl, rfl, rfl⟩
  case rotateTotp username secret => exact fun _ => ⟨user, hget, rfl, rfl, rfl⟩
  all_goals cases hname

theorem Current.narrow {s s' : SecurityState} {op : SecurityOp} {user : User}
    (h : Current s.store op user) (hstore : s'.store = s.store.upsert (revise op user)) :
    NarrowWrite op (.upsert (revise op user)) s s' := by
  obtain ⟨hname, hget⟩ := h
  cases op
  case setPassword username password hash =>
    obtain rfl := Option.some.inj hname
    have hrevised := @upsert_eq_of_password s.store { user with passwordHash := hash } user hget
      rfl rfl rfl
    exact .inr ⟨user, hget, hstore.trans hrevised⟩
  case rotateTotp username secret =>
    obtain rfl := Option.some.inj hname
    have hrevised := @upsert_eq_of_secret s.store { user with totpSecret := secret } user hget
      rfl rfl rfl
    exact .inr ⟨user, hget, hstore.trans hrevised⟩
  all_goals cases hname

/-! ## Runs -/

abbrev SecurityPool : Type := Pool SecurityState SecurityOp Outcome Section.Answer

abbrev SecurityMove : Type := PoolMove Reading SecurityOp AccountChange

variable (cfg : SecurityConfig) (w : SecurityWorld) (p : SecurityPool) (m : SecurityMove)

def rewriting (p : SecurityPool) (t : ℕ) : Bool :=
  match p.calls t with
  | some ⟨op, .act (.upsert _) _⟩ => (rewritten op).isSome
  | _ => false

def KeepsOwner : Prop :=
  HasOwner p.shared.store → HasOwner ((securityMachine cfg w).step p m).shared.store

def WritesNarrowly : Prop :=
  match m with
  | .step t _ =>
      match p.calls t with
      | some ⟨op, .act a _⟩ => NarrowWrite op a p.shared ((securityMachine cfg w).step p m).shared
      | _ => True
  | _ => True

def Pending (p : SecurityPool) (t : ℕ) (name : String) : Prop :=
  ∃ op user k, p.calls t = some ⟨op, .act (.upsert user) k⟩ ∧ rewritten op = some name

def writes : Section → Option String
  | .upsert user => some user.username
  | .delete name => some name
  | _ => none

def AccountChange.account : AccountChange → String
  | .write user => user.username
  | .delete name => name

def LeavesRewrites (p : SecurityPool) : SecurityMove → Prop
  | .start _ _ => True
  | .step t _ =>
      match p.calls t with
      | some ⟨op, .act a _⟩ =>
          (∀ name ∈ writes a, ∀ u, u ≠ t → ¬Pending p u name) ∧
            ∀ name ∈ rewritten op, a = .cached name →
              ∀ user ∈ p.shared.users.get? name, p.shared.store.get? name = some user
      | _ => True
  | .outside c => ∀ u, ¬Pending p u (AccountChange.account c)

def OwnersSeen (p : SecurityPool) : SecurityMove → Prop
  | .start _ _ => True
  | .step t _ =>
      match p.calls t with
      | some ⟨_, .act a _⟩ => ReadsOwners p.shared a
      | _ => True
  | .outside c => LeavesOwners p.shared c

def RewritesCurrent : Prop :=
  ∀ t op rest, p.calls t = some ⟨op, rest⟩ → (rewritten op).isSome →
    rest = op.program cfg w ∨ HasRead p.shared.store op rest

variable {cfg w p}

theorem get?_store_perform {t : ℕ} {a : Section} {e : Reading} {s s' : SecurityState}
    {b : a.Answer} (h : (securityMachine cfg w).perform t a e s = some (s', b)) {name : String}
    (hname : name ∉ writes a) : s'.store.get? name = s.store.get? name := by
  cases a
  case load =>
    rcases perform_load h with ⟨-, rfl⟩ | ⟨-, rfl⟩
    · rw [store_mark]
    · rfl
  case upsert user =>
    rcases perform_upsert h with ⟨-, -, rfl⟩ | ⟨-, -, rfl⟩
    · rw [store_mark, Accounts.get?_upsert, if_neg]
      rintro rfl
      exact hname rfl
    · rfl
  case delete username =>
    rcases perform_delete h with ⟨-, rfl⟩ | ⟨-, rfl⟩
    · rw [store_mark, Accounts.get?_delete, if_neg]
      rintro rfl
      exact hname rfl
    · rfl
  case acquire username =>
    obtain ⟨-, rfl⟩ := perform_acquire h
    rfl
  case release =>
    obtain rfl := perform_release h
    rfl
  case accounts =>
    obtain ⟨-, rfl⟩ := perform_accounts h
    rw [store_mark]
  all_goals rw [(sameAdmin_perform rfl h).store]

theorem hasRead_of_pending {t : ℕ} {op : SecurityOp} {user : User}
    {k : Bool → SecurityProg Outcome} (hp : RewritesCurrent cfg w p)
    (hcall : p.calls t = some ⟨op, .act (.upsert user) k⟩) (hop : (rewritten op).isSome) :
    ∃ old, user = revise op old ∧ Current p.shared.store op old := by
  rcases hp t op _ hcall hop with hcode | hnone | ⟨old, k', hrest, -, hcurrent⟩
  · obtain ⟨name, hname⟩ := Option.isSome_iff_exists.1 hop
    obtain ⟨k', hprogram, -⟩ := code_rewrite cfg w hname
    rw [hprogram] at hcode
    cases hcode
  · exact absurd rfl (hnone.1 user)
  · cases hrest
    exact ⟨old, rfl, hcurrent⟩

theorem get?_store_outside {a : Accounts} {c : AccountChange} {name : String}
    (hname : name ≠ AccountChange.account c) : (c.apply a).get? name = a.get? name := by
  cases c with
  | write user => exact (Accounts.get?_upsert _ _ _).trans (if_neg hname)
  | delete username => exact (Accounts.get?_delete _ _ _).trans (if_neg hname)

theorem RewritesCurrent.own (hp : RewritesCurrent cfg w p) {t : ℕ} {op : SecurityOp}
    {a : Section} {k : a.Answer → SecurityProg Outcome} {e : Reading} {s : SecurityState}
    {b : a.Answer} (hcall : p.calls t = some ⟨op, .act a k⟩)
    (hread : ∀ name ∈ rewritten op, a = .cached name →
      ∀ user ∈ p.shared.users.get? name, p.shared.store.get? name = some user)
    (hperform : (securityMachine cfg w).perform t a e p.shared = some (s, b))
    (hop : (rewritten op).isSome) : HasRead s.store op (k b) := by
  rcases hp t op _ hcall hop with hcode | hnone | ⟨user, k', hrest, hk, -⟩
  · obtain ⟨name, hname⟩ := Option.isSome_iff_exists.1 hop
    obtain ⟨k', hprogram, hnext⟩ := code_rewrite cfg w hname
    rw [hprogram] at hcode
    cases hcode
    obtain ⟨rfl, rfl⟩ := perform_cached hperform
    refine hnext _ _ fun user huser => ?_
    have hstored := hread name hname rfl user huser
    have huserName := Accounts.username_of_get? hstored
    rw [← huserName] at hname hstored
    exact ⟨hname, hstored⟩
  · exact .inl (hnone.2 b)
  · cases hrest
    exact .inl (hk b)

theorem RewritesCurrent.step (hp : RewritesCurrent cfg w p) {m : SecurityMove}
    (hm : LeavesRewrites p m) : RewritesCurrent cfg w ((securityMachine cfg w).step p m) := by
  rcases m with ⟨t, op⟩ | ⟨t, e⟩ | c
  · rw [Machine.step]
    split
    · intro u op' rest hcall hop
      by_cases hu : u = t
      · simp only [hu, Function.update_self, Option.some.injEq, OpenCall.mk.injEq] at hcall
        obtain ⟨rfl, rfl⟩ := hcall
        exact .inl rfl
      · simp only [Function.update_of_ne hu] at hcall
        exact hp u op' rest hcall hop
    · exact hp
  · rw [Machine.step]
    split
    · rename_i op a k hcall
      simp only [LeavesRewrites, hcall] at hm
      split
      · rename_i s b hperform
        intro u op' rest hcall' hop
        by_cases hu : u = t
        · simp only [hu, Function.update_self, Option.some.injEq, OpenCall.mk.injEq] at hcall'
          obtain ⟨rfl, rfl⟩ := hcall'
          exact .inr (hp.own hcall hm.2 hperform hop)
        · simp only [Function.update_of_ne hu] at hcall'
          refine (hp u op' rest hcall' hop).imp_right fun hread => hread.congr ?_
          rintro ⟨user, k', rfl⟩ name hname
          exact get?_store_perform hperform fun hwrites =>
            hm.1 name hwrites u hu ⟨op', user, k', hcall', hname⟩
      · exact hp
    · exact hp
  · intro u op rest hcall hop
    refine (hp u op rest hcall hop).imp_right fun hread => hread.congr ?_
    rintro ⟨user, k, rfl⟩ name hname
    refine get?_store_outside ?_
    rintro rfl
    exact hm u ⟨op, user, k, hcall, hname⟩

theorem meets_of_seen (hp : RewritesCurrent cfg w p) {m : SecurityMove}
    (hm : OwnersSeen p m) : (discipline cfg w).Meets p m := by
  rcases m with ⟨t, op⟩ | ⟨t, e⟩ | c
  · trivial
  · rw [Discipline.Meets]
    rw [OwnersSeen] at hm
    rcases hcall : p.calls t with - | ⟨op, r | ⟨a, k⟩⟩
    · trivial
    · trivial
    · rw [hcall] at hm
      refine ⟨?_, hm⟩
      by_cases hop : (rewritten op).isSome
      · cases a
        case upsert user =>
          obtain ⟨old, rfl, hcurrent⟩ := hasRead_of_pending hp hcall hop
          exact hcurrent.fresh e
        all_goals cases op <;> trivial
      · cases op
        case setPassword | rotateTotp => exact absurd rfl hop
        all_goals trivial
  · exact hm

theorem writesNarrowly_of_current (hp : RewritesCurrent cfg w p) (m : SecurityMove) :
    WritesNarrowly cfg w p m := by
  rcases m with ⟨t, op⟩ | ⟨t, e⟩ | c
  · trivial
  · rw [WritesNarrowly]
    rcases hcall : p.calls t with - | ⟨op, r | ⟨a, k⟩⟩
    · trivial
    · trivial
    · dsimp only
      by_cases hop : (rewritten op).isSome
      · cases a
        case upsert user =>
          obtain ⟨old, rfl, hcurrent⟩ := hasRead_of_pending hp hcall hop
          have hperform : ∃ s b, (securityMachine cfg w).perform t (.upsert (revise op old)) e
              p.shared = some (s, b) := by
            simp only [securityMachine, performSection]
            split
            · exact ⟨_, _, rfl⟩
            · exact ⟨_, _, rfl⟩
          obtain ⟨s, b, hperform⟩ := hperform
          have hshared : ((securityMachine cfg w).step p (.step t e)).shared = s := by
            simp only [Machine.step, hcall, hperform]
          rw [hshared]
          rcases perform_upsert hperform with ⟨-, -, rfl⟩ | ⟨-, -, rfl⟩
          · exact hcurrent.narrow (store_mark _ _)
          · obtain ⟨hname, -⟩ := hcurrent
            cases op
            case setPassword | rotateTotp => exact .inl rfl
            all_goals cases hname
        all_goals exact narrowWrite_of_ne (by simp) _ _
      · cases op
        case setPassword | rotateTotp => exact absurd rfl hop
        all_goals trivial
  · trivial

theorem keepsOwner_of_meets (hp : (discipline cfg w).Sound p)
    {m : SecurityMove} (hm : (discipline cfg w).Meets p m) : KeepsOwner cfg w p m := by
  intro howner
  rcases (securityMachine cfg w).shared_step p m with
    hsame | ⟨t, e, op, a, k, s, b, rfl, hcall, hperform, hs⟩ | ⟨c, rfl, hs⟩
  · rw [hsame]
    exact howner
  · rw [hs]
    rw [Discipline.Meets, hcall] at hm
    exact hp.effect hcall hm hperform howner
  · rw [hs]
    exact hm.1 howner

theorem standing_of_narrow {op : SecurityOp} {user : User} {s s' : SecurityState}
    (hop : (rewritten op).isSome) (h : NarrowWrite op (.upsert user) s s') (name : String) :
    (s'.store.get? name).map (fun u => (u.role, u.disabled)) =
      (s.store.get? name).map fun u => (u.role, u.disabled) := by
  have hput : ∀ (f : User → User), (∀ u, (f u).username = u.username) →
      (∀ u, (f u).role = u.role ∧ (f u).disabled = u.disabled) → ∀ account cur,
      s.store.get? account = some cur → s'.store = s.store.put (f cur) →
      (s'.store.get? name).map (fun u => (u.role, u.disabled)) =
        (s.store.get? name).map fun u => (u.role, u.disabled) := by
    intro f hname hstanding account cur hcur hstore
    rw [hstore, Accounts.get?_put, hname, Accounts.username_of_get? hcur]
    by_cases hn : name = account
    · subst hn
      rw [if_pos rfl, hcur, Option.map_some, Option.map_some, (hstanding cur).1,
        (hstanding cur).2]
    · rw [if_neg hn]
  cases op
  case setPassword username password hash =>
    rcases h with h | ⟨cur, hcur, h⟩
    · rw [h]
    · exact hput (fun u => { u with passwordHash := hash }) (fun _ => rfl) (fun _ => ⟨rfl, rfl⟩)
        username cur hcur h
  case rotateTotp username secret =>
    rcases h with h | ⟨cur, hcur, h⟩
    · rw [h]
    · exact hput (fun u => { u with totpSecret := secret }) (fun _ => rfl) (fun _ => ⟨rfl, rfl⟩)
        username cur hcur h
  all_goals cases hop

theorem standing_of_writesNarrowly {t : ℕ} {e : Reading}
    (hp : rewriting p t = true) (h : WritesNarrowly cfg w p (.step t e)) (name : String) :
    (((securityMachine cfg w).step p (.step t e)).shared.store.get? name).map
        (fun u => (u.role, u.disabled)) =
      (p.shared.store.get? name).map fun u => (u.role, u.disabled) := by
  rw [rewriting] at hp
  split at hp
  · rename_i op user k hcall
    simp only [WritesNarrowly, hcall] at h
    exact standing_of_narrow hp h name
  · cases hp

instance (a : Accounts) : Decidable (HasOwner a) :=
  decidable_of_iff (∃ kv ∈ a.table.items, kv.2.canChangeRisk = true) (by
    simp only [HasOwner, Accounts.EnabledOwner, Accounts.get?, Prod.exists,
      ← Dict.mem_items_iff])

def plainText : TextOps where
  lower text := text
  isAlnum := Char.isAlphanum
  isAlpha := Char.isAlpha

def plainWorld : SecurityWorld where
  text := plainText
  verifyPassword password hash := password == hash
  dummyHash := ""
  fingerprint userAgent clientIp := userAgent ++ "|" ++ clientIp
  acceptsTotp _ _ code := code == "123456"
  encodeToken session := session.tokenId
  decodeToken _ token := some token

def plainConfig : SecurityConfig where
  sessionTtl := 1800
  maxLoginAttempts := 5
  lockoutSec := 900
  writeRatePerMinute := 10

def twoAccounts : Accounts :=
  (Accounts.empty.put ⟨"alice", "hash", "secret", .owner, 0, false⟩).put
    ⟨"bob", "hash", "secret", .viewer, 0, false⟩

def quietReading : Reading := ⟨0, 0, true⟩

def crossing : List SecurityMove :=
  [.start 0 (.rotateTotp "bob" "new secret"),
    .start 1 (.setPassword "alice" "correct horse battery" "new hash"), .step 0 quietReading,
    .step 1 quietReading, .step 0 quietReading, .step 1 quietReading]

def overlappingReset : List SecurityMove :=
  [.start 0 (.setPassword "bob" "correct horse battery" "new hash"), .step 0 quietReading,
    .start 1 (.setRole "bob" "owner")] ++ List.replicate 6 (.step 1 quietReading) ++
    [.start 1 (.setRole "alice" "viewer")] ++ List.replicate 8 (.step 1 quietReading)

def CallMove : SecurityMove → Prop
  | .start _ _ => True
  | .step _ e => e.storeOk = true
  | .outside _ => False

end Administration
end Sentinel
