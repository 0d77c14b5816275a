import Sentinel.Api.Operations

/-!
# Sessions and the authority they carry

A session is opened by a login and found again by its token.  Whatever happens
in between, a session that is returned was issued by a login from the same
client and has been in the table ever since, and it carries the role the account
has in the table at that moment.
-/

namespace Sentinel
namespace Sessions

/-! ## Where sessions come from -/

structure Same (a b : LoginSession) : Prop where
  tokenId : b.tokenId = a.tokenId
  username : b.username = a.username
  issuedNs : b.issuedNs = a.issuedNs
  expiresNs : b.expiresNs = a.expiresNs
  fingerprint : b.fingerprint = a.fingerprint

namespace Same

theorem refl (a : LoginSession) : Same a a := ⟨rfl, rfl, rfl, rfl, rfl⟩

theorem trans {a b c : LoginSession} (hab : Same a b) (hbc : Same b c) : Same a c :=
  ⟨hbc.tokenId.trans hab.tokenId, hbc.username.trans hab.username,
    hbc.issuedNs.trans hab.issuedNs, hbc.expiresNs.trans hab.expiresNs,
    hbc.fingerprint.trans hab.fingerprint⟩

end Same

def SessionsFrom (d d' : Dict String LoginSession) : Prop :=
  ∀ id session', d'.get? id = some session' →
    ∃ session, d.get? id = some session ∧ Same session session'

variable (d : Dict String LoginSession)

theorem SessionsFrom.refl : SessionsFrom d d :=
  fun _ session h => ⟨session, h, .refl session⟩

theorem SessionsFrom.trans {d₁ d₂ d₃ : Dict String LoginSession} (h₁₂ : SessionsFrom d₁ d₂)
    (h₂₃ : SessionsFrom d₂ d₃) : SessionsFrom d₁ d₃ := by
  intro id session₃ h₃
  obtain ⟨session₂, h₂, hsame₂⟩ := h₂₃ id session₃ h₃
  obtain ⟨session₁, h₁, hsame₁⟩ := h₁₂ id session₂ h₂
  exact ⟨session₁, h₁, hsame₁.trans hsame₂⟩

theorem sessionsFrom_erase (id : String) : SessionsFrom d (d.erase id) := by
  intro k session h
  rw [Dict.get?_erase] at h
  split at h
  · cases h
  · exact ⟨session, h, .refl session⟩

theorem sessionsFrom_keep (p : String → LoginSession → Bool) : SessionsFrom d (d.keep p) := by
  intro k session h
  rw [Dict.get?_keep, Option.filter_eq_some_iff] at h
  exact ⟨session, h.1, .refl session⟩

theorem sessionsFrom_failSecondFactor (cfg : SecurityConfig) (s : SecurityState)
    (username : String) (r : Reading) :
    SessionsFrom s.sessions (s.failSecondFactor cfg username r).sessions := by
  obtain ⟨f, l, k, hrecord⟩ := s.recordFailure_changes cfg (SecurityState.userKey username) r.mono
  obtain ⟨l₂, hlocked⟩ := SecurityState.lockedOut_changes
    (s.recordFailure cfg (SecurityState.userKey username) r.mono)
    (SecurityState.userKey username) r.mono
  rw [SecurityState.failSecondFactor]
  split
  · rename_i s₁ remaining heq
    rw [heq, hrecord] at hlocked
    dsimp only at hlocked
    subst hlocked
    exact sessionsFrom_keep _ _
  · rename_i s₁ heq
    rw [heq, hrecord] at hlocked
    dsimp only at hlocked
    subst hlocked
    exact .refl _

theorem verifySession_some {s : SecurityState} {tokenId fingerprint : String} {r : Reading}
    {session : LoginSession}
    (h : (s.verifySession tokenId fingerprint r).2 = some session) :
    ∃ stored user, s.sessions.get? tokenId = some stored ∧ r.wall ≤ stored.expiresNs ∧
      stored.fingerprint = fingerprint ∧ (s.reloadUser stored.username r).2 = some user ∧
      user.disabled = false ∧ session = { stored with role := user.role } := by
  rw [SecurityState.verifySession] at h
  split at h
  · cases h
  · rename_i stored hstored
    by_cases hexpired : r.wall > stored.expiresNs
    · rw [if_pos hexpired] at h
      cases h
    · rw [if_neg hexpired] at h
      by_cases hprint : stored.fingerprint ≠ fingerprint
      · rw [if_pos hprint] at h
        cases h
      · rw [if_neg hprint] at h
        split at h
        · cases h
        · rename_i s₁ user hreload
          by_cases hdisabled : user.disabled = true
          · rw [if_pos hdisabled] at h
            cases h
          · rw [if_neg hdisabled] at h
            refine ⟨stored, user, hstored, not_lt.mp hexpired, not_not.mp hprint, ?_,
              by simpa using hdisabled, (Option.some.inj h).symm⟩
            rw [hreload]

theorem sessionsFrom_verifySession (s : SecurityState) (tokenId fingerprint : String)
    (r : Reading) :
    SessionsFrom s.sessions (s.verifySession tokenId fingerprint r).1.sessions := by
  rw [SecurityState.verifySession]
  split
  · exact sessionsFrom_erase _ _
  · rename_i stored hstored
    split
    · exact sessionsFrom_erase _ _
    · split
      · exact .refl _
      · obtain ⟨u, hu⟩ := s.reloadUser_changes stored.username r
        split
        · rename_i s₁ heq
          rw [heq] at hu
          dsimp only at hu
          subst hu
          exact sessionsFrom_erase _ _
        · rename_i s₁ user heq
          rw [heq] at hu
          dsimp only at hu
          subst hu
          split
          · exact sessionsFrom_erase _ _
          · intro id session hget
            rw [Dict.get?_set] at hget
            split at hget
            · rename_i hid
              subst hid
              cases hget
              exact ⟨stored, hstored, rfl, rfl, rfl, rfl, rfl⟩
            · exact ⟨session, hget, .refl session⟩

def isCloseLogin : Section → Bool
  | .closeLogin .. => true
  | _ => false

theorem sessionsFrom_perform {cfg : SecurityConfig} {w : SecurityWorld} {t : ℕ} {a : Section}
    {e : Reading} {s s' : SecurityState} {b : a.Answer} (ha : isCloseLogin a = false)
    (h : (securityMachine cfg w).perform t a e s = some (s', b)) :
    SessionsFrom s.sessions s'.sessions := by
  have hmark : ∀ (s : SecurityState) (value : Bool), (s.mark t value).sessions = s.sessions := by
    intro s value
    rw [SecurityState.mark]
    split <;> rfl
  cases a
  case closeLogin => cases ha
  case load =>
    rcases perform_load h with ⟨-, rfl⟩ | ⟨-, rfl⟩
    · rw [hmark]
      exact .refl _
    · exact .refl _
  case upsert user =>
    rcases perform_upsert h with ⟨-, -, rfl⟩ | ⟨-, -, rfl⟩
    · rw [hmark]
      exact .refl _
    · exact .refl _
  case delete username =>
    rcases perform_delete h with ⟨-, rfl⟩ | ⟨-, rfl⟩
    · rw [hmark]
      exact .refl _
    · exact .refl _
  case acquire username =>
    obtain ⟨-, rfl⟩ := perform_acquire h
    exact .refl _
  case accounts =>
    obtain ⟨-, rfl⟩ := perform_accounts h
    rw [hmark]
    exact .refl _
  case openLogin username clientIp =>
    obtain ⟨u, l, hs⟩ := s.openLogin_changes cfg username clientIp e
    obtain rfl := performed hs h
    exact sessionsFrom_keep _ _
  case verifySession tokenId fingerprint =>
    have hfst : (s.verifySession tokenId fingerprint e).1 = s' :=
      congrArg Prod.fst (Option.some.inj h)
    rw [← hfst]
    exact sessionsFrom_verifySession s tokenId fingerprint e
  case reload username =>
    obtain ⟨u, hs⟩ := s.reloadUser_changes username e
    obtain rfl := performed hs h
    exact .refl _
  case checkRate key perMinute =>
    obtain ⟨table, hs⟩ := s.checkRate_changes key perMinute e.mono
    obtain rfl := performed hs h
    exact .refl _
  case lockedOut key =>
    obtain ⟨l, hs⟩ := s.lockedOut_changes key e.mono
    obtain rfl := performed hs h
    exact .refl _
  case verifyTotp username code =>
    rcases perform_verifyTotp h with ⟨-, -, rfl⟩ | ⟨-, rfl⟩ <;> exact .refl _
  case failSecondFactor username =>
    have hfst : s.failSecondFactor cfg username e = s' := congrArg Prod.fst (Option.some.inj h)
    rw [← hfst]
    exact sessionsFrom_failSecondFactor cfg s username e
  all_goals
    have hfst := congrArg Prod.fst (Option.some.inj h)
    dsimp only at hfst
    rw [← hfst]
  case logout tokenId => exact sessionsFrom_erase _ _
  case purgeExpired => exact sessionsFrom_keep _ _
  case rememberDisabled user => exact sessionsFrom_keep _ _
  case forget username => exact sessionsFrom_keep _ _
  case reenrol user => exact sessionsFrom_keep _ _
  all_goals exact .refl _

/-! ## Calls in sequence -/

abbrev SecurityCall : Type := SequenceMove Reading SecurityOp AccountChange

variable {cfg : SecurityConfig} {w : SecurityWorld}

variable (cfg) in
theorem closeLogin_cases (s : SecurityState) (username clientIp : String) (user : Option User)
    (ok : Bool) (tokenId fingerprint : String) (r : Reading) :
    ((s.closeLogin cfg username clientIp user ok tokenId fingerprint r).2 = none ∧
      (s.closeLogin cfg username clientIp user ok tokenId fingerprint r).1.sessions =
        s.sessions) ∨
    ∃ issued : LoginSession,
      (s.closeLogin cfg username clientIp user ok tokenId fingerprint r).2 = some issued ∧
      (s.closeLogin cfg username clientIp user ok tokenId fingerprint r).1.sessions =
        s.sessions.set tokenId issued ∧
      issued.tokenId = tokenId ∧ issued.username = username ∧
        issued.fingerprint = fingerprint := by
  obtain ⟨f₁, l₁, k₁, h₁⟩ := s.recordFailure_changes cfg (SecurityState.userKey username) r.mono
  obtain ⟨f₂, l₂, k₂, h₂⟩ := SecurityState.recordFailure_changes cfg
    { s with failures := f₁, lockouts := l₁, strikes := k₁ } (SecurityState.ipKey clientIp) r.mono
  rcases user with - | user
  · left
    simp only [SecurityState.closeLogin, h₁, h₂, and_self]
  · by_cases hok : (ok && !user.disabled) = true
    · right
      simp only [SecurityState.closeLogin, hok, if_true]
      exact ⟨_, rfl, rfl, rfl, rfl, rfl⟩
    · left
      simp only [SecurityState.closeLogin, hok, Bool.false_eq_true, if_false, h₁, h₂, and_self]

theorem login_sessions {username password userAgent clientIp tokenId : String}
    {es : List Reading} {s s' : SecurityState} {o : Outcome}
    (h : (securityMachine cfg w).alone 0
      (Operations.login w username password userAgent clientIp tokenId) es s = some (s', o)) :
    SessionsFrom s.sessions s'.sessions ∨
      ∃ (issued : LoginSession) (d : Dict String LoginSession), SessionsFrom s.sessions d ∧
        s'.sessions = d.set tokenId issued ∧ issued.tokenId = tokenId ∧
        issued.username = username ∧ issued.fingerprint = w.fingerprint userAgent clientIp ∧
        o = .token (some (w.encodeToken issued)) "ok" := by
  obtain ⟨e₁, es, s₁, b, rfl, hopen, h⟩ := Machine.alone_act h
  have hfrom := sessionsFrom_perform rfl hopen
  rcases b with remaining | user
  · obtain ⟨rfl, -⟩ := Machine.alone_ret h
    exact .inl hfrom
  · obtain ⟨e₂, es, s₂, b, rfl, hclose, h⟩ := Machine.alone_act h
    have hpair := Option.some.inj hclose
    have hfst := congrArg Prod.fst hpair
    have hsnd := congrArg Prod.snd hpair
    dsimp only at hfst hsnd
    rcases closeLogin_cases cfg s₁ username clientIp user
      (w.verifyPassword password ((user.map (·.passwordHash)).getD w.dummyHash)) tokenId
      (w.fingerprint userAgent clientIp) e₂ with ⟨hnone, hsame⟩ | ⟨issued, hsome, hset, hid⟩
    · rw [hsnd] at hnone
      rw [hfst] at hsame
      subst hnone
      obtain ⟨rfl, -⟩ := Machine.alone_ret h
      rw [hsame]
      exact .inl hfrom
    · rw [hsnd] at hsome
      rw [hfst] at hset
      subst hsome
      obtain ⟨rfl, ho⟩ := Machine.alone_ret h
      exact .inr ⟨issued, s₁.sessions, hfrom, hset, hid.1, hid.2.1, hid.2.2, ho⟩

def IssuedBy (cfg : SecurityConfig) (w : SecurityWorld) (s : SecurityState) (m : SecurityCall)
    (id : String) (session : LoginSession) : Prop :=
  ∃ username password userAgent clientIp es s' issued,
    m = .call (.login username password userAgent clientIp id) es ∧
    (securityMachine cfg w).alone 0
        (Operations.login w username password userAgent clientIp id) es s =
      some (s', .token (some (w.encodeToken issued)) "ok") ∧
    Same issued session ∧ session.tokenId = id ∧ session.username = username ∧
      session.fingerprint = w.fingerprint userAgent clientIp

def Issued (cfg : SecurityConfig) (w : SecurityWorld) (s : SecurityState)
    (ms : List SecurityCall) (id : String) (session : LoginSession) : Prop :=
  ∃ before m after, ms = before ++ m :: after ∧
    IssuedBy cfg w (before.foldl (securityMachine cfg w).inSequence s) m id session ∧
    ∀ pre post, after = pre ++ post → ∃ session',
      ((before ++ m :: pre).foldl (securityMachine cfg w).inSequence s).sessions.get? id =
        some session' ∧ Same session' session

theorem isCloseLogin_of_uses {op : SecurityOp} {a : Section} (ha : Uses cfg w op a)
    (hop : ∀ username password userAgent clientIp tokenId,
      op ≠ .login username password userAgent clientIp tokenId) : isCloseLogin a = false := by
  cases a
  case closeLogin username clientIp user ok tokenId fingerprint =>
    obtain ⟨password, userAgent, rfl, -⟩ := ha
    exact absurd rfl (hop _ _ _ _ _)
  all_goals rfl

theorem sessionsFrom_alone {op : SecurityOp} {es : List Reading} {s s' : SecurityState}
    {o : Outcome} (hop : ∀ username password userAgent clientIp tokenId,
      op ≠ .login username password userAgent clientIp tokenId)
    (h : (securityMachine cfg w).alone 0 (op.program cfg w) es s = some (s', o)) :
    SessionsFrom s.sessions s'.sessions := by
  obtain ⟨-, hfrom⟩ := Machine.alone_keeps (I := fun s' _ => SessionsFrom s.sessions s'.sessions)
    (fun a e es s₁ s₂ b ha hfrom hperform =>
      hfrom.trans (sessionsFrom_perform (isCloseLogin_of_uses ha hop) hperform))
    (program_uses cfg w op) (.refl _) h
  exact hfrom

theorem issued_step {s : SecurityState} {m : SecurityCall} {id : String} {session : LoginSession}
    (h : ((securityMachine cfg w).inSequence s m).sessions.get? id = some session) :
    (∃ before, s.sessions.get? id = some before ∧ Same before session) ∨
      IssuedBy cfg w s m id session := by
  rcases m with ⟨op, es⟩ | c
  · rw [Machine.inSequence] at h
    split at h
    · rename_i s' o halone
      by_cases hop : ∃ username password userAgent clientIp tokenId,
          op = .login username password userAgent clientIp tokenId
      · obtain ⟨username, password, userAgent, clientIp, tokenId, rfl⟩ := hop
        rcases login_sessions halone with hfrom |
          ⟨issued, d, hfrom, hset, hid, hname, hprint, rfl⟩
        · exact .inl (hfrom id session h)
        · rw [hset, Dict.get?_set] at h
          split at h
          · rename_i hkey
            subst hkey
            cases h
            exact .inr ⟨username, password, userAgent, clientIp, es, s', _, rfl, halone,
              .refl _, hid, hname, hprint⟩
          · exact .inl (hfrom id session h)
      · left
        apply sessionsFrom_alone _ halone id session h
        intro username password userAgent clientIp tokenId heq
        exact hop ⟨username, password, userAgent, clientIp, tokenId, heq⟩
    · exact .inl ⟨session, h, .refl session⟩
  · exact .inl ⟨session, h, .refl session⟩

theorem issued_of_get? {store : Accounts} (ms : List SecurityCall) {id : String}
    {session : LoginSession}
    (h : (ms.foldl (securityMachine cfg w).inSequence (SecurityState.start store)).sessions.get?
      id = some session) :
    Issued cfg w (SecurityState.start store) ms id session := by
  induction ms using List.reverseRecOn generalizing session with
  | nil => cases h
  | append_singleton ms m ih =>
      rw [List.foldl_append] at h
      rcases issued_step h with ⟨old, hold, hsame⟩ | hissued
      · obtain ⟨before, m₀, after, rfl, ⟨username, password, userAgent, clientIp, es, s', issued,
          hm, halone, hissued, hid, hname, hprint⟩, hkept⟩ := ih hold
        refine ⟨before, m₀, after ++ [m], by simp, ⟨username, password, userAgent, clientIp, es,
          s', issued, hm, halone, hissued.trans hsame, hsame.tokenId.trans hid,
          hsame.username.trans hname, hsame.fingerprint.trans hprint⟩, ?_⟩
        intro pre post hsplit
        rcases List.eq_nil_or_concat post with rfl | ⟨post, last, rfl⟩
        · rw [List.append_nil] at hsplit
          subst hsplit
          refine ⟨session, ?_, .refl session⟩
          have hlist : before ++ m₀ :: (after ++ [m]) = (before ++ m₀ :: after) ++ [m] := by simp
          rw [hlist, List.foldl_append]
          exact h
        · have hafter : after = pre ++ post := by
            rw [List.concat_eq_append, ← List.append_assoc] at hsplit
            exact (List.append_inj' hsplit rfl).1
          obtain ⟨session', hget, hsame'⟩ := hkept pre post hafter
          exact ⟨session', hget, hsame'.trans hsame⟩
      · refine ⟨ms, m, [], rfl, hissued, ?_⟩
        intro pre post hsplit
        obtain ⟨rfl, -⟩ := List.append_eq_nil_iff.mp hsplit.symm
        refine ⟨session, ?_, .refl session⟩
        rw [List.foldl_append]
        exact h

/-! ## What a request is answered on -/

theorem reloadUser_ok {s : SecurityState} {username : String} {r : Reading}
    (hr : r.storeOk = true) : (s.reloadUser username r).2 = s.store.get? username := by
  rw [SecurityState.reloadUser, if_pos hr]
  split
  · rename_i fresh hget
    exact hget.symm
  · rename_i hget
    exact hget.symm

theorem verifyToken_session {s s' : SecurityState} {token userAgent clientIp : String} {now : ℤ}
    {es : List Reading} {session : LoginSession} (hes : ∀ e ∈ es, e.storeOk = true)
    (h : (securityMachine cfg w).alone 0 (Operations.verifyToken w token now userAgent clientIp)
      es s = some (s', .session (some session))) :
    ∃ id stored user e, w.decodeToken now token = some id ∧ e ∈ es ∧
      s.sessions.get? id = some stored ∧ Same stored session ∧
      e.wall ≤ session.expiresNs ∧ session.fingerprint = w.fingerprint userAgent clientIp ∧
      s.store.get? session.username = some user ∧ user.disabled = false ∧
      session.role = user.role := by
  rw [Operations.verifyToken] at h
  split at h
  · cases h
  · rename_i id hdecode
    obtain ⟨e, es, s₁, b, rfl, hverify, h⟩ := Machine.alone_act h
    obtain ⟨-, hb⟩ := Machine.alone_ret h
    rw [Outcome.session.injEq] at hb
    have hsnd : (s.verifySession id (w.fingerprint userAgent clientIp) e).2 = b :=
      congrArg Prod.snd (Option.some.inj hverify)
    rw [← hb] at hsnd
    obtain ⟨stored, user, hget, hfresh, hprint, hreload, henabled, rfl⟩ :=
      verifySession_some hsnd
    rw [reloadUser_ok (hes e List.mem_cons_self)] at hreload
    exact ⟨id, stored, user, e, hdecode, List.mem_cons_self, hget, ⟨rfl, rfl, rfl, rfl, rfl⟩,
      hfresh, hprint, hreload, henabled, rfl⟩

theorem authoriseWrite_authority {s s' : SecurityState} {username code message : String}
    {requiresOwner : Bool} {es : List Reading} (hes : ∀ e ∈ es, e.storeOk = true)
    (h : (securityMachine cfg w).alone 0
      (Operations.authoriseWrite cfg username code requiresOwner) es s =
        some (s', .verdict true message)) :
    ∃ user e, s.store.get? username = some user ∧ user.canWrite = true ∧
      (requiresOwner = true → user.canChangeRisk = true) ∧ e ∈ es ∧
      (s.lockedOut (SecurityState.userKey username) e.mono).2 = none := by
  obtain ⟨e₁, es, s₁, user, rfl, hreload, h⟩ := Machine.alone_act h
  have hfst : (s.reloadUser username e₁).1 = s₁ := congrArg Prod.fst (Option.some.inj hreload)
  have hsnd : (s.reloadUser username e₁).2 = user := congrArg Prod.snd (Option.some.inj hreload)
  rw [reloadUser_ok (hes e₁ List.mem_cons_self)] at hsnd
  obtain ⟨u, hu⟩ := s.reloadUser_changes username e₁
  rcases user with - | user
  · cases (Machine.alone_ret h).2
  · simp only [Prog.bind] at h
    by_cases hwrite : user.canWrite = true
    · rw [if_neg (by simp [hwrite])] at h
      by_cases howner : (requiresOwner && !user.canChangeRisk) = true
      · rw [if_pos howner] at h
        cases (Machine.alone_ret h).2
      · rw [if_neg howner] at h
        obtain ⟨e₂, es, s₂, b, rfl, hrate, h⟩ := Machine.alone_act h
        have hfst₂ : (s₁.checkRate (Operations.writeKey username) cfg.writeRatePerMinute
          e₂.mono).1 = s₂ := congrArg Prod.fst (Option.some.inj hrate)
        obtain ⟨table, ht⟩ :=
          s₁.checkRate_changes (Operations.writeKey username) cfg.writeRatePerMinute e₂.mono
        cases b
        · cases (Machine.alone_ret h).2
        · obtain ⟨e₃, es, s₃, remaining, rfl, hlocked, h⟩ := Machine.alone_act h
          have hsnd₃ : (s₂.lockedOut (SecurityState.userKey username) e₃.mono).2 = remaining :=
            congrArg Prod.snd (Option.some.inj hlocked)
          rcases remaining with - | remaining
          · refine ⟨user, e₃, hsnd, hwrite, ?_, by simp, ?_⟩
            · intro hrequires
              simpa [hrequires] using howner
            · rw [← hsnd₃]
              apply Eq.symm
              apply SecurityState.lockedOut_congr
              rw [← hfst₂, ht, ← hfst, hu]
          · cases (Machine.alone_ret h).2
    · rw [if_pos (by simp [hwrite])] at h
      cases (Machine.alone_ret h).2

end Sessions
end Sentinel
