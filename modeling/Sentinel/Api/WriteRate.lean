import Mathlib.Data.List.Chain
import Sentinel.Api.SecondFactor
import Sentinel.Api.Sessions
import Sentinel.Brokers.ClosedTrades
import Sentinel.Support.SlidingWindow

/-!
# How often an account may write

Every write, and every attempt that gets as far as the second factor, is counted
under the account's own key, in a window that slides over the last minute.  The
tables are pruned when someone logs in: keys that have been silent for long are
dropped, and so are the oldest keys beyond a fixed number.
-/

namespace Sentinel
namespace WriteRate

open SlidingWindow Sessions SecondFactor

/-- What the limiter has let pass: the last reading of the clock, and the keys
and times, oldest first. -/
abbrev Passed : Type := ℚ × List (String × ℚ)

def note : (a : Section) → Reading → a.Answer → Passed → Passed
  | .checkRate key _, e, true, c => (e.mono, c.2 ++ [(key, e.mono)])
  | _, e, _, c => (e.mono, c.2)

/-- The manager with what its limiter has let pass. -/
abbrev countedMachine (cfg : SecurityConfig) (w : SecurityWorld) :
    Machine (SecurityState × Passed) Reading SecurityOp AccountChange Outcome Section.Answer :=
  (securityMachine cfg w).recorded note

def writesOf (username : String) (passed : List (String × ℚ)) : List ℚ :=
  (passed.filter fun p => p.1 = Operations.writeKey username).map Prod.snd

theorem writeKey_ne_login (u clientIp : String) : Operations.writeKey u ≠ "login:" ++ clientIp := by
  intro h
  have hlist := congrArg String.toList h
  simp [Operations.writeKey] at hlist

theorem writeKey_ne_read (u v : String) : Operations.writeKey u ≠ "read:" ++ v := by
  intro h
  have hlist := congrArg String.toList h
  simp [Operations.writeKey] at hlist

def RateInv (cfg : SecurityConfig) (s : SecurityState × Passed) : Prop :=
  ∀ username, Keeps 60 s.2.1 cfg.writeRatePerMinute
    (s.1.rate.getD (Operations.writeKey username) []) (writesOf username s.2.2)

variable {cfg : SecurityConfig} {w : SecurityWorld}

theorem getD_set (d : Dict String (List ℚ)) (k k' : String) (v : List ℚ) :
    (d.set k v).getD k' [] = if k' = k then v else d.getD k' [] := by
  simp only [Dict.getD, Dict.get?_set]
  split <;> rfl

theorem writesOf_append (username key : String) (t : ℚ) (passed : List (String × ℚ)) :
    writesOf username (passed ++ [(key, t)]) =
      if key = Operations.writeKey username then writesOf username passed ++ [t]
      else writesOf username passed := by
  by_cases hkey : key = Operations.writeKey username
  · simp [writesOf, hkey]
  · simp [writesOf, hkey]

theorem rateInv_checkRate {s : SecurityState × Passed} {e : Reading} {key : String}
    {perMinute : ℤ} (h : RateInv cfg s) (hclock : s.2.1 ≤ e.mono)
    (hkey : (∃ username, key = Operations.writeKey username ∧
        perMinute = cfg.writeRatePerMinute) ∨
      ∀ username, key ≠ Operations.writeKey username) :
    RateInv cfg ((s.1.checkRate key perMinute e.mono).1,
      note (.checkRate key perMinute) e (s.1.checkRate key perMinute e.mono).2 s.2) := by
  intro username
  have hlater := (h username).later hclock
  have hlive : ∀ d : List ℚ, d.filter (fun t => e.mono - t < 60) = live 60 e.mono d :=
    fun _ => rfl
  by_cases hname : Operations.writeKey username = key
  · subst hname
    have hlimit : perMinute = cfg.writeRatePerMinute := by
      rcases hkey with ⟨name, -, hlimit⟩ | hother
      · exact hlimit
      · exact absurd rfl (hother username)
    subst hlimit
    simp only [SecurityState.checkRate, hlive]
    by_cases hfull : ((live 60 e.mono (s.1.rate.getD (Operations.writeKey username) [])).length : ℤ)
        ≥ cfg.writeRatePerMinute
    · rw [if_pos hfull]
      simp only [note, getD_set, if_true]
      exact hlater.replace (live_idem _)
    · rw [if_neg hfull]
      simp only [note, getD_set, writesOf_append, if_true]
      exact hlater.pass (lt_of_not_ge hfull)
  · have hother : key ≠ Operations.writeKey username := fun heq => hname heq.symm
    simp only [SecurityState.checkRate]
    split
    · simp only [note, getD_set, hname, if_false]
      exact hlater
    · simp only [note, getD_set, hname, if_false, writesOf_append, hother]
      exact hlater

theorem le_latest {v : List ℚ} {t : ℚ} (ht : t ∈ v) : t ≤ SecurityState.latest v := by
  obtain ⟨m, hm⟩ := Option.isSome_iff_exists.mp
    (List.isSome_max?_of_mem ht)
  rw [SecurityState.latest, hm]
  exact (List.max?_eq_some_iff.mp hm).2 t ht

variable (cfg) in
theorem live_recentTimes {now : ℚ} (table : Dict String (List ℚ)) (key : String) :
    live 60 now ((SecurityState.recentTimes cfg now table).getD key []) =
      live 60 now (table.getD key []) := by
  simp only [Dict.getD, SecurityState.recentTimes, Dict.get?_keep]
  rcases hget : table.get? key with - | v
  · rfl
  · rw [Option.filter_some]
    split
    · rfl
    · rename_i hdropped
      simp only [Option.getD_none, Option.getD_some]
      rw [live, live, List.filter_nil, eq_comm, List.filter_eq_nil_iff]
      intro t ht
      have hnonempty : v.isEmpty = false := by
        rw [List.isEmpty_eq_false_iff]
        exact List.ne_nil_of_mem ht
      simp only [hnonempty, Bool.not_false, Bool.true_and, Bool.not_eq_true',
        decide_eq_false_iff_not, gt_iff_lt, not_lt, not_le] at hdropped
      have hhorizon : (60 : ℚ) * 4 ≤ SecurityState.trackingHorizon cfg := by
        rw [SecurityState.trackingHorizon]
        exact mul_le_mul_of_nonneg_right (le_max_right _ _) (by norm_num)
      have hlatest := le_latest ht
      simp only [decide_eq_true_eq, not_lt]
      linarith

/-! ## Pruning -/

theorem get?_newest {α : Type} {n : ℕ} {time : α → ℚ} {d : Dict String α} {key : String}
    {v : α} (h : (SecurityState.newest n time d).get? key = some v) :
    d.get? key = some v := by
  have hmem := List.mem_of_mem_take (Dict.mem_of_get?_ofEntries h)
  rw [List.mem_mergeSort] at hmem
  exact (Dict.mem_items_iff d key v).mp hmem

def Spared (cfg : SecurityConfig) (now : ℚ) (table : Dict String (List ℚ)) : Prop :=
  ∀ username, live 60 now (table.getD (Operations.writeKey username) []) ≠ [] →
    maxTrackedKeys < (SecurityState.recentTimes cfg now table).items.length →
    (SecurityState.newest maxTrackedKeys SecurityState.latest
      (SecurityState.recentTimes cfg now table)).contains (Operations.writeKey username) = true

theorem live_pruneTimes {now : ℚ} {table : Dict String (List ℚ)} (h : Spared cfg now table)
    (username : String) :
    live 60 now ((SecurityState.pruneTimes cfg now table).getD
        (Operations.writeKey username) []) =
      live 60 now (table.getD (Operations.writeKey username) []) := by
  rw [SecurityState.pruneTimes]
  split
  · rename_i hmany
    rw [← live_recentTimes cfg table]
    simp only [Dict.getD]
    rcases hget : (SecurityState.newest maxTrackedKeys SecurityState.latest
      (SecurityState.recentTimes cfg now table)).get? (Operations.writeKey username) with - | v
    · have hnone : live 60 now (table.getD (Operations.writeKey username) []) = [] := by
        by_contra hlive
        have hkept := h username hlive hmany
        rw [Dict.contains, hget] at hkept
        cases hkept
      rw [← live_recentTimes cfg table] at hnone
      exact hnone.symm
    · rw [get?_newest hget]
  · exact live_recentTimes cfg table _

/-! ## The limiter over a sequence -/

def isRateSection : Section → Bool
  | .checkRate .. | .openLogin .. => true
  | _ => false

def isTrackingSection : Section → Bool
  | .checkRate .. | .openLogin .. | .closeLogin .. | .lockedOut .. | .failSecondFactor .. => true
  | _ => false

theorem tracking_perform {t : ℕ} {a : Section} {e : Reading} {s s' : SecurityState} {b : a.Answer}
    (ha : isTrackingSection a = false)
    (h : (securityMachine cfg w).perform t a e s = some (s', b)) :
    s'.rate = s.rate ∧ s'.lockouts = s.lockouts ∧ s'.strikes = s.strikes := by
  have hmark : ∀ (s : SecurityState) (value : Bool), (s.mark t value).rate = s.rate ∧
      (s.mark t value).lockouts = s.lockouts ∧ (s.mark t value).strikes = s.strikes := by
    intro s value
    rw [SecurityState.mark]
    split <;> exact ⟨rfl, rfl, rfl⟩
  cases a
  case checkRate | openLogin | closeLogin | lockedOut | failSecondFactor => cases ha
  case load =>
    rcases perform_load h with ⟨-, rfl⟩ | ⟨-, rfl⟩
    · exact hmark s true
    · exact ⟨rfl, rfl, rfl⟩
  case upsert user =>
    rcases perform_upsert h with ⟨-, -, rfl⟩ | ⟨-, -, rfl⟩
    · exact hmark _ false
    · exact ⟨rfl, rfl, rfl⟩
  case delete username =>
    rcases perform_delete h with ⟨-, rfl⟩ | ⟨-, rfl⟩
    · exact hmark _ false
    · exact ⟨rfl, rfl, rfl⟩
  case acquire username =>
    obtain ⟨-, rfl⟩ := perform_acquire h
    exact ⟨rfl, rfl, rfl⟩
  case accounts =>
    obtain ⟨-, rfl⟩ := perform_accounts h
    exact hmark s true
  case verifySession tokenId fingerprint =>
    obtain ⟨u, ss, hs⟩ := s.verifySession_changes tokenId fingerprint e
    obtain rfl := performed hs h
    exact ⟨rfl, rfl, rfl⟩
  case reload username =>
    obtain ⟨u, hs⟩ := s.reloadUser_changes username e
    obtain rfl := performed hs h
    exact ⟨rfl, rfl, rfl⟩
  case verifyTotp username code =>
    rcases perform_verifyTotp h with ⟨-, -, rfl⟩ | ⟨-, rfl⟩ <;> exact ⟨rfl, rfl, rfl⟩
  all_goals
    have hfst := congrArg Prod.fst (Option.some.inj h)
    dsimp only at hfst
    rw [← hfst]
  all_goals exact ⟨rfl, rfl, rfl⟩

theorem rate_perform {t : ℕ} {a : Section} {e : Reading} {s s' : SecurityState} {b : a.Answer}
    (ha : isRateSection a = false) (h : (securityMachine cfg w).perform t a e s = some (s', b)) :
    s'.rate = s.rate := by
  by_cases htracking : isTrackingSection a = true
  · cases a
    case lockedOut key =>
      obtain ⟨l, hs⟩ := s.lockedOut_changes key e.mono
      obtain rfl := performed hs h
      rfl
    case failSecondFactor username =>
      obtain ⟨f, l, k, ss, hs⟩ := s.failSecondFactor_changes cfg username e
      obtain rfl := performed (p := (_, ())) hs h
      rfl
    case closeLogin username clientIp user ok tokenId fingerprint =>
      obtain ⟨f, l, k, ss, hs⟩ :=
        s.closeLogin_changes cfg username clientIp user ok tokenId fingerprint e
      obtain rfl := performed hs h
      rfl
    case checkRate | openLogin => cases ha
    all_goals cases htracking
  · exact (tracking_perform (by simpa using htracking) h).1

theorem note_of_not_checkRate {a : Section} {e : Reading} {b : a.Answer} {c : Passed}
    (ha : isRateSection a = false) : note a e b c = (e.mono, c.2) := by
  cases a
  case checkRate => cases ha
  all_goals rfl

def Ordered (last : ℚ) (es : List Reading) : Prop :=
  List.IsChain (· ≤ ·) (last :: es.map Reading.mono)

theorem Ordered.head {last : ℚ} {e : Reading} {es : List Reading} (h : Ordered last (e :: es)) :
    last ≤ e.mono ∧ Ordered e.mono es := by
  rwa [Ordered, List.map_cons, List.isChain_cons_cons] at h

theorem rateInv_perform {op : SecurityOp} {t : ℕ} {a : Section} {e : Reading}
    {s s' : SecurityState × Passed} {b : a.Answer} (ha : Uses cfg w op a)
    (hopen : ∀ username clientIp, a ≠ .openLogin username clientIp) (hs : RateInv cfg s)
    (hclock : s.2.1 ≤ e.mono) (h : (countedMachine cfg w).perform t a e s = some (s', b)) :
    RateInv cfg s' ∧ s'.2.1 = e.mono := by
  obtain ⟨hperform, hnote⟩ := Machine.recorded_perform h
  by_cases hrate : isRateSection a = true
  · cases a
    case openLogin username clientIp => exact absurd rfl (hopen username clientIp)
    case checkRate key perMinute =>
      have hpair : s.1.checkRate key perMinute e.mono = (s'.1, b) := Option.some.inj hperform
      have hs' : s' = ((s.1.checkRate key perMinute e.mono).1,
          note (.checkRate key perMinute) e (s.1.checkRate key perMinute e.mono).2 s.2) := by
        rw [hpair, Prod.ext_iff]
        exact ⟨rfl, hnote⟩
      refine ⟨?_, ?_⟩
      · rw [hs']
        apply rateInv_checkRate hs hclock
        rcases ha with ⟨username, code, requiresOwner, -, hkey, hlimit⟩ | ⟨clientIp, -, hkey⟩ |
          ⟨username, -, hkey⟩
        · exact .inl ⟨username, hkey, hlimit⟩
        · refine .inr fun username heq => ?_
          exact writeKey_ne_login username clientIp (heq.symm.trans hkey)
        · refine .inr fun name heq => ?_
          exact writeKey_ne_read name username (heq.symm.trans hkey)
      · rw [hnote]
        cases b <;> rfl
    all_goals cases hrate
  · have hother : isRateSection a = false := by simpa using hrate
    rw [note_of_not_checkRate hother] at hnote
    refine ⟨?_, by rw [hnote]⟩
    intro username
    rw [rate_perform hother hperform, hnote]
    exact (hs username).later hclock

theorem rateInv_openLogin {t : ℕ} {username clientIp : String} {e : Reading}
    {s s' : SecurityState × Passed} {b : (Section.openLogin username clientIp).Answer}
    (hs : RateInv cfg s) (hclock : s.2.1 ≤ e.mono) (hspared : Spared cfg e.mono s.1.rate)
    (h : (countedMachine cfg w).perform t (.openLogin username clientIp) e s = some (s', b)) :
    RateInv cfg s' ∧ s'.2.1 = e.mono := by
  obtain ⟨hperform, hnote⟩ := Machine.recorded_perform h
  have hfst : (s.1.openLogin cfg username clientIp e).1 = s'.1 :=
    congrArg Prod.fst (Option.some.inj hperform)
  have hclean : s'.2 = (e.mono, s.2.2) := hnote
  refine ⟨?_, by rw [hclean]⟩
  intro name
  obtain ⟨u, l, hopen⟩ := s.1.openLogin_changes cfg username clientIp e
  rw [← hfst, hopen, hclean]
  exact ((hs name).later hclock).replace (live_pruneTimes hspared name)

def isLogin : SecurityOp → Bool
  | .login .. => true
  | _ => false

def Orderly (s : SecurityState × Passed) : SecurityCall → Prop
  | .call _ es => Ordered s.2.1 es ∧ ∀ e ∈ es, e.storeOk = true
  | .outside _ => True

def Unevicted (cfg : SecurityConfig) (s : SecurityState × Passed) : SecurityCall → Prop
  | .call op es => isLogin op = true → ∀ e ∈ es.head?, Spared cfg e.mono s.1.rate
  | .outside _ => True

theorem rateInv_alone {op : SecurityOp} {es : List Reading} {s s' : SecurityState × Passed}
    {o : Outcome} (hs : RateInv cfg s) (horder : Ordered s.2.1 es)
    (hspared : Unevicted cfg s (.call op es))
    (h : (countedMachine cfg w).alone 0 (op.program cfg w) es s = some (s', o)) :
    RateInv cfg s' := by
  by_cases hlogin : isLogin op = true
  · cases op
    case login username password userAgent clientIp tokenId =>
      obtain ⟨e₁, es, s₁, b, rfl, hopen, h⟩ := Machine.alone_act h
      obtain ⟨hs₁, hclock₁⟩ :=
        rateInv_openLogin hs horder.head.1 (hspared rfl e₁ rfl) hopen
      rcases b with remaining | user
      · obtain ⟨rfl, -⟩ := Machine.alone_ret h
        exact hs₁
      · obtain ⟨e₂, es, s₂, b, rfl, hclose, h⟩ := Machine.alone_act h
        have huses : Uses cfg w (.login username password userAgent clientIp tokenId)
            (.closeLogin username clientIp user
              (w.verifyPassword password ((user.map (·.passwordHash)).getD w.dummyHash)) tokenId
              (w.fingerprint userAgent clientIp)) := ⟨password, userAgent, rfl, rfl⟩
        have hlast : s₁.2.1 ≤ e₂.mono := hclock₁.trans_le horder.head.2.head.1
        have hs₂ := (rateInv_perform huses (fun _ _ heq => by cases heq) hs₁ hlast hclose).1
        cases b <;> obtain ⟨rfl, -⟩ := Machine.alone_ret h <;> exact hs₂
    all_goals cases hlogin
  · obtain ⟨rest, hrest⟩ := Machine.alone_keeps
      (I := fun s es => RateInv cfg s ∧ Ordered s.2.1 es)
      (fun a e es s₁ s₂ b ha hI hperform => by
        have hopen : ∀ username clientIp, a ≠ .openLogin username clientIp := by
          rintro username clientIp rfl
          obtain ⟨password, userAgent, tokenId, rfl⟩ := ha
          exact hlogin rfl
        obtain ⟨hkept, hclock⟩ := rateInv_perform ha hopen hI.1 hI.2.head.1 hperform
        exact ⟨hkept, hclock ▸ hI.2.head.2⟩)
      (program_uses cfg w op) ⟨hs, horder⟩ h
    exact hrest.1

theorem rateInv_inSequence {s : SecurityState × Passed} {m : SecurityCall}
    (hs : RateInv cfg s) (horder : Orderly s m) (hspared : Unevicted cfg s m) :
    RateInv cfg ((countedMachine cfg w).inSequence s m) := by
  rcases m with ⟨op, es⟩ | c
  · rw [Machine.inSequence]
    split
    · rename_i s' o halone
      exact rateInv_alone hs horder.1 hspared halone
    · exact hs
  · exact hs

/-! ## What a request is answered on -/

def refusals : List String :=
  ["this role cannot perform write actions", "only the owner may change a risk limit",
    "too many write actions; slow down"]

theorem authoriseWrite_counted {s s' : SecurityState × Passed} {username code : String}
    {requiresOwner : Bool} {es : List Reading} {o : Outcome}
    (h : (countedMachine cfg w).alone 0
      (Operations.authoriseWrite cfg username code requiresOwner) es s = some (s', o)) :
    (∃ e ∈ es, s'.2.2 = s.2.2 ++ [(Operations.writeKey username, e.mono)]) ∨
      (s'.2.2 = s.2.2 ∧ ∃ message ∈ refusals, o = .verdict false message) := by
  have hquiet : ∀ {a : Section} {e : Reading} {s s' : SecurityState × Passed} {b : a.Answer},
      isRateSection a = false → (countedMachine cfg w).perform 0 a e s = some (s', b) →
      s'.2.2 = s.2.2 := by
    intro a e s s' b ha hperform
    rw [(Machine.recorded_perform hperform).2, note_of_not_checkRate ha]
  obtain ⟨e₁, es, s₁, user, rfl, hreload, h⟩ := Machine.alone_act h
  have hlog₁ := hquiet rfl hreload
  rcases user with - | user
  · obtain ⟨rfl, rfl⟩ := Machine.alone_ret h
    exact .inr ⟨hlog₁, _, by simp [refusals], rfl⟩
  · simp only [Prog.bind] at h
    by_cases hwrite : user.canWrite = true
    · rw [if_neg (by simp [hwrite])] at h
      by_cases howner : (requiresOwner && !user.canChangeRisk) = true
      · rw [if_pos howner] at h
        obtain ⟨rfl, rfl⟩ := Machine.alone_ret h
        exact .inr ⟨hlog₁, _, by simp [refusals], rfl⟩
      · rw [if_neg howner] at h
        obtain ⟨e₂, es, s₂, b, rfl, hrate, h⟩ := Machine.alone_act h
        have hnote := (Machine.recorded_perform hrate).2
        rcases b with - | -
        · obtain ⟨rfl, rfl⟩ := Machine.alone_ret h
          refine .inr ⟨?_, _, by simp [refusals], rfl⟩
          rw [hnote]
          exact hlog₁
        · have hlog₂ : s₂.2.2 = s.2.2 ++ [(Operations.writeKey username, e₂.mono)] := by
            rw [hnote, ← hlog₁]
            rfl
          refine .inl ⟨e₂, by simp, ?_⟩
          obtain ⟨e₃, es, s₃, remaining, rfl, hlocked, h⟩ := Machine.alone_act h
          rw [← hlog₂, ← hquiet rfl hlocked]
          rcases remaining with - | remaining
          · obtain ⟨e₄, es, s₄, verdict, rfl, hverify, h⟩ := Machine.alone_act h
            rw [← hquiet rfl hverify]
            rcases verdict with ⟨- | -, message⟩
            · obtain ⟨e₅, es, s₅, b, rfl, hfail, h⟩ := Machine.alone_act h
              rw [← hquiet rfl hfail, (Machine.alone_ret h).1]
            · obtain ⟨e₅, es, s₅, b, rfl, hconsume, h⟩ := Machine.alone_act h
              rw [← hquiet rfl hconsume, (Machine.alone_ret h).1]
          · rw [(Machine.alone_ret h).1]
    · rw [if_pos (by simp [hwrite])] at h
      obtain ⟨rfl, rfl⟩ := Machine.alone_ret h
      exact .inr ⟨hlog₁, _, by simp [refusals], rfl⟩

def runFrom (cfg : SecurityConfig) (w : SecurityWorld) (store : Accounts) (clock : ℚ)
    (ms : List SecurityCall) : SecurityState × Passed :=
  ms.foldl (countedMachine cfg w).inSequence (SecurityState.start store, (clock, []))

/-- Every session that `verify_token` would return next was issued in the run to
the same client, has been in the table ever since, has not expired, and carries
the role of an account that is enabled in the table. -/
def SessionsCurrent (cfg : SecurityConfig) (w : SecurityWorld) (store : Accounts)
    (ms : List SecurityCall) (s : SecurityState × Passed) : Prop :=
  ∀ token now userAgent clientIp es s' session,
    Orderly s (.call (.verifyToken token now userAgent clientIp) es) →
    (countedMachine cfg w).alone 0 (Operations.verifyToken w token now userAgent clientIp) es s =
      some (s', .session (some session)) →
    ∃ id user, w.decodeToken now token = some id ∧
      Issued cfg w (SecurityState.start store) ms id session ∧
      session.fingerprint = w.fingerprint userAgent clientIp ∧
      (∃ e ∈ es, e.wall ≤ session.expiresNs) ∧
      s.1.store.get? session.username = some user ∧ user.disabled = false ∧
      session.role = user.role

def WritesAuthorised (cfg : SecurityConfig) (w : SecurityWorld) (s : SecurityState × Passed) :
    Prop :=
  ∀ username code requiresOwner es s' message,
    Orderly s (.call (.authoriseWrite username code requiresOwner) es) →
    (countedMachine cfg w).alone 0 (Operations.authoriseWrite cfg username code requiresOwner)
      es s = some (s', .verdict true message) →
    ∃ user e, s.1.store.get? username = some user ∧ user.canWrite = true ∧
      (requiresOwner = true → user.canChangeRisk = true) ∧ e ∈ es ∧
      (s.1.lockedOut (SecurityState.userKey username) e.mono).2 = none

/-- Every write and every attempt is counted, and no 60 seconds hold more of an
account than the limit. -/
def WithinRate (cfg : SecurityConfig) (w : SecurityWorld) (s : SecurityState × Passed) : Prop :=
  (∀ username code requiresOwner es s' o,
    (countedMachine cfg w).alone 0 (Operations.authoriseWrite cfg username code requiresOwner)
      es s = some (s', o) →
    (∃ e ∈ es, s'.2.2 = s.2.2 ++ [(Operations.writeKey username, e.mono)]) ∨
      (s'.2.2 = s.2.2 ∧ ∃ message ∈ refusals, o = .verdict false message)) ∧
  ∀ username a, ((within 60 a (writesOf username s.2.2)).length : ℤ) ≤
    max cfg.writeRatePerMinute 0

theorem alone_counted {p : SecurityProg Outcome} {es : List Reading}
    {s s' : SecurityState × Passed} {o : Outcome}
    (h : (countedMachine cfg w).alone 0 p es s = some (s', o)) :
    (securityMachine cfg w).alone 0 p es s.1 = some (s'.1, o) := by
  rw [← (securityMachine cfg w).alone_recorded note 0 p es s.1 s.2, h]
  rfl

/-- Revocation is immediate.  In every sequence of calls with the clock in order
and the account table readable, in which no login prunes the count of an account
that has written in the last minute, sessions and writes rest on what the table
says at that moment, and no account writes more often than it may. -/
theorem authority_is_current (cfg : SecurityConfig) (w : SecurityWorld) (store : Accounts)
    (clock : ℚ) (ms : List SecurityCall)
    (hms : Along (countedMachine cfg w).inSequence (fun s m => Orderly s m ∧ Unevicted cfg s m)
      (SecurityState.start store, (clock, [])) ms) :
    SessionsCurrent cfg w store ms (runFrom cfg w store clock ms) ∧
      WritesAuthorised cfg w (runFrom cfg w store clock ms) ∧
      WithinRate cfg w (runFrom cfg w store clock ms) := by
  refine ⟨?_, ?_, ?_, ?_⟩
  · intro token now userAgent clientIp es s' session horder halone
    obtain ⟨id, stored, user, e, hdecode, he, hget, hsame, hfresh, hprint, hstored, henabled,
      hrole⟩ := verifyToken_session horder.2 (alone_counted halone)
    rw [runFrom, Machine.foldl_inSequence_recorded] at hget
    obtain ⟨before, m, after, hsplit, hissued, hkept⟩ := issued_of_get? ms hget
    refine ⟨id, user, hdecode, ⟨before, m, after, hsplit, ?_, ?_⟩, hprint, ⟨e, he, hfresh⟩,
      hstored, henabled, hrole⟩
    · obtain ⟨username, password, agent, ip, es₀, s₀, issued, hm, hlogin, hsame₀, hid, hname,
        hfingerprint⟩ := hissued
      exact ⟨username, password, agent, ip, es₀, s₀, issued, hm, hlogin, hsame₀.trans hsame,
        hsame.tokenId.trans hid, hsame.username.trans hname, hsame.fingerprint.trans hfingerprint⟩
    · intro pre post hafter
      obtain ⟨session', hget', hsame'⟩ := hkept pre post hafter
      exact ⟨session', hget', hsame'.trans hsame⟩
  · intro username code requiresOwner es s' message horder halone
    exact authoriseWrite_authority horder.2 (alone_counted halone)
  · intro username code requiresOwner es s' o halone
    exact authoriseWrite_counted halone
  · intro username a
    have hstart : RateInv cfg (SecurityState.start store, (clock, [])) :=
      fun _ => Keeps.nil 60 clock cfg.writeRatePerMinute
    have hrun := Along.invariant (fun s m hs hm => rateInv_inSequence hs hm.1 hm.2) hstart hms
    exact (hrun username).bounded a

/-! ## Small runs -/

def oneWriteAMinute : SecurityConfig := { countingConfig with writeRatePerMinute := 1 }

def atSecond (t : ℚ) : Reading := ⟨t, 3000000000000, true⟩

def writeCall (t : ℚ) (code : String) : SecurityCall :=
  .call (.authoriseWrite "alice" code false) (List.replicate 5 (atSecond t))

def loginCall (t : ℚ) : SecurityCall :=
  .call (.login "alice" "hash" "agent" "address" "token") (List.replicate 2 (atSecond t))

/-- A login and a write, on an empty table. -/
theorem login_then_write_current :
    SessionsCurrent oneWriteAMinute countingWorld oneAccount [loginCall 1, writeCall 2 "100101"]
        (runFrom oneWriteAMinute countingWorld oneAccount 0
          [loginCall 1, writeCall 2 "100101"]) ∧
      WritesAuthorised oneWriteAMinute countingWorld
        (runFrom oneWriteAMinute countingWorld oneAccount 0
          [loginCall 1, writeCall 2 "100101"]) ∧
      WithinRate oneWriteAMinute countingWorld
        (runFrom oneWriteAMinute countingWorld oneAccount 0
          [loginCall 1, writeCall 2 "100101"]) := by
  apply authority_is_current
  refine ⟨⟨⟨?_, ?_⟩, ?_⟩, ⟨⟨?_, ?_⟩, ?_⟩, trivial⟩
  · simp [Ordered, atSecond]
  · simp [atSecond]
  · intro _ e _ username hlive
    exact absurd rfl hlive
  · have hclock : ((countedMachine oneWriteAMinute countingWorld).inSequence
        (SecurityState.start oneAccount, (0, [])) (loginCall 1)).2.1 = 1 := rfl
    rw [hclock]
    simp [Ordered, atSecond]
  · simp [atSecond]
  · intro hlogin
    cases hlogin

/-! ## A count that is pruned -/

def afterWrite : SecurityState × Passed :=
  runFrom oneWriteAMinute countingWorld oneAccount 0 [writeCall 0 "100100"]

def afterLogin : SecurityState :=
  (runFrom oneWriteAMinute countingWorld oneAccount 0 [writeCall 0 "100100", loginCall 1]).1

theorem login_prunes (table : Dict String (List ℚ)) (c : Passed) :
    (countedMachine oneWriteAMinute countingWorld).inSequence
        ({ afterWrite.1 with rate := table }, c) (loginCall 1) =
      ({ afterLogin with rate := SecurityState.pruneTimes oneWriteAMinute 1 table }, (1, c.2)) :=
  rfl

theorem write_of_evicted {table : Dict String (List ℚ)} {c : Passed}
    (h : table.get? "write:alice" = none) :
    ∃ s', (countedMachine oneWriteAMinute countingWorld).alone 0
        (Operations.authoriseWrite oneWriteAMinute "alice" "100101" false)
        (List.replicate 5 (atSecond 2)) ({ afterLogin with rate := table }, c) =
      some ((s', (2, c.2 ++ [("write:alice", 2)])), .verdict true "ok") := by
  have hpass : SecurityState.checkRate { afterLogin with rate := table } "write:alice" 1 2 =
      ({ afterLogin with rate := table.set "write:alice" [2] }, true) := by
    simp [SecurityState.checkRate, Dict.getD, h]
  have hunused : afterLogin.usedTotp.contains ("alice", "100101") = false := by decide +kernel
  have haccepts : countingWorld.acceptsTotp "secret" 3000000000000 "100101" = true := by
    decide +kernel
  have hverify : SecurityState.verifyTotp countingWorld
      { afterLogin with rate := table.set "write:alice" [2] } "alice" "100101" false
        (atSecond 2) = ({ afterLogin with rate := table.set "write:alice" [2] }, true, "ok") := by
    have htext : SecurityState.totpText "100101" = "100101" := by decide +kernel
    have husers : afterLogin.users.get? "alice" =
        some ⟨"alice", "hash", "secret", .operator, 0, false⟩ := by decide +kernel
    have hdigits : SecurityState.sixDigits "100101" = true := by decide +kernel
    simp [SecurityState.verifyTotp, htext, husers, hdigits, hunused, atSecond, haccepts]
  have hreload : (countedMachine oneWriteAMinute countingWorld).perform 0 (.reload "alice")
      (atSecond 2) ({ afterLogin with rate := table }, c) =
      some (({ afterLogin with rate := table }, (2, c.2)),
        some ⟨"alice", "hash", "secret", .operator, 0, false⟩) := rfl
  have hrate : (countedMachine oneWriteAMinute countingWorld).perform 0
      (.checkRate "write:alice" 1) (atSecond 2) ({ afterLogin with rate := table }, (2, c.2)) =
      some (({ afterLogin with rate := table.set "write:alice" [2] },
        (2, c.2 ++ [("write:alice", 2)])), true) := by
    simp only [Machine.recorded, securityMachine, performSection, atSecond, hpass,
      Option.map_some, note]
  have hlocked : (countedMachine oneWriteAMinute countingWorld).perform 0 (.lockedOut "user:alice")
      (atSecond 2) ({ afterLogin with rate := table.set "write:alice" [2] },
        (2, c.2 ++ [("write:alice", 2)])) =
      some (({ afterLogin with rate := table.set "write:alice" [2] },
        (2, c.2 ++ [("write:alice", 2)])), none) := rfl
  have hverified : (countedMachine oneWriteAMinute countingWorld).perform 0
      (.verifyTotp "alice" "100101") (atSecond 2)
      ({ afterLogin with rate := table.set "write:alice" [2] },
        (2, c.2 ++ [("write:alice", 2)])) =
      some (({ afterLogin with
          rate := table.set "write:alice" [2]
          verified := (0, "alice", SecurityState.totpText "100101") :: afterLogin.verified },
        (2, c.2 ++ [("write:alice", 2)])), (true, "ok")) := by
    simp only [Machine.recorded, securityMachine, performSection, hverify]
    rfl
  have halone : ((countedMachine oneWriteAMinute countingWorld).alone 0
      (Operations.authoriseWrite oneWriteAMinute "alice" "100101" false)
      (List.replicate 5 (atSecond 2)) ({ afterLogin with rate := table }, c)).map
        (fun r => (r.1.2, r.2)) =
      some ((2, c.2 ++ [("write:alice", 2)]), .verdict true "ok") := by
    refine (congrArg _ (Machine.alone_of_perform hreload)).trans ?_
    refine (congrArg _ (Machine.alone_of_perform hrate)).trans ?_
    refine (congrArg _ (Machine.alone_of_perform hlocked)).trans ?_
    exact congrArg _ (Machine.alone_of_perform hverified)
  obtain ⟨⟨⟨s', passed⟩, o⟩, halone, hend⟩ := Option.map_eq_some_iff.mp halone
  rw [Prod.mk.injEq] at hend
  obtain ⟨rfl, rfl⟩ := hend
  exact ⟨s', halone⟩

theorem loginKey_injective : Function.Injective fun i : ℕ => "login:" ++ toString i := by
  intro i j h
  have hlist := congrArg String.toList h
  simp only [String.toList_append] at hlist
  exact toString_injective (String.toList_inj.mp (List.append_cancel_left hlist))

def flood (n : ℕ) : List SecurityCall :=
  (List.range n).map fun i => .call (.loginRate (toString i)) [atSecond 1]

theorem loginRate_tracks {s : SecurityState} {table : Dict String (List ℚ)} {c : Passed}
    {clientIp : String} (h : table.get? ("login:" ++ clientIp) = none) :
    (countedMachine oneWriteAMinute countingWorld).inSequence ({ s with rate := table }, c)
        (.call (.loginRate clientIp) [atSecond 1]) =
      ({ s with rate := table.set ("login:" ++ clientIp) [1] },
        (1, c.2 ++ [("login:" ++ clientIp, 1)])) := by
  have hpass : SecurityState.checkRate { s with rate := table } ("login:" ++ clientIp) 10 1 =
      ({ s with rate := table.set ("login:" ++ clientIp) [1] }, true) := by
    simp [SecurityState.checkRate, Dict.getD, h]
  have hrate : (countedMachine oneWriteAMinute countingWorld).perform 0
      (.checkRate ("login:" ++ clientIp) 10) (atSecond 1) ({ s with rate := table }, c) =
      some (({ s with rate := table.set ("login:" ++ clientIp) [1] },
        (1, c.2 ++ [("login:" ++ clientIp, 1)])), true) := by
    simp only [Machine.recorded, securityMachine, performSection, atSecond, hpass,
      Option.map_some, note]
  exact Machine.inSequence_call (Machine.alone_of_perform hrate)

theorem flood_tracks {s : SecurityState} {c : Passed} (hclock : c.1 ≤ 1)
    (hnone : ∀ i : ℕ, s.rate.get? ("login:" ++ toString i) = none) (n : ℕ) :
    ∃ table passed, (flood n).foldl (countedMachine oneWriteAMinute countingWorld).inSequence
        (s, c) = ({ s with rate := table }, passed) ∧ passed.1 ≤ 1 ∧
      writesOf "alice" passed.2 = writesOf "alice" c.2 ∧
      Along (countedMachine oneWriteAMinute countingWorld).inSequence Orderly (s, c) (flood n) ∧
      (∀ i < n, table.get? ("login:" ++ toString i) = some [1]) ∧
      ∀ k, (∀ i < n, k ≠ "login:" ++ toString i) → table.get? k = s.rate.get? k := by
  induction n with
  | zero => exact ⟨s.rate, c, rfl, hclock, rfl, trivial, by simp, fun _ _ => rfl⟩
  | succ n ih =>
      obtain ⟨table, passed, hrun, hle, hwrites, horder, hin, hout⟩ := ih
      have hsplit : flood (n + 1) = flood n ++ [.call (.loginRate (toString n)) [atSecond 1]] := by
        simp [flood, List.range_succ]
      have hfresh : table.get? ("login:" ++ toString n) = none := by
        rw [hout _ fun i hi heq => (Nat.ne_of_lt hi) (loginKey_injective heq).symm, hnone]
      refine ⟨table.set ("login:" ++ toString n) [1],
        (1, passed.2 ++ [("login:" ++ toString n, 1)]), ?_, le_refl 1, ?_, ?_, ?_, ?_⟩
      · rw [hsplit, List.foldl_append, hrun]
        exact loginRate_tracks hfresh
      · rw [writesOf_append, if_neg (writeKey_ne_login "alice" (toString n)).symm, hwrites]
      · rw [hsplit, Along.append_iff, hrun]
        refine ⟨horder, ⟨?_, ?_⟩, trivial⟩
        · rw [Ordered, List.map_singleton, List.isChain_cons_cons]
          exact ⟨hle, List.isChain_singleton _⟩
        · simp [atSecond]
      · intro i hi
        rw [Dict.get?_set]
        split
        · rfl
        · rename_i hne
          apply hin
          rcases Nat.lt_succ_iff_lt_or_eq.mp hi with hlt | rfl
          · exact hlt
          · exact absurd rfl hne
      · intro k hk
        rw [Dict.get?_set, if_neg (hk n (Nat.lt_succ_self n))]
        exact hout k fun i hi => hk i (Nat.lt_succ_of_lt hi)

theorem get?_newest_eq_none {n : ℕ} {time : List ℚ → ℚ} {d : Dict String (List ℚ)}
    {key : String} {v : List ℚ} (hget : d.get? key = some v)
    (hmany : n ≤ (d.items.filter fun kv => time v < time kv.2).length) :
    (SecurityState.newest n time d).get? key = none := by
  rcases hkept : (SecurityState.newest n time d).get? key with - | v'
  · rfl
  · exfalso
    have hv : v' = v := by
      have hsame := get?_newest hkept
      rw [hget] at hsame
      exact (Option.some.inj hsame).symm
    subst hv
    have hmem := Dict.mem_of_get?_ofEntries hkept
    set sorted := d.items.mergeSort fun a b => decide (time b.2 ≤ time a.2) with hsorted
    have hpairwise : sorted.Pairwise fun a b => time b.2 ≤ time a.2 := by
      have hsort : sorted.Pairwise fun a b => decide (time b.2 ≤ time a.2) = true := by
        apply List.pairwise_mergeSort
        · intro a b c hab hbc
          simp only [decide_eq_true_eq] at hab hbc ⊢
          exact hbc.trans hab
        · intro a b
          simpa using le_total _ _
      simpa using hsort
    have hperm : (sorted.filter fun kv => time v' < time kv.2).length =
        (d.items.filter fun kv => time v' < time kv.2).length :=
      ((List.mergeSort_perm _ _).filter _).length_eq
    rw [← List.take_append_drop n sorted] at hpairwise hperm
    rw [List.filter_append, List.length_append] at hperm
    have hdrop : (sorted.drop n).filter (fun kv => decide (time v' < time kv.2)) = [] := by
      rw [List.filter_eq_nil_iff]
      intro kv hkv
      simpa using (List.pairwise_append.mp hpairwise).2.2 _ hmem kv hkv
    have hlt : ((sorted.take n).filter fun kv => decide (time v' < time kv.2)).length <
        (sorted.take n).length := by
      rw [List.length_filter_lt_length_iff_exists]
      exact ⟨_, hmem, by simp⟩
    have hle : (sorted.take n).length ≤ n := List.length_take_le _ _
    rw [hdrop] at hperm
    simp only [List.length_nil] at hperm
    omega


theorem le_length_filter {n : ℕ} {f : ℕ → String} (hf : Function.Injective f) {v : List ℚ}
    {d : Dict String (List ℚ)} {p : String × List ℚ → Bool}
    (h : ∀ i < n, d.get? (f i) = some v) (hp : ∀ i < n, p (f i, v) = true) :
    n ≤ (d.items.filter p).length := by
  have hnodup : ((List.range n).map fun i => (f i, v)).Nodup :=
    List.nodup_range.map fun i j hij => hf (congrArg Prod.fst hij)
  have hsub : (List.range n).map (fun i => (f i, v)) ⊆ d.items.filter p := by
    intro kv hkv
    obtain ⟨i, hi, rfl⟩ := List.mem_map.mp hkv
    rw [List.mem_range] at hi
    rw [List.mem_filter]
    exact ⟨(Dict.mem_items_iff d _ v).mpr (h i hi), hp i hi⟩
  simpa using (hnodup.subperm hsub).length_le

theorem pruneTimes_evicts {table : Dict String (List ℚ)}
    (hin : ∀ i < maxTrackedKeys, table.get? ("login:" ++ toString i) = some [1])
    (hwrite : table.get? "write:alice" = some [0]) :
    (SecurityState.pruneTimes oneWriteAMinute 1 table).get? "write:alice" = none := by
  have hzero : SecurityState.latest [0] = 0 := rfl
  have hone : SecurityState.latest [1] = 1 := rfl
  have hhorizon : SecurityState.trackingHorizon oneWriteAMinute = 3600 := by decide +kernel
  have hrecent : ∀ i < maxTrackedKeys, (SecurityState.recentTimes oneWriteAMinute 1 table).get?
      ("login:" ++ toString i) = some [1] := by
    intro i hi
    simp only [SecurityState.recentTimes, Dict.get?_keep, hin i hi, Option.filter_some, hone,
      hhorizon]
    norm_num
  have hkept : (SecurityState.recentTimes oneWriteAMinute 1 table).get? "write:alice" =
      some [0] := by
    simp only [SecurityState.recentTimes, Dict.get?_keep, hwrite, Option.filter_some, hzero,
      hhorizon]
    norm_num
  have hmany : maxTrackedKeys ≤ ((SecurityState.recentTimes oneWriteAMinute 1 table).items.filter
      fun kv => SecurityState.latest [0] < SecurityState.latest kv.2).length := by
    apply le_length_filter loginKey_injective hrecent
    intro i _
    rw [hzero, hone]
    norm_num
  have hlength : maxTrackedKeys <
      (SecurityState.recentTimes oneWriteAMinute 1 table).items.length := by
    apply lt_of_le_of_lt hmany
    rw [List.length_filter_lt_length_iff_exists]
    exact ⟨_, (Dict.mem_items_iff _ _ _).mpr hkept, by simp⟩
  rw [SecurityState.pruneTimes, if_pos hlength]
  exact get?_newest_eq_none hkept hmany

/-- A second write a minute is let through where one is allowed, once a login has
pruned the count of the first. -/
theorem pruned_count_lets_write_through :
    ∃ (cfg : SecurityConfig) (w : SecurityWorld) (store : Accounts) (ms : List SecurityCall)
      (username code : String) (es : List Reading) (s' : SecurityState × Passed),
      Along (countedMachine cfg w).inSequence Orderly (SecurityState.start store, (0, []))
        (ms ++ [.call (.authoriseWrite username code false) es]) ∧
      (countedMachine cfg w).alone 0 (Operations.authoriseWrite cfg username code false) es
        (runFrom cfg w store 0 ms) = some (s', .verdict true "ok") ∧
      ¬ WithinRate cfg w s' := by
  have hitems : afterWrite.1.rate.items = [("write:alice", [0])] := by decide +kernel
  have hfresh : ∀ i : ℕ, afterWrite.1.rate.get? ("login:" ++ toString i) = none := by
    intro i
    rw [Dict.get?_eq_none_iff, Dict.keys, hitems]
    simpa using (show "login:" ++ toString i ≠ "write:alice" from
      (writeKey_ne_login "alice" (toString i)).symm)
  have hfirst : afterWrite.1.rate.get? (Operations.writeKey "alice") = some [0] := by
    rw [Dict.get?, hitems]
    rfl
  have hlog : afterWrite.2 = (0, [("write:alice", 0)]) := by decide +kernel
  -- a variable, so that the list of requests is never unfolded
  obtain ⟨n, hn⟩ : ∃ n, n = maxTrackedKeys := ⟨_, rfl⟩
  obtain ⟨table, passed, hrun, hle, hwrites, horder, hin, hout⟩ :=
    flood_tracks (s := afterWrite.1) (c := afterWrite.2) (by rw [hlog]; norm_num) hfresh n
  have hevicted : (SecurityState.pruneTimes oneWriteAMinute 1 table).get? "write:alice" = none :=
    pruneTimes_evicts (hn ▸ hin) ((hout _ fun i _ => writeKey_ne_login "alice" (toString i)).trans
      hfirst)
  have hstart : (countedMachine oneWriteAMinute countingWorld).inSequence
      (SecurityState.start oneAccount, (0, [])) (writeCall 0 "100100") = afterWrite := rfl
  obtain ⟨s', hwrite⟩ := write_of_evicted (c := (1, passed.2)) hevicted
  refine ⟨oneWriteAMinute, countingWorld, oneAccount,
    writeCall 0 "100100" :: (flood n ++ [loginCall 1]), "alice", "100101",
    List.replicate 5 (atSecond 2), (s', (2, passed.2 ++ [("write:alice", 2)])), ?_, ?_, ?_⟩
  · rw [List.cons_append, List.append_assoc, Along.cons_iff, hstart, Along.append_iff, hrun]
    refine ⟨⟨?_, ?_⟩, horder, ?_⟩
    · simp [Ordered, atSecond]
    · simp [atSecond]
    · rw [List.singleton_append, Along.cons_iff, login_prunes]
      refine ⟨⟨?_, ?_⟩, ⟨?_, ?_⟩, trivial⟩
      · simpa [Ordered, atSecond] using hle
      · simp [atSecond]
      · simp [Ordered, atSecond]
      · simp [atSecond]
  · rw [runFrom, List.foldl_cons, hstart, List.foldl_append, hrun, List.foldl_cons,
      List.foldl_nil, login_prunes]
    exact hwrite
  · intro hwithin
    have hbound := hwithin.2 "alice" 0
    have htwice : writesOf "alice" (passed.2 ++ [("write:alice", (2 : ℚ))]) = [0, 2] := by
      rw [writesOf_append, hwrites, hlog]
      rfl
    have htwo : (within 60 0 [(0 : ℚ), 2]).length = 2 := by decide +kernel
    rw [htwice, htwo] at hbound
    exact absurd hbound (by decide)

end WriteRate
end Sentinel
