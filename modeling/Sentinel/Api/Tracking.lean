import Sentinel.Api.WriteRate

/-!
# The tables that callers can grow

The failures, the counts, the lockouts and the strikes are kept by strings the
caller supplies, and every login begins by pruning them.  The strikes of a key
are dropped together with its lockout; a lookup that finds a lockout run out
drops it alone, and then no pruning ever drops the strikes for their age.
-/

namespace Sentinel

open SecurityState

namespace Dict

variable {κ α : Type} [DecidableEq κ] {d : Dict κ α} {p : κ → Bool} {k k' : κ}

omit [DecidableEq κ] in
theorem keys_restrict : (d.restrict p).keys = d.keys.filter p := by
  rw [keys, keys, restrict, List.filter_map]
  rfl

omit [DecidableEq κ] in
theorem mem_keys_restrict : k ∈ (d.restrict p).keys ↔ k ∈ d.keys ∧ p k = true := by
  rw [keys_restrict, List.mem_filter]

theorem mem_keys_erase : k' ∈ (d.erase k).keys ↔ k' ≠ k ∧ k' ∈ d.keys := by
  have hrestrict : d.erase k = d.restrict fun key => decide (key ≠ k) := rfl
  rw [hrestrict, mem_keys_restrict, decide_eq_true_iff, and_comm]

theorem contains_iff_mem_keys : d.contains k = true ↔ k ∈ d.keys := by
  rw [contains, Option.isSome_iff_exists, mem_keys_iff]

omit [DecidableEq κ] in
theorem length_keys : d.keys.length = d.items.length := by
  rw [keys, List.length_map]

omit [DecidableEq κ] in
theorem length_le_of_keys_subset {β : Type} {e : Dict κ β} (h : ∀ k ∈ d.keys, k ∈ e.keys) :
    d.items.length ≤ e.items.length := by
  rw [← length_keys, ← length_keys]
  exact (d.nodup.subperm h).length_le

end Dict

namespace Tracking

variable {cfg : SecurityConfig} {w : SecurityWorld}

/-! ## The tables before and after pruning -/

def agedOut (cfg : SecurityConfig) (s : SecurityState) (r : Reading) (key : String) : Bool :=
  match s.lockouts.get? key with
  | some until_ => decide (r.mono > until_ + trackingHorizon cfg)
  | none => false

def unaged (cfg : SecurityConfig) (s : SecurityState) (r : Reading) : Dict String ℚ :=
  s.lockouts.restrict fun key => !agedOut cfg s r key

variable (s : SecurityState)

def orphans : Dict String ℕ :=
  s.strikes.restrict fun key => !s.lockouts.contains key

/-- Pruning leaves none of the tables with more than the tracked number of keys,
and no lockout it retains ends sooner. -/
structure Bounded (cfg : SecurityConfig) (s : SecurityState) (r : Reading) : Prop where
  failures : (s.pruneTracking cfg r).failures.items.length ≤ maxTrackedKeys
  rate : (s.pruneTracking cfg r).rate.items.length ≤ maxTrackedKeys
  lockouts : (s.pruneTracking cfg r).lockouts.items.length ≤ maxTrackedKeys
  strikes : (s.pruneTracking cfg r).strikes.items.length ≤ maxTrackedKeys
  inForce : ∀ key until_, (s.pruneTracking cfg r).lockouts.get? key = some until_ →
    s.lockouts.get? key = some until_

/-- The lockouts that are not dropped for their age fill the table, or together
with the strikes that have none they do not. -/
def HasRoom (cfg : SecurityConfig) (s : SecurityState) (r : Reading) : Prop :=
  maxTrackedKeys < (unaged cfg s r).items.length ∨
    (unaged cfg s r).items.length + (orphans s).items.length ≤ maxTrackedKeys

theorem lockouts_pruneTracking (r : Reading) :
    (s.pruneTracking cfg r).lockouts =
      if maxTrackedKeys < (unaged cfg s r).items.length then
        newest maxTrackedKeys id (unaged cfg s r)
      else unaged cfg s r := rfl

theorem strikes_pruneTracking (r : Reading) :
    (s.pruneTracking cfg r).strikes =
      if maxTrackedKeys < (unaged cfg s r).items.length then
        (s.strikes.restrict fun key => !agedOut cfg s r key).restrict fun key =>
          (s.pruneTracking cfg r).lockouts.contains key
      else s.strikes.restrict fun key => !agedOut cfg s r key := rfl

theorem length_newest_le {α : Type} (n : ℕ) (time : α → ℚ) (d : Dict String α) :
    (newest n time d).items.length ≤ n := by
  have hkeys : ∀ k ∈ (newest n time d).keys,
      k ∈ ((d.items.mergeSort fun a b => time b.2 ≤ time a.2).take n).map Prod.fst := by
    intro k hk
    obtain ⟨v, hv⟩ := Dict.exists_get?_of_mem hk
    exact List.mem_map_of_mem (Dict.mem_of_get?_ofEntries hv)
  have hle := ((newest n time d).nodup.subperm hkeys).length_le
  rw [List.length_map, List.length_map] at hle
  exact hle.trans (List.length_take_le _ _)

variable (key : String) (now : ℚ)

theorem length_pruneTimes_le (now : ℚ) (table : Dict String (List ℚ)) :
    (pruneTimes cfg now table).items.length ≤ maxTrackedKeys := by
  rw [pruneTimes]
  split
  · exact length_newest_le _ _ _
  · rename_i hfew
    exact not_lt.1 hfew

theorem length_lockouts_le (r : Reading) :
    (s.pruneTracking cfg r).lockouts.items.length ≤ maxTrackedKeys := by
  rw [lockouts_pruneTracking]
  split
  · exact length_newest_le _ _ _
  · rename_i hfew
    exact not_lt.1 hfew

theorem get?_lockouts_pruneTracking {s : SecurityState} {r : Reading} {key : String} {until_ : ℚ}
    (h : (s.pruneTracking cfg r).lockouts.get? key = some until_) :
    s.lockouts.get? key = some until_ := by
  have hunaged : (unaged cfg s r).get? key = some until_ := by
    rw [lockouts_pruneTracking] at h
    split at h
    · exact WriteRate.get?_newest h
    · exact h
  rw [unaged, Dict.get?_restrict] at hunaged
  split at hunaged
  · exact hunaged
  · cases hunaged

def LockedStruck : Prop := ∀ k ∈ s.lockouts.keys, k ∈ s.strikes.keys

def NoOrphans : Prop := ∀ k ∈ s.strikes.keys, k ∈ s.lockouts.keys

theorem agedOut_eq_false {s : SecurityState} {r : Reading} {key : String}
    (h : key ∉ s.lockouts.keys) : agedOut cfg s r key = false := by
  rw [agedOut, (Dict.get?_eq_none_iff s.lockouts key).2 h]

theorem length_strikes_unaged {s : SecurityState} (h : LockedStruck s) (r : Reading) :
    (s.strikes.restrict fun key => !agedOut cfg s r key).items.length =
      (unaged cfg s r).items.length + (orphans s).items.length := by
  have hperm : (s.strikes.keys.filter fun k => s.lockouts.contains k).Perm s.lockouts.keys := by
    have hnodup : (s.strikes.keys.filter fun k => s.lockouts.contains k).Nodup :=
      s.strikes.nodup.filter _
    refine (List.perm_ext_iff_of_nodup hnodup s.lockouts.nodup).2 ?_
    intro k
    rw [List.mem_filter, Dict.contains_iff_mem_keys]
    exact ⟨fun hk => hk.2, fun hk => ⟨h k hk, hk⟩⟩
  have horphan : ∀ k ∈ s.strikes.keys.filter (fun k => !s.lockouts.contains k),
      (!agedOut cfg s r k) = true := by
    intro k hk
    have hnot : k ∉ s.lockouts.keys := by
      intro hmem
      have hcontains := Dict.contains_iff_mem_keys.2 hmem
      have hfalse := (List.mem_filter.1 hk).2
      rw [hcontains] at hfalse
      cases hfalse
    rw [agedOut_eq_false hnot]
    rfl
  rw [← Dict.length_keys, ← Dict.length_keys, ← Dict.length_keys, unaged, orphans,
    Dict.keys_restrict, Dict.keys_restrict, Dict.keys_restrict, ← List.countP_eq_length_filter,
    ← List.countP_eq_length_filter,
    List.countP_eq_countP_filter_add s.strikes.keys _ fun k => s.lockouts.contains k,
    hperm.countP_eq, List.countP_eq_length.2 horphan]

theorem bounded_iff (cfg : SecurityConfig) {s : SecurityState} (h : LockedStruck s) (r : Reading) :
    Bounded cfg s r ↔ HasRoom cfg s r := by
  have hstrikes : (s.pruneTracking cfg r).strikes.items.length ≤ maxTrackedKeys ↔
      HasRoom cfg s r := by
    rw [strikes_pruneTracking, HasRoom]
    split
    · rename_i hmany
      have hle := Dict.length_le_of_keys_subset (d := ((s.strikes.restrict fun key =>
        !agedOut cfg s r key).restrict fun key => (s.pruneTracking cfg r).lockouts.contains key))
        (e := (s.pruneTracking cfg r).lockouts)
        fun k hk => Dict.contains_iff_mem_keys.1 (Dict.mem_keys_restrict.1 hk).2
      exact ⟨fun _ => .inl hmany, fun _ => hle.trans (length_lockouts_le s r)⟩
    · rename_i hfew
      rw [length_strikes_unaged h r]
      exact ⟨.inr, fun hroom => hroom.resolve_left hfew⟩
  constructor
  · intro hbounded
    exact hstrikes.1 hbounded.strikes
  · intro hroom
    exact ⟨length_pruneTimes_le _ _, length_pruneTimes_le _ _, length_lockouts_le s r,
      hstrikes.2 hroom, fun _ _ => get?_lockouts_pruneTracking⟩

theorem hasRoom_of_noOrphans {s : SecurityState} (h : NoOrphans s) (r : Reading) :
    HasRoom cfg s r := by
  have hnone : (orphans s).items.length = 0 := by
    rw [← Dict.length_keys, orphans, Dict.keys_restrict, List.length_eq_zero_iff,
      List.filter_eq_nil_iff]
    intro k hk
    rw [Dict.contains_iff_mem_keys.2 (h k hk)]
    exact Bool.false_ne_true
  rw [HasRoom, hnone, Nat.add_zero]
  exact lt_or_ge _ _

/-! ## What the sections keep -/

def Lapsed : Prop :=
  ∃ until_, s.lockouts.get? key = some until_ ∧ until_ ≠ 0 ∧ until_ ≤ now

def Looks (cfg : SecurityConfig) (L : SecurityState → String → ℚ → Prop) (s : SecurityState)
    (a : Section) (e : Reading) : Prop :=
  match a with
  | .openLogin username clientIp =>
      L (s.pruneTracking cfg e) (userKey username) e.mono ∧
        L ((s.pruneTracking cfg e).lockedOut (userKey username) e.mono).1 (ipKey clientIp) e.mono
  | .lockedOut key => L s key e.mono
  | .failSecondFactor username =>
      L (s.recordFailure cfg (userKey username) e.mono) (userKey username) e.mono
  | _ => True

theorem lockedOut_cases :
    (s.lockedOut key now).1 = s ∨ (Lapsed s key now ∧
      (s.lockedOut key now).1 = { s with lockouts := s.lockouts.erase key }) := by
  rw [lockedOut]
  split
  · rename_i until_ hget
    split
    · exact .inl rfl
    · rename_i hzero
      split
      · exact .inl rfl
      · rename_i hrun
        exact .inr ⟨⟨until_, hget, hzero, not_lt.1 hrun⟩, rfl⟩
  · exact .inl rfl

theorem recordFailure_cases :
    ((s.recordFailure cfg key now).lockouts = s.lockouts ∧
      (s.recordFailure cfg key now).strikes = s.strikes) ∨
    ∃ until_ n, (s.recordFailure cfg key now).lockouts = s.lockouts.set key until_ ∧
      (s.recordFailure cfg key now).strikes = s.strikes.set key n := by
  simp only [recordFailure]
  split
  · exact .inr ⟨_, _, rfl, rfl⟩
  · exact .inl ⟨rfl, rfl⟩

section Keeps

variable {I : SecurityState → Prop} {L : SecurityState → String → ℚ → Prop}

theorem keeps_closeLogin
    (hcongr : ∀ s s', s'.lockouts = s.lockouts → s'.strikes = s.strikes → I s → I s')
    (hfail : ∀ s key now, I s → I (s.recordFailure cfg key now))
    {s : SecurityState} (hs : I s) (username clientIp : String) (user : Option User) (ok : Bool)
    (tokenId fingerprint : String) (r : Reading) :
    I (s.closeLogin cfg username clientIp user ok tokenId fingerprint r).1 := by
  have hboth := hfail _ (ipKey clientIp) r.mono (hfail s (userKey username) r.mono hs)
  rcases user with - | user
  · exact hboth
  · simp only [closeLogin]
    split
    · exact hcongr s _ rfl rfl hs
    · exact hboth

theorem keeps_openLogin
    (hcongr : ∀ s s', s'.lockouts = s.lockouts → s'.strikes = s.strikes → I s → I s')
    (hprune : ∀ s r, I s → I (s.pruneTracking cfg r))
    (hlook : ∀ s key now, L s key now → I s → I (s.lockedOut key now).1)
    {s : SecurityState} (hs : I s) {username clientIp : String} {r : Reading}
    (hl : Looks cfg L s (.openLogin username clientIp) r) :
    I (s.openLogin cfg username clientIp r).1 := by
  have hfirst := hlook _ _ _ hl.1 (hprune s r hs)
  have hsecond := hlook _ _ _ hl.2 hfirst
  rw [openLogin]
  split
  · rename_i s₁ remaining heq
    rw [heq] at hfirst
    exact hfirst
  · rename_i s₁ heq
    rw [heq] at hsecond
    split
    · rename_i s₂ remaining heq₂
      rw [heq₂] at hsecond
      exact hsecond
    · rename_i s₂ heq₂
      rw [heq₂] at hsecond
      obtain ⟨u, hu⟩ := reloadUser_changes s₂ username r
      change I (s₂.reloadUser username r).1
      rw [hu]
      exact hcongr s₂ _ rfl rfl hsecond

theorem keeps_perform
    (hcongr : ∀ s s', s'.lockouts = s.lockouts → s'.strikes = s.strikes → I s → I s')
    (hprune : ∀ s r, I s → I (s.pruneTracking cfg r))
    (hfail : ∀ s key now, I s → I (s.recordFailure cfg key now))
    (hlook : ∀ s key now, L s key now → I s → I (s.lockedOut key now).1)
    {t : ℕ} {a : Section} {e : Reading} {s s' : SecurityState} {b : a.Answer} (hs : I s)
    (hl : Looks cfg L s a e) (h : (securityMachine cfg w).perform t a e s = some (s', b)) :
    I s' := by
  by_cases htracking : WriteRate.isTrackingSection a = true
  · cases a
    case openLogin username clientIp =>
      have hfst : (s.openLogin cfg username clientIp e).1 = s' :=
        congrArg Prod.fst (Option.some.inj h)
      rw [← hfst]
      exact keeps_openLogin hcongr hprune hlook hs hl
    case closeLogin username clientIp user ok tokenId fingerprint =>
      have hfst : (s.closeLogin cfg username clientIp user ok tokenId fingerprint e).1 = s' :=
        congrArg Prod.fst (Option.some.inj h)
      rw [← hfst]
      exact keeps_closeLogin hcongr hfail hs _ _ _ _ _ _ _
    case checkRate key perMinute =>
      obtain ⟨table, hr⟩ := s.checkRate_changes key perMinute e.mono
      obtain rfl := performed hr h
      exact hcongr s _ rfl rfl hs
    case lockedOut key =>
      have hfst : (s.lockedOut key e.mono).1 = s' := congrArg Prod.fst (Option.some.inj h)
      rw [← hfst]
      exact hlook s key e.mono hl hs
    case failSecondFactor username =>
      have hfst : s.failSecondFactor cfg username e = s' := congrArg Prod.fst (Option.some.inj h)
      have hlooked := hlook _ _ _ hl (hfail s (userKey username) e.mono hs)
      rw [← hfst, failSecondFactor]
      split
      · rename_i s₁ remaining heq
        rw [heq] at hlooked
        exact hcongr s₁ _ rfl rfl hlooked
      · rename_i s₁ heq
        rw [heq] at hlooked
        exact hlooked
    all_goals cases htracking
  · obtain ⟨-, hlockouts, hstrikes⟩ := WriteRate.tracking_perform (by simpa using htracking) h
    exact hcongr s s' hlockouts hstrikes hs

end Keeps

/-! ## Every run -/

theorem lockedStruck_pruneTracking {s : SecurityState} (hs : LockedStruck s) (r : Reading) :
    LockedStruck (s.pruneTracking cfg r) := by
  intro k hk
  have hunaged : k ∈ (unaged cfg s r).keys := by
    obtain ⟨until_, hget⟩ := Dict.exists_get?_of_mem hk
    rw [lockouts_pruneTracking] at hget
    split at hget
    · exact Dict.mem_keys_of_get? (WriteRate.get?_newest hget)
    · exact Dict.mem_keys_of_get? hget
  obtain ⟨hlocked, hage⟩ := Dict.mem_keys_restrict.1 hunaged
  have hstruck : k ∈ (s.strikes.restrict fun key => !agedOut cfg s r key).keys :=
    Dict.mem_keys_restrict.2 ⟨hs k hlocked, hage⟩
  rw [strikes_pruneTracking]
  split
  · exact Dict.mem_keys_restrict.2 ⟨hstruck, Dict.contains_iff_mem_keys.2 hk⟩
  · exact hstruck

theorem noOrphans_pruneTracking {s : SecurityState} (hs : NoOrphans s) (r : Reading) :
    NoOrphans (s.pruneTracking cfg r) := by
  intro k hk
  rw [strikes_pruneTracking] at hk
  split at hk
  · exact Dict.contains_iff_mem_keys.1 (Dict.mem_keys_restrict.1 hk).2
  · rename_i hfew
    rw [lockouts_pruneTracking, if_neg hfew]
    obtain ⟨hstruck, hage⟩ := Dict.mem_keys_restrict.1 hk
    exact Dict.mem_keys_restrict.2 ⟨hs k hstruck, hage⟩

theorem lockedStruck_recordFailure {s : SecurityState} (hs : LockedStruck s) (key : String)
    (now : ℚ) : LockedStruck (s.recordFailure cfg key now) := by
  intro k hk
  rcases recordFailure_cases s key now with ⟨hlockouts, hstrikes⟩ | ⟨until_, n, hlockouts, hstrikes⟩
  · rw [hlockouts] at hk
    rw [hstrikes]
    exact hs k hk
  · rw [hlockouts, Dict.mem_keys_set] at hk
    rw [hstrikes, Dict.mem_keys_set]
    exact hk.imp_right (hs k)

theorem noOrphans_recordFailure {s : SecurityState} (hs : NoOrphans s) (key : String)
    (now : ℚ) : NoOrphans (s.recordFailure cfg key now) := by
  intro k hk
  rcases recordFailure_cases s key now with ⟨hlockouts, hstrikes⟩ | ⟨until_, n, hlockouts, hstrikes⟩
  · rw [hstrikes] at hk
    rw [hlockouts]
    exact hs k hk
  · rw [hstrikes, Dict.mem_keys_set] at hk
    rw [hlockouts, Dict.mem_keys_set]
    exact hk.imp_right (hs k)

theorem lockedStruck_lockedOut {s : SecurityState} (hs : LockedStruck s) (key : String)
    (now : ℚ) : LockedStruck (s.lockedOut key now).1 := by
  rcases lockedOut_cases s key now with hsame | ⟨-, hdrop⟩
  · rw [hsame]
    exact hs
  · rw [hdrop]
    intro k hk
    exact hs k (Dict.mem_keys_erase.1 hk).2

theorem noOrphans_lockedOut {s : SecurityState} (hs : NoOrphans s) {key : String} {now : ℚ}
    (hlapsed : ¬ Lapsed s key now) : NoOrphans (s.lockedOut key now).1 := by
  rw [(lockedOut_cases s key now).resolve_right fun hdrop => hlapsed hdrop.1]
  exact hs

variable (cfg) in
def NoLapsedLookup (p : Pool SecurityState SecurityOp Outcome Section.Answer) :
    PoolMove Reading SecurityOp AccountChange → Prop
  | .step t e =>
      match p.calls t with
      | some ⟨_, .act a _⟩ => Looks cfg (fun s key now => ¬ Lapsed s key now) p.shared a e
      | _ => True
  | _ => True

variable {p : Pool SecurityState SecurityOp Outcome Section.Answer}

theorem lockedStruck_step
    (hp : LockedStruck p.shared) (m : PoolMove Reading SecurityOp AccountChange) :
    LockedStruck ((securityMachine cfg w).step p m).shared := by
  rcases (securityMachine cfg w).shared_step p m with
    hsame | ⟨t, e, op, a, k, s, b, -, -, hperform, hs⟩ | ⟨x, -, hx⟩
  · rw [hsame]
    exact hp
  · rw [hs]
    refine keeps_perform (I := LockedStruck) (L := fun _ _ _ => True) ?_
      (fun _ r h => lockedStruck_pruneTracking h r)
      (fun _ key now h => lockedStruck_recordFailure h key now)
      (fun _ key now _ h => lockedStruck_lockedOut h key now) hp ?_ hperform
    · intro s s' hlockouts hstrikes h k hk
      rw [hlockouts] at hk
      rw [hstrikes]
      exact h k hk
    · cases a
      case openLogin => exact ⟨trivial, trivial⟩
      all_goals trivial
  · rw [hx]
    exact hp

theorem noOrphans_step (hp : NoOrphans p.shared) {m : PoolMove Reading SecurityOp AccountChange}
    (hm : NoLapsedLookup cfg p m) :
    NoOrphans ((securityMachine cfg w).step p m).shared := by
  rcases (securityMachine cfg w).shared_step p m with
    hsame | ⟨t, e, op, a, k, s, b, rfl, hcall, hperform, hs⟩ | ⟨x, -, hx⟩
  · rw [hsame]
    exact hp
  · rw [hs]
    rw [NoLapsedLookup, hcall] at hm
    refine keeps_perform (I := NoOrphans) ?_ (fun _ r h => noOrphans_pruneTracking h r)
      (fun _ key now h => noOrphans_recordFailure h key now)
      (fun _ _ _ hlapsed h => noOrphans_lockedOut h hlapsed) hp hm hperform
    intro s s' hlockouts hstrikes h k hk
    rw [hstrikes] at hk
    rw [hlockouts]
    exact h k hk
  · rw [hx]
    exact hp

/-- The manager after a run of interleaved calls, from its construction. -/
def after (cfg : SecurityConfig) (w : SecurityWorld) (store : Accounts)
    (ms : List (PoolMove Reading SecurityOp AccountChange)) : SecurityState :=
  (ms.foldl (securityMachine cfg w).step (Machine.quiet (start store))).shared

theorem lockedStruck_after (cfg : SecurityConfig) (w : SecurityWorld) (store : Accounts)
    (ms : List (PoolMove Reading SecurityOp AccountChange)) :
    LockedStruck (after cfg w store ms) := by
  have hstart : LockedStruck (start store) := fun k hk => hk
  exact Along.invariant (P := fun _ _ => True)
    (I := fun p : Pool SecurityState SecurityOp Outcome Section.Answer => LockedStruck p.shared)
    (fun p m hp _ => lockedStruck_step hp m) hstart (Along.of_forall (fun _ _ => trivial) _ ms)

theorem noOrphans_after {store : Accounts}
    {ms : List (PoolMove Reading SecurityOp AccountChange)}
    (h : Along (securityMachine cfg w).step (NoLapsedLookup cfg) (Machine.quiet (start store)) ms) :
    NoOrphans (after cfg w store ms) := by
  have hstart : NoOrphans (start store) := fun k hk => hk
  exact Along.invariant
    (I := fun p : Pool SecurityState SecurityOp Outcome Section.Answer => NoOrphans p.shared)
    (fun p m hp hm => noOrphans_step hp hm) hstart h

/-- After any run the tables are bounded once pruned exactly when there is room
for the strikes, and there is in every run whose lookups never find a lockout
that has run out. -/
theorem bounded_after (cfg : SecurityConfig) (w : SecurityWorld) (store : Accounts)
    (ms : List (PoolMove Reading SecurityOp AccountChange)) (r : Reading) :
    (Bounded cfg (after cfg w store ms) r ↔ HasRoom cfg (after cfg w store ms) r) ∧
      (Along (securityMachine cfg w).step (NoLapsedLookup cfg) (Machine.quiet (start store)) ms →
        Bounded cfg (after cfg w store ms) r) := by
  have hiff := bounded_iff cfg (lockedStruck_after cfg w store ms) r
  refine ⟨hiff, fun h => ?_⟩
  exact hiff.2 (hasRoom_of_noOrphans (noOrphans_after h) r)

/-! ## Callers that are locked out once -/

def twoAttempts : SecurityConfig where
  sessionTtl := 1800
  maxLoginAttempts := 2
  lockoutSec := 60
  writeRatePerMinute := 10

variable (caller : String) (t : ℚ)

def atTime (t : ℚ) : Reading := ⟨t, 0, true⟩

theorem trackingHorizon_twoAttempts : trackingHorizon twoAttempts = 240 := by
  rw [trackingHorizon, twoAttempts]
  norm_num

def failedLogin : SecurityState :=
  ((s.openLogin twoAttempts caller caller (atTime t)).1.recordFailure twoAttempts
    (userKey caller) t).recordFailure twoAttempts (ipKey caller) t

theorem userKey_ne_ipKey (u v : String) : userKey u ≠ ipKey v := by
  intro h
  have hlist := congrArg String.toList h
  simp [userKey, ipKey, String.toList_append] at hlist

section Pruned

variable {s : SecurityState} {t : ℚ}

theorem pruneTracking_recent (hfew : s.lockouts.items.length ≤ maxTrackedKeys)
    (h : ∀ k until_, s.lockouts.get? k = some until_ → t ≤ until_ + 240) :
    (s.pruneTracking twoAttempts (atTime t)).lockouts = s.lockouts ∧
      (s.pruneTracking twoAttempts (atTime t)).strikes = s.strikes := by
  have hage : ∀ k, agedOut twoAttempts s (atTime t) k = false := by
    intro k
    rw [agedOut]
    split
    · rename_i until_ hget
      rw [trackingHorizon_twoAttempts, decide_eq_false_iff_not]
      exact not_lt.2 (h k until_ hget)
    · rfl
  have hall : ∀ {α : Type} (d : Dict String α),
      (d.restrict fun key => !agedOut twoAttempts s (atTime t) key) = d := by
    intro α d
    apply Dict.ext_items
    rw [Dict.restrict, List.filter_eq_self]
    intro kv _
    rw [hage]
    rfl
  have hunaged : unaged twoAttempts s (atTime t) = s.lockouts := hall s.lockouts
  rw [strikes_pruneTracking, lockouts_pruneTracking, hunaged, if_neg (not_lt.2 hfew),
    if_neg (not_lt.2 hfew), hall]
  exact ⟨rfl, rfl⟩

theorem get?_pruneTracking (hnone : s.lockouts = Dict.empty) (key : String) :
    (s.pruneTracking twoAttempts (atTime t)).lockouts.get? key = none := by
  rw [(pruneTracking_recent (by rw [hnone]; exact Nat.zero_le _)
    (by rw [hnone]; intro k until_ hget; cases hget)).1, hnone]
  rfl

theorem pruneTimes_old {table : Dict String (List ℚ)}
    (h : ∀ k v, table.get? k = some v → v = [] ∨ latest v + 240 < t) :
    pruneTimes twoAttempts t table = Dict.empty := by
  have hnone : recentTimes twoAttempts t table = Dict.empty := by
    apply Dict.ext_items
    rw [recentTimes, Dict.keep, Dict.empty, List.filter_eq_nil_iff]
    intro kv hkv
    rcases h kv.1 kv.2 ((Dict.mem_items_iff table kv.1 kv.2).1 hkv) with hempty | hold
    · simp [hempty]
    · have hlate : 240 < t - latest kv.2 := by linarith
      simp [trackingHorizon_twoAttempts, hlate]
  rw [pruneTimes, hnone, if_neg (by decide)]

theorem pruneTimes_recent {table : Dict String (List ℚ)}
    (hfew : table.items.length ≤ maxTrackedKeys)
    (h : ∀ k v, table.get? k = some v → v ≠ [] ∧ t ≤ latest v + 240) :
    pruneTimes twoAttempts t table = table := by
  have hall : recentTimes twoAttempts t table = table := by
    apply Dict.ext_items
    rw [recentTimes, Dict.keep, List.filter_eq_self]
    intro kv hkv
    obtain ⟨hne, hlate⟩ := h kv.1 kv.2 ((Dict.mem_items_iff table kv.1 kv.2).1 hkv)
    have hnot : ¬ 240 < t - latest kv.2 := by linarith
    simp [trackingHorizon_twoAttempts, hne, hnot]
  rw [pruneTimes, hall, if_neg (not_lt.2 hfew)]

end Pruned

def both {α : Type} (caller : String) (v : α) : Dict String α :=
  (Dict.empty.set (userKey caller) v).set (ipKey caller) v

theorem get?_both {α : Type} {caller k : String} {v v' : α} (h : (both caller v).get? k = some v') :
    v' = v := by
  rw [both, Dict.get?_set] at h
  split at h
  · exact (Option.some.inj h).symm
  · rw [Dict.get?_set] at h
    split at h
    · exact (Option.some.inj h).symm
    · cases h

theorem items_both {α : Type} (caller : String) (v : α) :
    (both caller v).items = [(userKey caller, v), (ipKey caller, v)] := by
  have hne : ipKey caller ∉ ((Dict.empty : Dict String α).set (userKey caller) v).keys := by
    rw [Dict.mem_keys_set]
    rintro (heq | hmem)
    · exact userKey_ne_ipKey caller caller heq.symm
    · cases hmem
  rw [both, Dict.items_set_of_notMem hne, Dict.items_set_of_notMem (List.not_mem_nil)]
  rfl

section Lookups

variable {s : SecurityState} {key : String} {t : ℚ}

theorem lockedOut_free (h : s.lockouts.get? key = none) : s.lockedOut key t = (s, none) := by
  rw [lockedOut, h]

theorem lockedOut_lapsed {until_ : ℚ} (h : s.lockouts.get? key = some until_) (hzero : until_ ≠ 0)
    (hrun : until_ ≤ t) :
    s.lockedOut key t = ({ s with lockouts := s.lockouts.erase key }, none) := by
  simp only [lockedOut, h, if_neg hzero, if_neg (not_lt.2 hrun)]

theorem recordFailure_first (h : s.failures.get? key = none) :
    s.recordFailure twoAttempts key t = { s with failures := s.failures.set key [t] } := by
  simp [recordFailure, Dict.getD, h, twoAttempts]

theorem recordFailure_second (h : s.failures.get? key = some [t])
    (hstrikes : s.strikes.get? key = none) :
    s.recordFailure twoAttempts key t =
      { s with
        strikes := s.strikes.set key 1
        lockouts := s.lockouts.set key (t + 60)
        failures := s.failures.set key [] } := by
  simp [recordFailure, Dict.getD, h, hstrikes, twoAttempts]

theorem openLogin_unknown {caller : String} (hstore : s.store = Accounts.empty)
    {l₁ l₂ : SecurityState}
    (hfirst : (s.pruneTracking twoAttempts (atTime t)).lockedOut (userKey caller) t = (l₁, none))
    (hsecond : l₁.lockedOut (ipKey caller) t = (l₂, none)) :
    ∃ users, s.openLogin twoAttempts caller caller (atTime t) =
      ({ l₂ with users := users }, .inr none) := by
  have hl₂ : l₂.store = Accounts.empty := by
    obtain ⟨d₁, h₁⟩ :=
      lockedOut_changes (s.pruneTracking twoAttempts (atTime t)) (userKey caller) t
    rw [hfirst] at h₁
    obtain ⟨d₂, h₂⟩ := lockedOut_changes l₁ (ipKey caller) t
    rw [hsecond] at h₂
    dsimp only at h₁ h₂
    rw [h₂, h₁]
    exact hstore
  refine ⟨l₂.users.delete caller, ?_⟩
  have hreload : l₂.reloadUser caller (atTime t) =
      ({ l₂ with users := l₂.users.delete caller }, none) := by
    rw [reloadUser, hl₂]
    rfl
  rw [openLogin]
  simp only [atTime] at hfirst hreload ⊢
  rw [hfirst]
  dsimp only
  rw [hsecond]
  dsimp only
  rw [hreload]

end Lookups

structure Tables (s : SecurityState) (failures : Dict String (List ℚ)) (lockouts : Dict String ℚ)
    (strikes : Dict String ℕ) : Prop where
  store : s.store = Accounts.empty
  failures : s.failures = failures
  lockouts : s.lockouts = lockouts
  strikes : s.strikes = strikes

namespace Tables

variable {s : SecurityState} {caller : String} {t : ℚ} {lockouts : Dict String ℚ}
  {strikes : Dict String ℕ}

theorem fail_first (h : Tables s Dict.empty lockouts strikes) :
    Tables ((s.recordFailure twoAttempts (userKey caller) t).recordFailure twoAttempts
      (ipKey caller) t) (both caller [t]) lockouts strikes := by
  have huser : s.failures.get? (userKey caller) = none := by
    rw [h.failures]
    rfl
  have hip : (s.failures.set (userKey caller) [t]).get? (ipKey caller) = none := by
    rw [Dict.get?_set_of_ne _ (userKey_ne_ipKey caller caller).symm, h.failures]
    rfl
  rw [recordFailure_first huser]
  have hsecond := recordFailure_first (t := t)
    (s := { s with failures := s.failures.set (userKey caller) [t] }) hip
  rw [hsecond]
  refine ⟨h.store, ?_, h.lockouts, h.strikes⟩
  dsimp only
  rw [h.failures]
  rfl

theorem fail_second (h : Tables s (both caller [t]) Dict.empty strikes)
    (huser : strikes.get? (userKey caller) = none) (hip : strikes.get? (ipKey caller) = none) :
    Tables ((s.recordFailure twoAttempts (userKey caller) t).recordFailure twoAttempts
        (ipKey caller) t)
      (((both caller [t]).set (userKey caller) []).set (ipKey caller) []) (both caller (t + 60))
      ((strikes.set (userKey caller) 1).set (ipKey caller) 1) := by
  have hne := userKey_ne_ipKey caller caller
  have hfirst : s.failures.get? (userKey caller) = some [t] := by
    rw [h.failures, both, Dict.get?_set_of_ne _ hne, Dict.get?_set_self]
  have hsecond : (s.failures.set (userKey caller) []).get? (ipKey caller) = some [t] := by
    rw [Dict.get?_set_of_ne _ hne.symm, h.failures, both, Dict.get?_set_self]
  have hstrike : (s.strikes.set (userKey caller) 1).get? (ipKey caller) = none := by
    rw [Dict.get?_set_of_ne _ hne.symm, h.strikes, hip]
  rw [recordFailure_second hfirst (by rw [h.strikes, huser])]
  rw [recordFailure_second (t := t) (s := { s with
    strikes := s.strikes.set (userKey caller) 1
    lockouts := s.lockouts.set (userKey caller) (t + 60)
    failures := s.failures.set (userKey caller) [] }) hsecond hstrike]
  refine ⟨h.store, ?_, ?_, ?_⟩
  · dsimp only
    rw [h.failures]
  · dsimp only
    rw [h.lockouts]
    rfl
  · dsimp only
    rw [h.strikes]

end Tables

section ThreeLogins

variable {s : SecurityState} {caller : String} {t : ℚ} {strikes : Dict String ℕ}

theorem first_login (caller : String) {failures : Dict String (List ℚ)}
    (h : Tables s failures Dict.empty strikes)
    (hold : ∀ k v, failures.get? k = some v → v = [] ∨ latest v + 240 < t) :
    (s.openLogin twoAttempts caller caller (atTime t)).2 = .inr none ∧
      Tables (failedLogin s caller t) (both caller [t]) Dict.empty strikes := by
  obtain ⟨hlockouts, hstrikes⟩ := pruneTracking_recent (s := s) (t := t)
    (by rw [h.lockouts]; exact Nat.zero_le _)
    (by rw [h.lockouts]; intro k until_ hget; cases hget)
  have hfailures : (s.pruneTracking twoAttempts (atTime t)).failures = Dict.empty := by
    change pruneTimes twoAttempts t s.failures = Dict.empty
    rw [h.failures]
    exact pruneTimes_old hold
  have hfree : ∀ key, (s.pruneTracking twoAttempts (atTime t)).lockedOut key t =
      (s.pruneTracking twoAttempts (atTime t), none) :=
    fun key => lockedOut_free (get?_pruneTracking h.lockouts key)
  obtain ⟨users, hopen⟩ := openLogin_unknown h.store (hfree (userKey caller)) (hfree (ipKey caller))
  refine ⟨congrArg Prod.snd hopen, ?_⟩
  rw [failedLogin, hopen]
  exact Tables.fail_first ⟨h.store, hfailures, hlockouts.trans h.lockouts,
    hstrikes.trans h.strikes⟩

theorem second_login (h : Tables s (both caller [t]) Dict.empty strikes)
    (huser : strikes.get? (userKey caller) = none) (hip : strikes.get? (ipKey caller) = none) :
    (s.openLogin twoAttempts caller caller (atTime t)).2 = .inr none ∧
      Tables (failedLogin s caller t) (((both caller [t]).set (userKey caller) []).set
        (ipKey caller) []) (both caller (t + 60))
        ((strikes.set (userKey caller) 1).set (ipKey caller) 1) := by
  obtain ⟨hlockouts, hstrikes⟩ := pruneTracking_recent (s := s) (t := t)
    (by rw [h.lockouts]; exact Nat.zero_le _)
    (by rw [h.lockouts]; intro k until_ hget; cases hget)
  have hfailures : (s.pruneTracking twoAttempts (atTime t)).failures = both caller [t] := by
    change pruneTimes twoAttempts t s.failures = both caller [t]
    rw [h.failures]
    apply pruneTimes_recent
    · rw [items_both]
      exact Nat.le_of_ble_eq_true rfl
    · intro k v hget
      rw [get?_both hget]
      refine ⟨List.cons_ne_nil _ _, ?_⟩
      change t ≤ t + 240
      linarith
  have hfree : ∀ key, (s.pruneTracking twoAttempts (atTime t)).lockedOut key t =
      (s.pruneTracking twoAttempts (atTime t), none) :=
    fun key => lockedOut_free (get?_pruneTracking h.lockouts key)
  obtain ⟨users, hopen⟩ := openLogin_unknown h.store (hfree (userKey caller)) (hfree (ipKey caller))
  refine ⟨congrArg Prod.snd hopen, ?_⟩
  rw [failedLogin, hopen]
  exact Tables.fail_second ⟨h.store, hfailures, hlockouts.trans h.lockouts,
    hstrikes.trans h.strikes⟩ huser hip

theorem third_login (h : Tables s (((both caller [t]).set (userKey caller) []).set
      (ipKey caller) []) (both caller (t + 60)) strikes) (ht : 0 ≤ t) :
    (s.openLogin twoAttempts caller caller (atTime (t + 60))).2 = .inr none ∧
      Tables (failedLogin s caller (t + 60)) (both caller [t + 60]) Dict.empty strikes := by
  have hne := userKey_ne_ipKey caller caller
  obtain ⟨hlockouts, hstrikes⟩ := pruneTracking_recent (s := s) (t := t + 60)
    (by rw [h.lockouts, items_both]; exact Nat.le_of_ble_eq_true rfl)
    (by rw [h.lockouts]; intro k until_ hget; rw [get?_both hget]; linarith)
  have hfailures : (s.pruneTracking twoAttempts (atTime (t + 60))).failures = Dict.empty := by
    change pruneTimes twoAttempts (t + 60) s.failures = Dict.empty
    rw [h.failures]
    apply pruneTimes_old
    intro k v hget
    left
    rw [Dict.get?_set] at hget
    split at hget
    · exact (Option.some.inj hget).symm
    · rename_i hip
      rw [Dict.get?_set] at hget
      split at hget
      · exact (Option.some.inj hget).symm
      · rename_i huser
        rw [both, Dict.get?_set_of_ne _ hip, Dict.get?_set_of_ne _ huser] at hget
        cases hget
  have hpruned : (s.pruneTracking twoAttempts (atTime (t + 60))).lockouts =
      both caller (t + 60) := hlockouts.trans h.lockouts
  have huntil : t + 60 ≠ 0 := by linarith
  have hfirst := lockedOut_lapsed
    (show (s.pruneTracking twoAttempts (atTime (t + 60))).lockouts.get? (userKey caller) =
      some (t + 60) by
        rw [hpruned, both, Dict.get?_set_of_ne _ hne, Dict.get?_set_self]) huntil le_rfl
  have hsecond := lockedOut_lapsed
    (show ({ s.pruneTracking twoAttempts (atTime (t + 60)) with
      lockouts := (s.pruneTracking twoAttempts (atTime (t + 60))).lockouts.erase
        (userKey caller) } : SecurityState).lockouts.get? (ipKey caller) = some (t + 60) by
        dsimp only
        rw [hpruned, Dict.get?_erase_of_ne _ hne.symm, both, Dict.get?_set_self]) huntil le_rfl
  obtain ⟨users, hopen⟩ := openLogin_unknown h.store hfirst hsecond
  refine ⟨congrArg Prod.snd hopen, ?_⟩
  rw [failedLogin, hopen]
  refine Tables.fail_first ⟨h.store, hfailures, ?_, hstrikes.trans h.strikes⟩
  apply Dict.ext_items
  rw [hpruned]
  change ((both caller (t + 60)).items.filter fun kv => kv.1 ≠ userKey caller).filter
    (fun kv => kv.1 ≠ ipKey caller) = []
  rw [items_both]
  simp [hne.symm]

end ThreeLogins

def loginMoves : List (PoolMove Reading SecurityOp AccountChange) :=
  [.start 0 (.login caller "" "" caller ""), .step 0 (atTime t), .step 0 (atTime t)]

def threeLogins : List (PoolMove Reading SecurityOp AccountChange) :=
  loginMoves caller t ++ (loginMoves caller t ++ loginMoves caller (t + 60))

def callers (n : ℕ) : List (PoolMove Reading SecurityOp AccountChange) :=
  (List.range n).flatMap fun i : ℕ => threeLogins (toString i) (1000 * i)

theorem start_login (hidle : Machine.idle p 0 = true) (caller : String) :
    (securityMachine twoAttempts SecondFactor.countingWorld).step p
      (.start 0 (.login caller "" "" caller "")) =
      { p with calls := Function.update p.calls 0 (some ⟨.login caller "" "" caller "",
        Operations.login SecondFactor.countingWorld caller "" "" caller ""⟩) } := by
  rw [Machine.step, if_pos hidle]
  rfl

theorem shared_loginMoves (hidle : Machine.idle p 0 = true) {caller : String} {t : ℚ}
    (hopen : (p.shared.openLogin twoAttempts caller caller (atTime t)).2 = .inr none) :
    ((loginMoves caller t).foldl (securityMachine twoAttempts SecondFactor.countingWorld).step
        p).shared = failedLogin p.shared caller t ∧
      Machine.idle ((loginMoves caller t).foldl
        (securityMachine twoAttempts SecondFactor.countingWorld).step p) 0 = true := by
  obtain ⟨s₁, hpair⟩ : ∃ s₁, p.shared.openLogin twoAttempts caller caller (atTime t) =
      (s₁, .inr none) := ⟨_, Prod.ext rfl hopen⟩
  have hfirst : (securityMachine twoAttempts SecondFactor.countingWorld).perform 0
      (.openLogin caller caller) (atTime t) p.shared = some (s₁, .inr none) :=
    congrArg some hpair
  rw [failedLogin, hpair, loginMoves, List.foldl_cons, List.foldl_cons, List.foldl_cons,
    start_login hidle]
  simp only [List.foldl_nil, Machine.step, Function.update_self, Operations.login,
    Operations.atomic, Prog.perform_bind, hfirst, Function.update_idem]
  exact ⟨rfl, rfl⟩

theorem along_loginMoves (hidle : Machine.idle p 0 = true) (hnone : p.shared.lockouts = Dict.empty)
    {caller : String} {t : ℚ}
    (hopen : (p.shared.openLogin twoAttempts caller caller (atTime t)).2 = .inr none) :
    Along (securityMachine twoAttempts SecondFactor.countingWorld).step
      (NoLapsedLookup twoAttempts) p (loginMoves caller t) := by
  have hfree : ∀ key, (p.shared.pruneTracking twoAttempts (atTime t)).lockouts.get? key = none :=
    get?_pruneTracking hnone
  have hlapsed : ∀ key, ¬ Lapsed (p.shared.pruneTracking twoAttempts (atTime t)) key t := by
    rintro key ⟨until_, hget, -⟩
    cases (hfree key).symm.trans hget
  obtain ⟨s₁, hpair⟩ : ∃ s₁, p.shared.openLogin twoAttempts caller caller (atTime t) =
      (s₁, .inr none) := ⟨_, Prod.ext rfl hopen⟩
  have hfirst : (securityMachine twoAttempts SecondFactor.countingWorld).perform 0
      (.openLogin caller caller) (atTime t) p.shared = some (s₁, .inr none) :=
    congrArg some hpair
  rw [loginMoves, Along.cons_iff, Along.cons_iff, Along.cons_iff, start_login hidle]
  simp only [Machine.step, Function.update_self, Operations.login, Operations.atomic,
    Prog.perform_bind, hfirst]
  refine ⟨trivial, ?_, ?_, Along.nil _⟩
  · simp only [NoLapsedLookup, Function.update_self]
    refine ⟨hlapsed _, ?_⟩
    rw [lockedOut_free (hfree _)]
    exact hlapsed _
  · simp only [NoLapsedLookup, Function.update_self]
    trivial

/-- A caller who is locked out, and not heard of again. -/
theorem bounded_after_twoLogins :
    Bounded twoAttempts (after twoAttempts SecondFactor.countingWorld Accounts.empty
      (loginMoves "mallory" 0 ++ loginMoves "mallory" 0)) (atTime 100) := by
  refine (bounded_after twoAttempts _ _ _ _).2 ?_
  have htables : Tables (Machine.quiet (start Accounts.empty) :
      Pool SecurityState SecurityOp Outcome Section.Answer).shared Dict.empty Dict.empty
      Dict.empty := ⟨rfl, rfl, rfl, rfl⟩
  obtain ⟨hopen₁, htables₁⟩ := first_login (t := 0) "mallory" htables
    (fun k v hget => by cases hget)
  obtain ⟨hshared₁, hidle₁⟩ := shared_loginMoves rfl hopen₁
  rw [← hshared₁] at htables₁
  obtain ⟨hopen₂, -⟩ := second_login htables₁ rfl rfl
  exact Along.append_iff.mpr ⟨along_loginMoves rfl rfl hopen₁,
    along_loginMoves hidle₁ htables₁.lockouts hopen₂⟩

structure Left (n : ℕ) (p : Pool SecurityState SecurityOp Outcome Section.Answer)
    (strikes : Dict String ℕ) : Prop where
  idle : Machine.idle p 0 = true
  tables : ∃ failures, Tables p.shared failures Dict.empty strikes ∧
    ∀ k v, failures.get? k = some v → v = [] ∨ latest v + 240 < 1000 * n
  struck : ∀ k, k ∈ strikes.keys ↔
    ∃ i < n, k = userKey (toString i) ∨ k = ipKey (toString i)

theorem userKey_injective : Function.Injective userKey := by
  intro u v h
  have hlist := congrArg String.toList h
  simp only [userKey, String.toList_append] at hlist
  exact String.toList_inj.mp (List.append_cancel_left hlist)

theorem ipKey_injective : Function.Injective ipKey := by
  intro u v h
  have hlist := congrArg String.toList h
  simp only [ipKey, String.toList_append] at hlist
  exact String.toList_inj.mp (List.append_cancel_left hlist)

theorem Left.succ {n : ℕ} {p : Pool SecurityState SecurityOp Outcome Section.Answer}
    {strikes : Dict String ℕ} (h : Left n p strikes) :
    Left (n + 1) ((threeLogins (toString n) (1000 * n)).foldl
        (securityMachine twoAttempts SecondFactor.countingWorld).step p)
      ((strikes.set (userKey (toString n)) 1).set (ipKey (toString n)) 1) := by
  obtain ⟨failures, htables, hold⟩ := h.tables
  have hfresh : ∀ i < n, toString i ≠ toString n := by
    intro i hi heq
    exact absurd (toString_injective heq) hi.ne
  have huser : strikes.get? (userKey (toString n)) = none := by
    rw [Dict.get?_eq_none_iff, h.struck]
    rintro ⟨i, hi, heq | heq⟩
    · exact hfresh i hi (userKey_injective heq.symm)
    · exact userKey_ne_ipKey _ _ heq
  have hip : strikes.get? (ipKey (toString n)) = none := by
    rw [Dict.get?_eq_none_iff, h.struck]
    rintro ⟨i, hi, heq | heq⟩
    · exact userKey_ne_ipKey _ _ heq.symm
    · exact hfresh i hi (ipKey_injective heq.symm)
  obtain ⟨hopen₁, htables₁⟩ := first_login (toString n) htables hold
  obtain ⟨hshared₁, hidle₁⟩ := shared_loginMoves h.idle hopen₁
  rw [← hshared₁] at htables₁
  obtain ⟨hopen₂, htables₂⟩ := second_login htables₁ huser hip
  obtain ⟨hshared₂, hidle₂⟩ := shared_loginMoves hidle₁ hopen₂
  rw [← hshared₂] at htables₂
  obtain ⟨hopen₃, htables₃⟩ := third_login htables₂ (by positivity)
  obtain ⟨hshared₃, hidle₃⟩ := shared_loginMoves hidle₂ hopen₃
  rw [← hshared₃] at htables₃
  rw [threeLogins, List.foldl_append, List.foldl_append]
  refine ⟨hidle₃, ⟨_, htables₃, ?_⟩, ?_⟩
  · intro k v hget
    rw [get?_both hget]
    right
    change (1000 * (n : ℚ) + 60) + 240 < 1000 * ((n + 1 : ℕ) : ℚ)
    push_cast
    linarith
  · intro k
    rw [Dict.mem_keys_set, Dict.mem_keys_set, h.struck]
    constructor
    · rintro (rfl | rfl | ⟨i, hi, hk⟩)
      · exact ⟨n, Nat.lt_succ_self n, .inr rfl⟩
      · exact ⟨n, Nat.lt_succ_self n, .inl rfl⟩
      · exact ⟨i, Nat.lt_succ_of_lt hi, hk⟩
    · rintro ⟨i, hi, hk⟩
      rcases Nat.lt_succ_iff_lt_or_eq.1 hi with hlt | rfl
      · exact .inr (.inr ⟨i, hlt, hk⟩)
      · rcases hk with rfl | rfl
        · exact .inr (.inl rfl)
        · exact .inl rfl

theorem exists_left (n : ℕ) : ∃ strikes, Left n ((callers n).foldl
    (securityMachine twoAttempts SecondFactor.countingWorld).step
      (Machine.quiet (start Accounts.empty))) strikes := by
  induction n with
  | zero =>
      refine ⟨Dict.empty, rfl, ⟨Dict.empty, ⟨rfl, rfl, rfl, rfl⟩, ?_⟩, ?_⟩
      · intro k v hget
        cases hget
      · intro k
        constructor
        · intro hk
          cases hk
        · rintro ⟨i, hi, -⟩
          exact absurd hi (Nat.not_lt_zero i)
  | succ n ih =>
      obtain ⟨strikes, hleft⟩ := ih
      have hsplit : callers (n + 1) = callers n ++ threeLogins (toString n) (1000 * n) := by
        rw [callers, List.range_succ, List.flatMap_append, List.flatMap_singleton]
        rfl
      rw [hsplit, List.foldl_append]
      exact ⟨_, hleft.succ⟩

theorem le_length_strikes {n : ℕ} {p : Pool SecurityState SecurityOp Outcome Section.Answer}
    {strikes : Dict String ℕ} (h : Left n p strikes) : 2 * n ≤ strikes.items.length := by
  have huser : ((List.range n).map fun i => userKey (toString i)).Nodup :=
    List.nodup_range.map fun i j hij =>
      toString_injective (userKey_injective hij)
  have hip : ((List.range n).map fun i => ipKey (toString i)).Nodup :=
    List.nodup_range.map fun i j hij => toString_injective (ipKey_injective hij)
  have hnodup : (((List.range n).map fun i => userKey (toString i)) ++
      (List.range n).map fun i => ipKey (toString i)).Nodup := by
    rw [List.nodup_append]
    refine ⟨huser, hip, ?_⟩
    intro k hk k' hk' heq
    obtain ⟨i, -, rfl⟩ := List.mem_map.1 hk
    obtain ⟨j, -, rfl⟩ := List.mem_map.1 hk'
    exact userKey_ne_ipKey _ _ heq
  have hsub : ∀ k ∈ ((List.range n).map fun i => userKey (toString i)) ++
      (List.range n).map (fun i => ipKey (toString i)), k ∈ strikes.keys := by
    intro k hk
    rw [h.struck]
    rcases List.mem_append.1 hk with hk | hk
    · obtain ⟨i, hi, rfl⟩ := List.mem_map.1 hk
      exact ⟨i, List.mem_range.1 hi, .inl rfl⟩
    · obtain ⟨i, hi, rfl⟩ := List.mem_map.1 hk
      exact ⟨i, List.mem_range.1 hi, .inr rfl⟩
  have hle := (hnodup.subperm hsub).length_le
  rw [Dict.length_keys, List.length_append, List.length_map, List.length_map,
    List.length_range] at hle
  omega

/-- Ten thousand and one callers without an account leave more strikes than the
tables may hold, and pruning keeps them all. -/
theorem strikes_outgrow :
    ∃ (cfg : SecurityConfig) (w : SecurityWorld) (store : Accounts)
      (ms : List (PoolMove Reading SecurityOp AccountChange)) (r : Reading),
      ¬ Bounded cfg (after cfg w store ms) r := by
  -- a variable, so that the list of logins is never unfolded
  obtain ⟨n, hn⟩ : ∃ n, n = maxTrackedKeys / 2 + 1 := ⟨_, rfl⟩
  obtain ⟨strikes, hleft⟩ := exists_left n
  refine ⟨twoAttempts, SecondFactor.countingWorld, Accounts.empty, callers n, atTime (1000 * n), ?_⟩
  intro hbounded
  obtain ⟨failures, htables, -⟩ := hleft.tables
  have hlockouts : (after twoAttempts SecondFactor.countingWorld Accounts.empty
      (callers n)).lockouts = Dict.empty := htables.lockouts
  obtain ⟨-, hkept⟩ := pruneTracking_recent (t := 1000 * n) (s := after twoAttempts
      SecondFactor.countingWorld Accounts.empty (callers n))
    (by rw [hlockouts]; exact Nat.zero_le _)
    (by rw [hlockouts]; intro k until_ hget; cases hget)
  have hle := hbounded.strikes
  rw [hkept, after, htables.strikes] at hle
  have hmany := (le_length_strikes hleft).trans hle
  rw [hn, maxTrackedKeys] at hmany
  omega

end Tracking

end Sentinel
