import Sentinel.Research.Verdicts

/-!
# What enforcement settles

The repaired configuration leaves accepted only what the store backs, promotes
nothing and is in observe mode when it is live with nothing tradable.  Checked
again it is found in order, unless it is live with nothing tradable: that is
reported and given a new version each time.
-/

namespace Sentinel

variable {δ : Type}

namespace SentinelConfig

structure NotPromoted (after before : StrategyAllocation δ) : Prop where
  name : after.name = before.name
  lifecycle : after.lifecycle = before.lifecycle ∨
    before.lifecycle = .accepted ∧ after.lifecycle = .suspended
  enabled : after.enabled = true → before.enabled = true
  parameters : after.instruments = before.instruments ∧ after.params = before.params ∧
    after.timeframe = before.timeframe ∧ after.weight = before.weight

structure Settles (env : AuthorityEnv δ) (store : VerdictStore)
    (before after : SentinelConfig δ) : Prop where
  backed : ∀ a ∈ after.strategies, a.lifecycle = .accepted → after.backed env store a = .ok ()
  strategies : List.Forall₂ NotPromoted after.strategies before.strategies
  mode : after.agent.mode.authority ≤ before.agent.mode.authority
  venue : after.execution = before.execution
  observes : after.execution.venueMode = .live →
    (∀ a ∈ after.strategies, a.tradable = false) → after.agent.mode = .observe
  settled : ∀ now, after.enforceConfigAuthority env store now = .ok (after, [], false)

variable {env : AuthorityEnv δ} {store : VerdictStore} {c : SentinelConfig δ}

/-! ## A repaired configuration -/

theorem backed_repaired (now : ℤ) (a : StrategyAllocation δ) :
    (c.repaired env store now).backed env store a = c.backed env store a := rfl

theorem checkAllocation_repaired (now : ℤ) (a : StrategyAllocation δ) :
    (c.repaired env store now).checkAllocation env store a = c.checkAllocation env store a := rfl

theorem checkAllocation_checked (a : StrategyAllocation δ) :
    c.checkAllocation env store (c.checkAllocation env store a).1 =
      ((c.checkAllocation env store a).1, none) := by
  rcases checkAllocation_cases env store c a with ⟨heq, hback⟩ | ⟨why, -, -, heq⟩
  · rw [heq, heq]
  · rw [heq, checkAllocation, if_pos (by simp [demote])]

theorem checkedStrategies_repaired (now : ℤ) :
    (c.repaired env store now).checkedStrategies env store = c.checkedStrategies env store := by
  change (c.checkedStrategies env store).map (fun a => (c.checkAllocation env store a).1) = _
  rw [checkedStrategies, List.map_map]
  apply List.map_congr_left
  intro a _
  rw [Function.comp_apply, checkAllocation_checked]

theorem violations_repaired (now : ℤ) :
    (c.repaired env store now).violations env store =
      if c.nothingTradable env store then [.nothingTradable] else [] := by
  have hnothing : (c.repaired env store now).nothingTradable env store =
      c.nothingTradable env store := by
    rw [nothingTradable, nothingTradable, checkedStrategies_repaired]
    rfl
  rw [violations, hnothing]
  have hnone : ((c.repaired env store now).strategies.filterMap fun a =>
      ((c.repaired env store now).checkAllocation env store a).2.map
        (AuthorityViolation.unbacked a.name)) = [] := by
    rw [List.filterMap_eq_nil_iff]
    intro a' ha'
    obtain ⟨a, -, rfl⟩ := List.mem_map.mp ha'
    rw [checkAllocation_repaired, checkAllocation_checked]
    rfl
  rw [hnone, List.nil_append]

theorem notPromoted_checked (a : StrategyAllocation δ) :
    NotPromoted (c.checkAllocation env store a).1 a := by
  rcases checkAllocation_cases env store c a with ⟨heq, -⟩ | ⟨why, haccepted, -, heq⟩
  · rw [heq]
    exact ⟨rfl, .inl rfl, fun h => h, rfl, rfl, rfl, rfl⟩
  · rw [heq]
    exact ⟨rfl, .inr ⟨haccepted, rfl⟩, (nomatch ·), rfl, rfl, rfl, rfl⟩

theorem backed_checked {a : StrategyAllocation δ}
    (ha : a ∈ c.checkedStrategies env store) (haccepted : a.lifecycle = .accepted) :
    c.backed env store a = .ok () := by
  obtain ⟨b, -, rfl⟩ := List.mem_map.mp ha
  rcases checkAllocation_cases env store c b with ⟨heq, hback⟩ | ⟨why, -, -, heq⟩
  · rw [heq] at haccepted ⊢
    exact hback haccepted
  · rw [heq] at haccepted
    cases haccepted

theorem wasPresent_of_checked {a : StrategyAllocation δ}
    (ha : a ∈ c.checkedStrategies env store) (haccepted : a.lifecycle = .accepted) :
    store.wasPresent = true :=
  VerdictStore.wasPresent_of_authorises (backed_checked ha haccepted)

theorem checkedStrategies_of_clean (h : c.violations env store = []) :
    c.checkedStrategies env store = c.strategies ∧ c.nothingTradable env store = false := by
  rw [violations, List.append_eq_nil_iff, List.filterMap_eq_nil_iff] at h
  obtain ⟨hall, hlive⟩ := h
  constructor
  · rw [checkedStrategies]
    conv_rhs => rw [← List.map_id c.strategies]
    apply List.map_congr_left
    intro a ha
    rcases checkAllocation_cases env store c a with ⟨heq, -⟩ | ⟨why, -, -, heq⟩
    · rw [heq]
      rfl
    · have hnone := hall a ha
      rw [heq] at hnone
      cases hnone
  · by_contra htrue
    rw [if_pos (by simpa using htrue)] at hlive
    cases hlive

/-! ## A repaired configuration -/

theorem enforce_of_clean (hclean : c.violations env store = [])
    (hpresent : (c.claimsAcceptance && !store.wasPresent) = false) (now : ℤ) :
    c.enforceConfigAuthority env store now = .ok (c, [], false) := by
  rw [enforceConfigAuthority, if_neg (by simp [hpresent]), if_pos (by simp [hclean])]

theorem observes_of_nothing (hnothing : c.nothingTradable env store = false)
    (hlive : c.execution.venueMode = .live)
    (hnone : ∀ a ∈ c.checkedStrategies env store, a.tradable = false) : False := by
  rw [nothingTradable, decide_eq_true hlive, Bool.true_and, Bool.not_eq_false'] at hnothing
  obtain ⟨a, ha, htradable⟩ := List.any_eq_true.mp hnothing
  rw [hnone a ha] at htradable
  cases htradable

theorem settles_of_clean (hclean : c.violations env store = [])
    (hpresent : (c.claimsAcceptance && !store.wasPresent) = false) :
    c.Settles env store c := by
  obtain ⟨hchecked, hnothing⟩ := checkedStrategies_of_clean hclean
  constructor
  · intro a ha haccepted
    rw [← hchecked] at ha
    exact backed_checked ha haccepted
  · rw [List.forall₂_same]
    intro a _
    exact ⟨rfl, .inl rfl, fun h => h, rfl, rfl, rfl, rfl⟩
  · exact le_rfl
  · rfl
  · intro hlive hnone
    rw [← hchecked] at hnone
    exact absurd hnone fun hnone => observes_of_nothing hnothing hlive hnone
  · exact enforce_of_clean hclean hpresent

theorem settles_of_repaired (hnothing : c.nothingTradable env store = false) (now : ℤ) :
    c.Settles env store (c.repaired env store now) := by
  constructor
  · intro a ha haccepted
    rw [backed_repaired]
    exact backed_checked ha haccepted
  · change List.Forall₂ NotPromoted (c.checkedStrategies env store) c.strategies
    rw [checkedStrategies, List.forall₂_map_left_iff, List.forall₂_same]
    intro a _
    exact notPromoted_checked a
  · rw [repaired, hnothing]
    exact le_rfl
  · rfl
  · intro hlive hnone
    exact (observes_of_nothing hnothing hlive hnone).elim
  · apply enforce_of_clean
    · rw [violations_repaired, hnothing]
      rfl
    · by_contra hbad
      rw [Bool.not_eq_false, Bool.and_eq_true, Bool.not_eq_true'] at hbad
      obtain ⟨a, ha, haccepted⟩ := List.any_eq_true.mp hbad.1
      have hthere := wasPresent_of_checked ha (of_decide_eq_true haccepted)
      rw [hthere] at hbad
      cases hbad.2

theorem not_settles_of_nothing (hnothing : c.nothingTradable env store = true) (now : ℤ) :
    ¬c.Settles env store (c.repaired env store now) := by
  intro h
  have hagain := h.settled now
  rw [enforceConfigAuthority, violations_repaired, hnothing, if_pos rfl] at hagain
  split_ifs at hagain with hmissing hempty
  · cases hempty
  · simp at hagain

def SomeTradable (env : AuthorityEnv δ) (store : VerdictStore) (c : SentinelConfig δ) : Prop :=
  ∃ a ∈ c.strategies, a.enabled = true ∧ a.lifecycle = .accepted ∧ c.backed env store a = .ok ()

theorem nothingTradable_eq_false_iff :
    c.nothingTradable env store = false ↔
      (c.execution.venueMode = .live → c.SomeTradable env store) := by
  rw [nothingTradable, Bool.and_eq_false_iff, Bool.not_eq_false', List.any_eq_true,
    decide_eq_false_iff_not, ← imp_iff_not_or]
  apply imp_congr_right
  intro _
  constructor
  · rintro ⟨a, ha, htradable⟩
    rw [StrategyAllocation.tradable, Bool.and_eq_true, decide_eq_true_eq] at htradable
    have hback := backed_checked ha htradable.2
    obtain ⟨b, hb, rfl⟩ := List.mem_map.mp ha
    rcases checkAllocation_cases env store c b with ⟨heq, -⟩ | ⟨why, -, -, heq⟩
    · rw [heq] at htradable hback
      exact ⟨b, hb, htradable.1, htradable.2, hback⟩
    · rw [heq] at htradable
      cases htradable.1
  · rintro ⟨a, ha, henabled, haccepted, hback⟩
    refine ⟨a, ?_, by simp [StrategyAllocation.tradable, henabled, haccepted]⟩
    apply List.mem_map.mpr ⟨a, ha, _⟩
    rcases checkAllocation_cases env store c a with ⟨heq, -⟩ | ⟨why, -, hwhy, -⟩
    · rw [heq]
    · rw [hback] at hwhy
      cases hwhy

/-- Enforcement settles what it returns exactly when it refuses to repair, the
configuration is not live, or some enabled strategy of it is backed. -/
theorem enforce_settles_iff (env : AuthorityEnv δ) (store : VerdictStore) (now : ℤ)
    (c : SentinelConfig δ) :
    (∀ after violations repaired,
        c.enforceConfigAuthority env store now = .ok (after, violations, repaired) →
        c.Settles env store after) ↔
      (c.claimsAcceptance = true ∧ store.wasPresent = false ∨
        (c.execution.venueMode = .live → c.SomeTradable env store)) := by
  rw [← nothingTradable_eq_false_iff]
  by_cases hmissing : (c.claimsAcceptance && !store.wasPresent) = true
  · have hraises : c.enforceConfigAuthority env store now = .error {} := by
      rw [enforceConfigAuthority, if_pos hmissing]
    rw [Bool.and_eq_true, Bool.not_eq_true'] at hmissing
    constructor
    · intro _
      exact .inl hmissing
    · intro _ after violations repaired h
      rw [hraises] at h
      cases h
  · have hpresent : (c.claimsAcceptance && !store.wasPresent) = false := by simpa using hmissing
    have hnot : ¬(c.claimsAcceptance = true ∧ store.wasPresent = false) := by
      rintro ⟨hclaims, habsent⟩
      rw [hclaims, habsent] at hpresent
      cases hpresent
    rw [or_iff_right hnot, enforceConfigAuthority, if_neg hmissing]
    by_cases hclean : c.violations env store = []
    · rw [if_pos (by simp [hclean])]
      constructor
      · intro _
        exact (checkedStrategies_of_clean hclean).2
      · rintro - after violations repaired ⟨⟩
        exact settles_of_clean hclean hpresent
    · rw [if_neg (by simpa using hclean)]
      constructor
      · intro h
        by_contra hnothing
        exact not_settles_of_nothing (by simpa using hnothing) now (h _ _ _ rfl)
      · rintro hnothing after violations repaired ⟨⟩
        exact settles_of_repaired hnothing now

end SentinelConfig

def observingConfig : SentinelConfig Unit :=
  { updatedAtNs := 0, agent := { mode := .observe, rest := () },
    execution := { venueMode := .live, broker := "oanda", rest := () },
    risk := (), news := (), research := (), others := () }

def emptyVerdicts : VerdictStore := { rows := [], existedOnOpen := false, unique := by simp }

/-- The configuration is already what enforcement asks for; it is reported and
given a new version. -/
theorem not_enforce_settles_observing :
    ¬∀ after violations repaired,
      observingConfig.enforceConfigAuthority
          { sourceDigest := "", fileSha256 := fun _ => none, digest := fun _ => "" }
          emptyVerdicts 0 = .ok (after, violations, repaired) →
        observingConfig.Settles
          { sourceDigest := "", fileSha256 := fun _ => none, digest := fun _ => "" }
          emptyVerdicts after := by
  intro h
  have hfirst := h _ _ _ rfl
  have hversion := hfirst.settled 1
  have hagain := Except.ok.inj hversion
  have hviolations := congrArg (fun r => r.2.2) hagain
  cases hviolations

end Sentinel
