import Sentinel.Research.GateEvidence
import Mathlib.Data.List.Sort
import Mathlib.Data.String.Basic

/-!
# What a recorded verdict authorises

`evaluate` records its verdict under a fingerprint of what was evaluated, and
the store later compares it with the fingerprint of a configuration that claims
the verdict.  The forward gate and the configurations are fingerprinted with
their runtime policy, the recorded verdict and a promotion with that of the
defaults, so the two agree on the default policy only.
-/

namespace Sentinel

/-! ## Recording -/

structure DuplicateRun where
  deriving DecidableEq

def Acceptance.Verdict.row (v : Acceptance.Verdict) : VerdictRow where
  runId := v.runId
  strategy := v.strategy
  accepted := if v.accepted then 1 else 0
  dataLabel := v.dataLabel
  summary := v.summary
  configHash := v.configHash

namespace VerdictStore

def record (s : VerdictStore) (v : Acceptance.Verdict) : Except DuplicateRun VerdictStore :=
  if h : v.runId ∈ s.rows.map VerdictRow.runId then .error {}
  else
    .ok
      { rows := s.rows ++ [v.row]
        existedOnOpen := true
        unique := by
          rw [List.map_append, List.nodup_append]
          refine ⟨s.unique, by simp, ?_⟩
          rintro id hid id' hid' rfl
          rw [List.map_singleton, List.mem_singleton] at hid'
          rw [hid'] at hid
          exact h hid }

theorem rows_of_record {s s' : VerdictStore} {v : Acceptance.Verdict} (h : s.record v = .ok s') :
    s'.rows = s.rows ++ [v.row] := by
  rw [record] at h
  split_ifs at h
  obtain rfl := Except.ok.inj h
  rfl

theorem get_of_mem {s : VerdictStore} {row : VerdictRow} (h : row ∈ s.rows) :
    s.get row.runId = some row := by
  obtain ⟨found, hfound⟩ : ∃ found, s.get row.runId = some found := by
    rw [get, ← Option.isSome_iff_exists, List.find?_isSome]
    exact ⟨row, h, by simp⟩
  have hid : found.runId = row.runId := by simpa using List.find?_some hfound
  rw [hfound, List.inj_on_of_nodup_map s.unique (List.mem_of_find?_eq_some hfound) h hid]

theorem authorises_iff (hash : String) {s : VerdictStore} {row : VerdictRow} (h : row ∈ s.rows)
    (hid : row.runId ≠ "") (haccepted : row.accepted ≠ 0) (hlabel : row.dataLabel = "live-quality")
    (hstored : row.configHash ≠ "")
    (hstrip : Chars.strip row.configHash.toList = row.configHash.toList) (hhash : hash ≠ "") :
    s.authorises row.strategy (some row.runId) hash = .ok () ↔ hash = row.configHash := by
  have hrun : (some row.runId).filter (· ≠ "") = some row.runId := by simp [hid]
  have hne : row.configHash.toList ≠ [] := by
    intro hnil
    exact hstored (String.toList_eq_nil_iff.mp hnil)
  rw [authorises, hrun]
  simp only [get_of_mem h]
  rw [if_neg (by simp), if_neg haccepted, if_neg (by simp [hlabel]), if_neg hhash, hstrip]
  by_cases heq : hash = row.configHash
  · rw [if_neg (by simp [heq]), if_neg hne]
    simp [heq]
  · have hother : row.configHash.toList ≠ hash.toList := by
      intro hsame
      exact heq (String.toList_inj.mp hsame.symm)
    rw [if_pos ⟨hne, hother⟩]
    simp [heq]

end VerdictStore

namespace Acceptance

variable {δ : Type}

inductive EvaluateFailure where
  | matrix
  | duplicateRun
  deriving DecidableEq

/-- `evaluate` with a store: every verdict is recorded, pass or fail. -/
def evaluateInto (env : AcceptanceEnv δ) (c : EvaluateCall δ) (store : VerdictStore) :
    Except EvaluateFailure (Verdict × VerdictStore) :=
  match evaluate env c with
  | .error _ => .error .matrix
  | .ok v =>
      match store.record v with
      | .error _ => .error .duplicateRun
      | .ok store' => .ok (v, store')

inductive PromoteRefusal where
  | notPassed
  | otherStrategy
  | otherConfiguration
  | noRunId
  deriving DecidableEq

def badged (a : StrategyAllocation δ) (now : ℤ) (runId : String) (h : runId ≠ "") :
    StrategyAllocation δ :=
  { a with
    lifecycle := .accepted
    acceptedAtNs := some now
    acceptanceRunId := some runId
    accepted_named := fun _ => ⟨runId, rfl, h⟩ }

/-! ## The fingerprints -/

structure SoundDigest (digest : FingerprintBody δ → String) (body : FingerprintBody δ) : Prop where
  nonempty : ∀ b, digest b ≠ ""
  strip : ∀ b, Chars.strip (digest b).toList = (digest b).toList
  unforged : ∀ b, digest b = digest body → b = body

structure SameSource (now env : AuthorityEnv δ) : Prop where
  digest : now.digest = env.digest
  source : now.sourceDigest = env.sourceDigest

structure SameConfiguration (b a : StrategyAllocation δ) : Prop where
  instruments : b.instruments.Perm a.instruments
  params : b.params = a.params
  timeframe : b.timeframe = a.timeframe

theorem mergeSort_eq_iff_perm {l m : List String} : l.mergeSort = m.mergeSort ↔ l.Perm m := by
  constructor
  · intro h
    have hl := (List.mergeSort_perm l fun a b => decide (a ≤ b)).symm
    exact hl.trans (h ▸ List.mergeSort_perm m _)
  · intro h
    apply List.Perm.eq_of_pairwise' (r := (· ≤ ·))
    · exact List.pairwise_mergeSort' _ l
    · exact List.pairwise_mergeSort' _ m
    · exact (List.mergeSort_perm l _).trans (h.trans (List.mergeSort_perm m _).symm)

def EvaluateCall.recordedBody (env : AcceptanceEnv δ) (c : EvaluateCall δ) : FingerprintBody δ :=
  fingerprintBody env c.evaluatedInstruments c.evaluatedParams c.evaluatedTimeframe none

/-! ## What a verdict authorises -/

section Recorded

variable {env : AcceptanceEnv δ} {c : EvaluateCall δ} {store store' : VerdictStore} {v : Verdict}

theorem exists_evaluateInto (hfits : c.matrixFits = true)
    (hnew : c.runId ∉ store.rows.map VerdictRow.runId) :
    ∃ store', evaluateInto env c store = .ok (c.verdict env, store') := by
  have hrecord : (c.verdict env).runId ∉ store.rows.map VerdictRow.runId := hnew
  rw [evaluateInto, evaluate, if_pos hfits]
  simp only [VerdictStore.record, dif_neg hrecord]
  exact ⟨_, rfl⟩

theorem evaluateInto_cases (h : evaluateInto env c store = .ok (v, store')) :
    evaluate env c = .ok v ∧ store.record v = .ok store' := by
  rw [evaluateInto] at h
  cases hv : evaluate env c with
  | error _ =>
      rw [hv] at h
      cases h
  | ok v' =>
      rw [hv] at h
      dsimp only at h
      cases hrecord : store.record v' with
      | error _ =>
          rw [hrecord] at h
          cases h
      | ok s =>
          rw [hrecord] at h
          cases h
          exact ⟨rfl, hrecord⟩

theorem verdict_of_evaluate (h : evaluate env c = .ok v) :
    v.runId = c.runId ∧ v.strategy = c.strategyName ∧ v.dataLabel = c.dataLabel ∧
      v.accepted = c.accepted env ∧ v.configHash = env.authority.digest (c.recordedBody env) := by
  rw [evaluate] at h
  split_ifs at h
  obtain rfl := Except.ok.inj h
  exact ⟨rfl, rfl, rfl, EvaluateCall.accepted_verdict, rfl⟩

theorem dataLabel_of_accepted (h : c.accepted env = true) : c.dataLabel = "live-quality" := by
  by_contra hlabel
  apply (EvaluateCall.accepted_iff.mp h).1.ran .data
  simp [EvaluateCall.ran, EvaluateCall.dataGate, hlabel]

theorem backed_iff (hdigest : SoundDigest env.authority.digest (c.recordedBody env))
    (h : evaluateInto env c store = .ok (v, store')) (haccepted : v.accepted = true)
    {later : VerdictStore} (hlater : store'.rows <+: later.rows) {now : AuthorityEnv δ}
    (hnow : SameSource now env.authority) {cfg : SentinelConfig δ} {b : StrategyAllocation δ}
    (hname : b.name = v.strategy) (hid : b.acceptanceRunId = some v.runId) (hrun : v.runId ≠ "") :
    cfg.backed now later b = .ok () ↔
      b.instruments.Perm c.evaluatedInstruments ∧ b.params = c.evaluatedParams.getD env.noParams ∧
        b.timeframe = c.evaluatedTimeframe ∧
        cfg.runtimePolicy now = env.defaults.runtimePolicy env.authority := by
  obtain ⟨hv, hrecord⟩ := evaluateInto_cases h
  obtain ⟨-, -, hlabel, haccepted', hhash⟩ := verdict_of_evaluate hv
  have hmem : v.row ∈ later.rows := by
    apply hlater.subset
    rw [VerdictStore.rows_of_record hrecord]
    exact List.mem_append_right _ (List.mem_singleton_self _)
  have hlive : v.row.dataLabel = "live-quality" :=
    hlabel.trans (dataLabel_of_accepted (haccepted'.symm.trans haccepted))
  have hstored : v.row.configHash = env.authority.digest (c.recordedBody env) := hhash
  have hauthorises := VerdictStore.authorises_iff (cfg.configFingerprint now b) hmem hrun
    (by simp [Verdict.row, haccepted]) hlive (by rw [hstored]; exact hdigest.nonempty _)
    (by rw [hstored]; exact hdigest.strip _)
    (by rw [SentinelConfig.configFingerprint, hnow.digest]; exact hdigest.nonempty _)
  rw [SentinelConfig.backed, hname, hid]
  refine hauthorises.trans ?_
  rw [hstored, SentinelConfig.configFingerprint, hnow.digest, hnow.source]
  constructor
  · intro hsame
    have hbody := hdigest.unforged _ hsame
    simp only [EvaluateCall.recordedBody, fingerprintBody, FingerprintBody.mk.injEq,
      mergeSort_eq_iff_perm, Option.getD_none] at hbody
    obtain ⟨-, hinstruments, hparams, htimeframe, -, hpolicy⟩ := hbody
    exact ⟨hinstruments, hparams, htimeframe, hpolicy⟩
  · rintro ⟨hinstruments, hparams, htimeframe, hpolicy⟩
    rw [mergeSort_eq_iff_perm.mpr hinstruments, hparams, htimeframe, hpolicy]
    rfl

end Recorded

/-! ## Bindings of accepted calls -/

structure Evaluates (c : EvaluateCall δ) (a : StrategyAllocation δ) (runtime : SentinelConfig δ) :
    Prop where
  strategy : c.strategyName = a.name
  instruments : c.instruments = some a.instruments
  params : c.params = some a.params
  timeframe : c.timeframe = a.timeframe
  runtime : c.runtimeConfig = some runtime

/-- From the store of the run on, an accepted strategy that names the run is
authorised exactly in the configurations that run the allocation under the
runtime policy it was evaluated under. -/
def BindingKept (env : AuthorityEnv δ) (runId : String) (store : VerdictStore)
    (a : StrategyAllocation δ) (runtime : SentinelConfig δ) : Prop :=
  ∀ later : VerdictStore, store.rows <+: later.rows → ∀ now, SameSource now env →
    ∀ cfg : SentinelConfig δ, ∀ b ∈ cfg.strategies, b.lifecycle = .accepted → b.name = a.name →
      b.acceptanceRunId = some runId →
        (cfg.backed now later b = .ok () ↔
          SameConfiguration b a ∧ cfg.runtimePolicy now = runtime.runtimePolicy env)

def wearing (runtime : SentinelConfig δ) (a : StrategyAllocation δ) (runId : String)
    (h : runId ≠ "") : SentinelConfig δ :=
  { runtime with
    strategies := [badged a 0 runId h]
    names_nodup := by simp
    live_accepted := by simp [badged] }

/-- The verdict binds what was evaluated exactly when the runtime policy it was
evaluated under is that of the defaults and the timeframe is not one that falls
back to the candidate's. -/
theorem bindingKept_iff {env : AcceptanceEnv δ} {c : EvaluateCall δ} {a : StrategyAllocation δ}
    {runtime : SentinelConfig δ} {store store' : VerdictStore} {v : Verdict}
    (hcall : Evaluates c a runtime)
    (hdigest : SoundDigest env.authority.digest (c.recordedBody env))
    (h : evaluateInto env c store = .ok (v, store')) (haccepted : v.accepted = true) :
    BindingKept env.authority v.runId store' a runtime ↔
      c.runId = "" ∨
        runtime.runtimePolicy env.authority = env.defaults.runtimePolicy env.authority ∧
          (a.timeframe = "" → c.candidate.snapshotTimeframe.getD "" = "") := by
  obtain ⟨hrunId, hstrategy, -, -, -⟩ := verdict_of_evaluate (evaluateInto_cases h).1
  have hname : a.name = v.strategy := hcall.strategy.symm.trans hstrategy.symm
  have hinstruments : c.evaluatedInstruments = a.instruments := by
    rw [EvaluateCall.evaluatedInstruments, hcall.instruments]
  have hparams : c.evaluatedParams.getD env.noParams = a.params := by
    rw [EvaluateCall.evaluatedParams, hcall.params]
    rfl
  have htimeframe : c.evaluatedTimeframe = a.timeframe ↔
      (a.timeframe = "" → c.candidate.snapshotTimeframe.getD "" = "") := by
    rw [EvaluateCall.evaluatedTimeframe, hcall.timeframe]
    by_cases hempty : a.timeframe = ""
    · simp [hempty]
    · simp [hempty]
  constructor
  · intro hkept
    by_cases hrun : c.runId = ""
    · exact .inl hrun
    right
    have hrun' : v.runId ≠ "" := by rwa [hrunId]
    have hbadged : (badged a 0 v.runId hrun').name = v.strategy := hname
    have hbacked := (hkept store' (List.prefix_refl _) env.authority ⟨rfl, rfl⟩
      (wearing runtime a v.runId hrun') _ (List.mem_singleton_self _) rfl rfl rfl).mpr
      ⟨⟨List.Perm.refl _, rfl, rfl⟩, rfl⟩
    rw [backed_iff hdigest h haccepted (List.prefix_refl _) ⟨rfl, rfl⟩ hbadged rfl hrun'] at hbacked
    obtain ⟨-, -, hsame, hpolicy⟩ := hbacked
    exact ⟨hpolicy, htimeframe.mp hsame.symm⟩
  · intro hcondition later hlater now hnow cfg b _ hlifecycle hb hid
    obtain ⟨id, hid', hne⟩ := b.accepted_named hlifecycle
    have hrun : v.runId ≠ "" := by
      rw [hid] at hid'
      rwa [Option.some.inj hid']
    obtain ⟨hpolicy, hsnapshot⟩ := hcondition.resolve_left (by rwa [← hrunId])
    rw [backed_iff hdigest h haccepted hlater hnow (hb.trans hname) hid hrun, hinstruments,
      hparams, htimeframe.mpr hsnapshot, ← hpolicy]
    constructor
    · rintro ⟨hi, hp, ht, hr⟩
      exact ⟨⟨hi, hp, ht⟩, hr⟩
    · rintro ⟨⟨hi, hp, ht⟩, hr⟩
      exact ⟨hi, hp, ht, hr⟩

/-! ### A smaller risk budget -/

deriving instance DecidableEq for RuntimePolicy
deriving instance DecidableEq for FingerprintBody

def trend : StrategyAllocation String where
  name := "trend"
  instruments := ["EUR_USD"]
  params := "\x7b\x7d"

def trendBody : FingerprintBody String :=
  fingerprintBody alternatingEnv trend.instruments (some trend.params) trend.timeframe none

def trendDigest (b : FingerprintBody String) : String :=
  if b = trendBody then "9b74c9897bac770ffc029102a200c5de"
  else "5d41402abc4b2a76b9719d911017c592"

def trendEnv : AcceptanceEnv String :=
  { alternatingEnv with authority := { alternatingEnv.authority with digest := trendDigest } }

theorem soundDigest_trend : SoundDigest trendDigest trendBody where
  nonempty b := by
    rw [trendDigest]
    split_ifs <;> decide
  strip b := by
    rw [trendDigest]
    split_ifs <;> decide
  unforged b h := by
    rw [trendDigest, trendDigest, if_pos rfl] at h
    by_contra hne
    rw [if_neg hne] at h
    revert h
    decide

def smallerRisk : SentinelConfig String :=
  { trendEnv.defaults with
    risk := "\x7b\"risk_per_trade_pct\": \"0.25\"\x7d"
    names_nodup := by simp [trendEnv, alternatingEnv]
    live_accepted := trendEnv.defaults.live_accepted }

variable (runtime : SentinelConfig String) (forwardHash : String)

def trendCall : EvaluateCall String :=
  { noBaselines with
    baselines :=
      [("buy_and_hold", { alternatingResult with
        performance :=
          { sharpe := .finite 1, netReturnPct := .finite 2, maxDrawdownPct := .finite 3
            nTrades := 1 } })]
    instruments := some trend.instruments
    params := some trend.params
    timeframe := trend.timeframe
    runtimeConfig := some runtime
    forward := some
      { verified := true, nTrades := some 60, netPnl := some (.finite 240)
        runtimeHash := some forwardHash, maxDrawdownPct := some (.finite 2) } }

theorem evaluates_trendCall :
    Evaluates (trendCall runtime forwardHash) trend runtime := ⟨rfl, rfl, rfl, rfl, rfl⟩

def emptyStore : VerdictStore where
  rows := []
  existedOnOpen := false
  unique := List.nodup_nil

theorem exists_trendRun :
    ∃ store', evaluateInto trendEnv (trendCall runtime forwardHash) emptyStore =
      .ok ((trendCall runtime forwardHash).verdict trendEnv, store') := by
  have hsame : (trendCall runtime forwardHash).matrixFits = noBaselines.matrixFits := rfl
  apply exists_evaluateInto
  · rw [hsame]
    decide +kernel
  · exact List.not_mem_nil

/-- Evaluated under the defaults the strategy is bound to them. -/
theorem bindingKept_iff_defaults :
    ∃ store', evaluateInto trendEnv
        (trendCall trendEnv.defaults "9b74c9897bac770ffc029102a200c5de") emptyStore =
          .ok ((trendCall trendEnv.defaults "9b74c9897bac770ffc029102a200c5de").verdict trendEnv,
            store') ∧
      BindingKept trendEnv.authority "RUN-1" store' trend trendEnv.defaults := by
  obtain ⟨store', hrun⟩ :=
    exists_trendRun trendEnv.defaults "9b74c9897bac770ffc029102a200c5de"
  refine ⟨store', hrun, ?_⟩
  apply (bindingKept_iff (evaluates_trendCall _ _) soundDigest_trend hrun (by decide +kernel)).mpr
  exact .inr ⟨rfl, by decide⟩

/-- Evaluated under a smaller risk budget, and accepted, the strategy is not
authorised under it. -/
theorem not_bindingKept_smallerRisk :
    ∃ store', evaluateInto trendEnv
        (trendCall smallerRisk "5d41402abc4b2a76b9719d911017c592") emptyStore =
          .ok ((trendCall smallerRisk "5d41402abc4b2a76b9719d911017c592").verdict trendEnv,
            store') ∧
      ((trendCall smallerRisk "5d41402abc4b2a76b9719d911017c592").verdict trendEnv).accepted =
        true ∧
      ¬BindingKept trendEnv.authority "RUN-1" store' trend smallerRisk := by
  obtain ⟨store', hrun⟩ := exists_trendRun smallerRisk "5d41402abc4b2a76b9719d911017c592"
  have haccepted : ((trendCall smallerRisk
      "5d41402abc4b2a76b9719d911017c592").verdict trendEnv).accepted = true := by
    decide +kernel
  refine ⟨store', hrun, haccepted, ?_⟩
  intro hkept
  have hne : "RUN-1" ≠ "" := by decide
  have hbacked := (hkept store' (List.prefix_refl _) trendEnv.authority ⟨rfl, rfl⟩
    (wearing smallerRisk trend "RUN-1" hne) _ (List.mem_singleton_self _) rfl rfl rfl).mpr
    ⟨⟨List.Perm.refl _, rfl, rfl⟩, rfl⟩
  have hpolicy := ((backed_iff soundDigest_trend hrun haccepted (List.prefix_refl _) ⟨rfl, rfl⟩
    rfl rfl hne).mp hbacked).2.2.2
  have hrisk : smallerRisk.risk = trendEnv.defaults.risk := congrArg RuntimePolicy.risk hpolicy
  exact absurd hrisk (by decide)

end Acceptance

end Sentinel
