import Sentinel.Research.Trials
import Sentinel.Research.Verdicts
import Sentinel.Support.DigitForms

/-!
# The acceptance protocol

`evaluate` runs the gates of the protocol on a candidate and on the evidence
gathered about it, adds a failing gate for each required one that is missing,
and accepts when every blocking gate passed.  What the returns amount to (Sharpe
ratios, p-values, drawdowns) is read from `Statistics`.
-/

namespace Sentinel.Acceptance

/-! ## The protocol -/

inductive ProtocolGate where
  | baselines
  | randomWalk
  | factorAlpha
  | overfitting
  | deflatedSharpe
  | superiorAbility
  | stability
  | stress
  | drawdown
  | power
  | data
  | sharedRuntime
  | forward
  | integrity
  deriving DecidableEq

namespace ProtocolGate

def id : ProtocolGate → String
  | baselines => "L1"
  | randomWalk => "L2"
  | factorAlpha => "L3"
  | overfitting => "L4"
  | deflatedSharpe => "L5.1"
  | superiorAbility => "L5.2"
  | stability => "L6"
  | stress => "L7"
  | drawdown => "L8"
  | power => "L9"
  | data => "L10"
  | sharedRuntime => "L11"
  | forward => "L12"
  | integrity => "L13"

def title : ProtocolGate → String
  | baselines => "beats the baselines"
  | randomWalk => "directional content vs a random walk"
  | factorAlpha => "alpha after factor controls"
  | overfitting => "backtest overfitting"
  | deflatedSharpe => "deflated Sharpe"
  | superiorAbility => "superior predictive ability"
  | stability => "stability across CPCV paths"
  | stress => "cost / latency stress"
  | drawdown => "drawdown ceiling"
  | power => "statistical power"
  | data => "verified data and costs"
  | sharedRuntime => "shared runtime"
  | forward => "forward validation"
  | integrity => "generation integrity"

def needs : ProtocolGate → String
  | baselines => "baseline backtests"
  | randomWalk => "the candidate's signal log"
  | factorAlpha => "factor series (dollar, carry, momentum)"
  | overfitting => "the variant returns matrix (PBO)"
  | deflatedSharpe => "the candidate returns"
  | superiorAbility => "the variant returns matrix (SPA)"
  | stability => "combinatorial purged CV paths"
  | stress => "the stressed backtest"
  | drawdown => "the candidate and the CPCV paths"
  | power => "the candidate returns"
  | data => "a dataset manifest verified by content"
  | sharedRuntime => "an agent-replay candidate at production cadence"
  | forward => "a verified forward record under this fingerprint"
  | integrity => "the candidate's diagnostics"

theorem id_injective : Function.Injective id := by
  intro p q h
  revert h
  cases p <;> cases q <;> decide

end ProtocolGate

def requiredGates : List ProtocolGate :=
  [.baselines, .randomWalk, .factorAlpha, .overfitting, .deflatedSharpe, .superiorAbility,
    .stability, .stress, .drawdown, .power, .data, .sharedRuntime, .forward, .integrity]

def forwardMinTrades : ℤ := 50

structure Gate where
  id : String
  name : String
  passed : Bool
  detail : String := ""
  blocking : Bool := true
  deriving DecidableEq

/-- `ResearchConfig`: the thresholds the gates are held to. -/
structure ResearchConfig where
  alpha : FloatValue := .finite (1 / 100)
  pboMax : FloatValue := .finite (1 / 5)
  minDsr : FloatValue := .finite (19 / 20)
  cpcvPositivePathFraction : FloatValue := .finite (7 / 10)
  costStressMultiple : FloatValue := .finite 2
  latencyStressMultiple : FloatValue := .finite 2
  requireRandomWalkBeat : Bool := true
  requireFactorAlpha : Bool := true

def ResearchConfig.required (rc : ResearchConfig) : List ProtocolGate :=
  requiredGates.filter fun p =>
    match p with
    | .randomWalk => rc.requireRandomWalkBeat
    | .factorAlpha => rc.requireFactorAlpha
    | _ => true

/-! ## The evidence -/

structure NdArray where
  shape : List ℕ
  data : List FloatValue
  length_data : data.length = shape.prod

namespace NdArray

variable (m : NdArray)

def ndim : ℕ := m.shape.length

def size : ℕ := m.data.length

/-- `shape[1]`, of an array that has one. -/
def columnCount : ℕ := m.shape.getD 1 0

def columns : List (List FloatValue) :=
  (List.range m.columnCount).map fun k =>
    (List.range (m.shape.getD 0 0)).map fun t => m.data.getD (t * m.columnCount + k) .nan

end NdArray

/-- What the gates read of a `PerformanceReport`. -/
structure Performance where
  sharpe : FloatValue
  netReturnPct : FloatValue
  maxDrawdownPct : FloatValue
  nTrades : ℤ

/-- What the gates read of a backtest's diagnostics: a key that is not there is
`none`, and one that is compared with `True` or read as a truth is a truth. -/
structure Diagnostics where
  engine : Option String := none
  executionCadenceSec : Option ℤ := none
  decisionIntervalSec : Option ℤ := none
  runtimeContextComplete : Bool := false
  generationErrors : Bool := false
  generationErrorCount : Option ℤ := none
  halted : Bool := false
  instruments : Option (List String) := none
  deriving DecidableEq

/-- `BacktestResult`, with the parameters and the timeframe its configuration
snapshot names. -/
structure BacktestResult (δ : Type) where
  performance : Performance
  perBarReturns : List FloatValue
  /-- for each signal raised its side times the return that followed, if one did -/
  signalLog : List (Option FloatValue)
  diagnostics : Diagnostics
  snapshotParams : Option δ
  snapshotTimeframe : Option String

/-- The result of `verify_dataset`, or what a caller passes for it. -/
structure Provenance (δ : Type) where
  verified : Bool := false
  bidAsk : Bool := false
  sha256 : List (String × String) := []
  costSchedule : List (String × δ) := []
  broker : String := ""

/-- The result of `verify_forward`, or what a caller passes for it. -/
structure ForwardRecord where
  verified : Bool := false
  nTrades : Option ℤ := none
  netPnl : Option FloatValue := none
  runtimeHash : Option String := none
  maxDrawdownPct : Option FloatValue := none

/-- The arguments of `evaluate`. -/
structure EvaluateCall (δ : Type) where
  runId : String
  strategyName : String
  candidate : BacktestResult δ
  baselines : List (String × BacktestResult δ)
  cpcvPathReturns : Option (List (List FloatValue)) := none
  stressed : Option (BacktestResult δ) := none
  variantReturns : Option NdArray := none
  pboMatrix : Option NdArray := none
  factorData : Option (List (String × List FloatValue)) := none
  researchConfig : Option ResearchConfig := none
  declaredTrials : ℤ := 1
  trialSummary : Option TrialSummary := none
  maxDrawdownCeilingPct : FloatValue := .finite 10
  periodsPerYear : ℤ := 252
  dataLabel : String := "synthetic"
  environment : Option (List Gate) := none
  instruments : Option (List String) := none
  params : Option δ := none
  timeframe : String := ""
  /-- `n_unique_variants` of the CPCV report, if there is a report -/
  cpcvUniqueVariants : Option ℤ := none
  provenance : Option (Provenance δ) := none
  forward : Option ForwardRecord := none
  runtimeConfig : Option (SentinelConfig δ) := none

/-! ## Statistics -/

/-- What the gates read of an `AttributionResult`. -/
structure Attribution where
  alphaPerPeriod : FloatValue
  alphaP : FloatValue

def Attribution.significant (a : Attribution) (level : FloatValue) : Bool :=
  a.alphaP.lt level && (FloatValue.finite 0).lt a.alphaPerPeriod

structure Statistics where
  sharpeRatio : List FloatValue → ℤ → FloatValue
  /-- the p-value of `directional_accuracy`, of ten numbers or more -/
  directionalP : List FloatValue → FloatValue
  /-- the test of the mean that stands in where no factor is usable -/
  rawMean : List FloatValue → Attribution
  /-- the regression on the usable factors -/
  regression : List FloatValue → List (String × List FloatValue) → Attribution
  pbo : NdArray → ℤ → FloatValue
  deflatedSharpe : List FloatValue → ℤ → Option (List FloatValue) → ℤ → FloatValue
  /-- the p-value of `hansen_spa` -/
  hansenSpaP : NdArray → FloatValue
  /-- `min_track_record_length` at confidence `1 - alpha`, of four numbers or more -/
  minTrackRecord : List FloatValue → FloatValue → ℤ → Option FloatValue
  /-- the deepest drawdown along a path of returns, in percent -/
  pathDrawdown : List FloatValue → FloatValue
  /-- the quotient of two counts -/
  fraction : ℕ → ℕ → FloatValue
  /-- `round(x, 6)` -/
  round6 : FloatValue → FloatValue
  sampleVariance : List FloatValue → FloatValue
  /-- a number written with no decimals -/
  format0 : FloatValue → String

namespace Statistics

variable (st : Statistics)

/-- `directional_accuracy`: the p-value, and the number of finite values. -/
def directionalAccuracy (signed : List FloatValue) : FloatValue × ℕ :=
  let x := signed.filter FloatValue.isFinite
  if x.length < 10 then (.finite 1, x.length) else (st.directionalP x, x.length)

def usable (series : List FloatValue) : Bool :=
  !series.isEmpty && series.all FloatValue.isFinite

/-- `attribute`. -/
def attributeReturns (returns : List FloatValue) (factors : List (String × List FloatValue)) :
    Attribution :=
  let usableFactors := factors.filter fun f => usable f.2
  if usableFactors.isEmpty then st.rawMean returns else st.regression returns usableFactors

def minTrackRecordLength (returns : List FloatValue) (alpha : FloatValue) (periodsPerYear : ℤ) :
    Option FloatValue :=
  let r := returns.filter FloatValue.isFinite
  if r.length < 4 then none else st.minTrackRecord r alpha periodsPerYear

def trialSharpes (variantReturns : Option NdArray) (periodsPerYear : ℤ) :
    Option (List FloatValue) :=
  match variantReturns with
  | none => none
  | some m =>
      if m.ndim = 2 ∧ 3 ≤ m.columnCount then
        let candidates := m.columns.map fun col => st.sharpeRatio col periodsPerYear
        if 3 ≤ (candidates.map st.round6).dedup.length ∧
            (FloatValue.finite (1 / 10 ^ 9)).lt (st.sampleVariance candidates) = true then
          some candidates
        else none
      else none

end Statistics

/-- `effective_trial_count` with its floor of two. -/
def effectiveTrialCount (declared ledger variants : ℤ) : ℤ :=
  max (max declared ledger) (max variants 2)

/-! ## `evaluate` -/

/-- What `evaluate` takes from outside: the routines, the source and the digest
of fingerprints, the configuration of defaults and the empty parameters. -/
structure AcceptanceEnv (δ : Type) where
  statistics : Statistics
  authority : AuthorityEnv δ
  defaults : SentinelConfig δ
  noParams : δ

variable {δ : Type}

/-- The body that `config_fingerprint` takes the digest of; without a runtime
configuration the policy is that of the defaults. -/
def fingerprintBody (env : AcceptanceEnv δ) (instruments : List String) (params : Option δ)
    (timeframe : String) (runtimeConfig : Option (SentinelConfig δ)) : FingerprintBody δ where
  instruments := instruments.mergeSort
  params := params.getD env.noParams
  timeframe := timeframe
  sourceSha256 := env.authority.sourceDigest
  runtime := (runtimeConfig.getD env.defaults).runtimePolicy env.authority

def configFingerprint (env : AcceptanceEnv δ) (instruments : List String) (params : Option δ)
    (timeframe : String) (runtimeConfig : Option (SentinelConfig δ)) : String :=
  env.authority.digest (fingerprintBody env instruments params timeframe runtimeConfig)

namespace EvaluateCall

variable (env : AcceptanceEnv δ) (c : EvaluateCall δ)

def rc : ResearchConfig := c.researchConfig.getD {}

def paths : List (List FloatValue) :=
  if c.cpcvUniqueVariants.getD 2 < 2 then [] else c.cpcvPathReturns.getD []

def candSharpe : FloatValue :=
  env.statistics.sharpeRatio c.candidate.perBarReturns c.periodsPerYear

def baselinesGate : Option Bool :=
  some ((c.baselines.all fun b => b.2.performance.sharpe.lt (c.candSharpe env)) &&
    (FloatValue.finite 0).lt (c.candSharpe env))

def randomWalkGate : Option Bool :=
  if c.rc.requireRandomWalkBeat then
    let signed := (c.candidate.signalLog.filterMap fun r => r).filter FloatValue.isFinite
    let da := env.statistics.directionalAccuracy signed
    some (da.1.lt c.rc.alpha && decide (30 ≤ da.2))
  else none

def factorAlphaGate : Option Bool :=
  let factors := c.factorData.getD []
  if c.rc.requireFactorAlpha && !factors.isEmpty then
    let attr := env.statistics.attributeReturns c.candidate.perBarReturns factors
    some (attr.significant c.rc.alpha)
  else none

def given (m : Option NdArray) : Option NdArray := m.filter fun m => m.size ≠ 0

def overfittingGate : Option Bool :=
  (given c.pboMatrix).map fun m =>
    (env.statistics.pbo m c.periodsPerYear).le c.rc.pboMax

def observedVariants : ℕ :=
  [c.variantReturns, c.pboMatrix].foldl
    (fun seen m =>
      match m with
      | none => seen
      | some m => if 1 < m.ndim ∧ m.size ≠ 0 then max seen m.columnCount else seen) 0

def effectiveTrials : ℤ :=
  effectiveTrialCount c.declaredTrials ((c.trialSummary.map TrialSummary.charge).getD 0)
    c.observedVariants

def deflatedSharpeGate : Option Bool :=
  some (c.rc.minDsr.le (env.statistics.deflatedSharpe c.candidate.perBarReturns c.effectiveTrials
    (env.statistics.trialSharpes c.variantReturns c.periodsPerYear) c.periodsPerYear))

def superiorAbilityGate : Option Bool :=
  (given c.variantReturns).map fun m => (env.statistics.hansenSpaP m).lt c.rc.alpha

def stabilityGate : Option Bool :=
  if c.paths.isEmpty then none
  else
    let positive := c.paths.countP fun p =>
      (FloatValue.finite 0).lt (env.statistics.sharpeRatio p c.periodsPerYear)
    some (c.rc.cpcvPositivePathFraction.le (env.statistics.fraction positive c.paths.length))

def stressGate : Option Bool :=
  c.stressed.map fun s =>
    (FloatValue.finite 0).lt s.performance.sharpe &&
      (FloatValue.finite 0).lt s.performance.netReturnPct

/-- `max(a, b)`. -/
def larger (a b : FloatValue) : FloatValue := if a.lt b then b else a

def worstDrawdown : FloatValue :=
  c.paths.foldl (fun worst p => larger worst (env.statistics.pathDrawdown p))
    c.candidate.performance.maxDrawdownPct

def drawdownGate : Option Bool := some ((c.worstDrawdown env).le c.maxDrawdownCeilingPct)

def powerGate : Option Bool :=
  let returns := c.candidate.perBarReturns
  match env.statistics.minTrackRecordLength returns c.rc.alpha c.periodsPerYear with
  | none => some false
  | some needed => some (needed.le (.finite returns.length))

def dataGate : Option Bool :=
  let prov := c.provenance.getD {}
  some (decide (c.dataLabel = "live-quality") && prov.verified && prov.bidAsk &&
    !prov.sha256.isEmpty && !prov.costSchedule.isEmpty && decide (prov.broker ≠ ""))

/-- `engine` is a replay of the agent. -/
def isReplay (engine : Option String) : Bool :=
  "agent-replay".toList.isPrefixOf (engine.getD "").toList

def sharedRuntimeGate : Option Bool :=
  let diag := c.candidate.diagnostics
  some (isReplay diag.engine &&
    decide (diag.executionCadenceSec.getD (10 ^ 9) ≤ diag.decisionIntervalSec.getD 60) &&
    diag.runtimeContextComplete)

def evaluatedInstruments : List String :=
  match c.instruments with
  | some instruments => instruments
  | none => c.candidate.diagnostics.instruments.getD []

def evaluatedParams : Option δ :=
  match c.params with
  | some params => some params
  | none => c.candidate.snapshotParams

def evaluatedTimeframe : String :=
  if c.timeframe = "" then c.candidate.snapshotTimeframe.getD "" else c.timeframe

def fingerprintUnder (runtimeConfig : Option (SentinelConfig δ)) : String :=
  configFingerprint env c.evaluatedInstruments c.evaluatedParams c.evaluatedTimeframe runtimeConfig

def forwardGate : Option Bool :=
  let fwd := c.forward.getD {}
  let expectedHash := c.fingerprintUnder env c.runtimeConfig
  some (fwd.verified && decide (forwardMinTrades ≤ fwd.nTrades.getD 0) &&
    (FloatValue.finite 0).lt (fwd.netPnl.getD (.finite 0)) &&
    decide (fwd.runtimeHash = some expectedHash) &&
    (fwd.maxDrawdownPct.getD (.finite 101)).le c.maxDrawdownCeilingPct)

def integrityGate : Option Bool :=
  let diag := c.candidate.diagnostics
  some (!diag.generationErrors && decide (diag.generationErrorCount.getD 0 = 0) &&
    !diag.halted && decide (30 ≤ c.candidate.performance.nTrades))

def ran : ProtocolGate → Option Bool
  | .baselines => c.baselinesGate env
  | .randomWalk => c.randomWalkGate env
  | .factorAlpha => c.factorAlphaGate env
  | .overfitting => c.overfittingGate env
  | .deflatedSharpe => c.deflatedSharpeGate env
  | .superiorAbility => c.superiorAbilityGate env
  | .stability => c.stabilityGate env
  | .stress => c.stressGate
  | .drawdown => c.drawdownGate env
  | .power => c.powerGate env
  | .data => c.dataGate
  | .sharedRuntime => c.sharedRuntimeGate
  | .forward => c.forwardGate env
  | .integrity => c.integrityGate

def gateName : ProtocolGate → String
  | .stress =>
      env.statistics.format0 c.rc.costStressMultiple ++ "x cost / " ++
        env.statistics.format0 c.rc.latencyStressMultiple ++ "x latency stress"
  | p => p.title

/-- What `gates.append` adds, if the gate is run. -/
def entry (p : ProtocolGate) : List Gate :=
  ((c.ran env p).map fun passed => { id := p.id, name := c.gateName env p, passed }).toList

def gatesRun : List Gate :=
  let gates := c.environment.getD [] ++ c.entry env .baselines ++ c.entry env .randomWalk ++
    c.entry env .factorAlpha ++ c.entry env .overfitting ++ c.entry env .deflatedSharpe ++
    c.entry env .superiorAbility ++ c.entry env .stability ++ c.entry env .stress ++
    c.entry env .drawdown ++ c.entry env .power
  let gates := gates.filter fun g => g.id ≠ "L10"
  gates ++ c.entry env .data ++ c.entry env .sharedRuntime ++ c.entry env .forward ++
    c.entry env .integrity

def notEvaluated : List ProtocolGate :=
  c.rc.required.filter fun p => p.id ∉ (c.gatesRun env).map Gate.id

def missingGate (p : ProtocolGate) : Gate where
  id := p.id
  name := p.title
  passed := false
  detail := "No evidence was supplied for this gate (" ++ p.needs ++ "). The protocol is a " ++
    "fixed list, and a gate that did not run did not pass. Supply the evidence -- " ++
    "scripts/run_acceptance.py produces all of it -- or the verdict stays negative."

def gates : List Gate := c.gatesRun env ++ (c.notEvaluated env).map missingGate

def accepted : Bool := (c.gates env).all fun g => !g.blocking || g.passed

def failedGates : List String :=
  ((c.gates env).filter fun g => g.blocking && !g.passed).map Gate.id

def summary : String :=
  if c.accepted env then "accepted: every declared gate passed"
  else "not accepted: failed " ++ ", ".intercalate (c.failedGates env)

/-- `probability_of_backtest_overfitting` takes a matrix of two configurations or
more. -/
def matrixFits : Bool :=
  match given c.pboMatrix with
  | none => true
  | some m => decide (m.ndim = 2 ∧ 2 ≤ m.columnCount)

end EvaluateCall

/-- `Verdict`, without the evidence and the thresholds that are filed with it. -/
structure Verdict where
  runId : String
  strategy : String
  accepted : Bool
  configHash : String
  gates : List Gate
  declaredTrials : ℤ
  effectiveTrials : ℤ
  dataLabel : String
  summary : String

def EvaluateCall.verdict (env : AcceptanceEnv δ) (c : EvaluateCall δ) : Verdict where
  runId := c.runId
  strategy := c.strategyName
  accepted := c.accepted env
  configHash := c.fingerprintUnder env none
  gates := c.gates env
  declaredTrials := c.declaredTrials
  effectiveTrials := c.effectiveTrials
  dataLabel := c.dataLabel
  summary := c.summary env

/-- `perf_matrix must be T x N with N >= 2`. -/
structure MatrixError where
  deriving DecidableEq

def evaluate (env : AcceptanceEnv δ) (c : EvaluateCall δ) : Except MatrixError Verdict :=
  if c.matrixFits then .ok (c.verdict env) else .error {}

/-! ## What is accepted -/

namespace EvaluateCall

variable {env : AcceptanceEnv δ} {c : EvaluateCall δ}

theorem accepted_verdict : (c.verdict env).accepted = c.accepted env := by
  dsimp only [verdict]

def CarriedGate (c : EvaluateCall δ) (g : Gate) : Prop :=
  g ∈ c.environment.getD [] ∧ g.id ≠ ProtocolGate.data.id

theorem mem_entry {p : ProtocolGate} {g : Gate} :
    g ∈ c.entry env p ↔
      ∃ passed, c.ran env p = some passed ∧
        g = { id := p.id, name := c.gateName env p, passed } := by
  rw [entry, Option.mem_toList, Option.map_eq_some_iff]
  constructor
  · rintro ⟨passed, hran, rfl⟩
    exact ⟨passed, hran, rfl⟩
  · rintro ⟨passed, hran, rfl⟩
    exact ⟨passed, hran, rfl⟩

theorem id_of_mem_entry {p : ProtocolGate} {g : Gate} (h : g ∈ c.entry env p) : g.id = p.id := by
  obtain ⟨passed, -, rfl⟩ := mem_entry.mp h
  rfl

theorem mem_gatesRun {g : Gate} :
    g ∈ c.gatesRun env ↔ c.CarriedGate g ∨ ∃ p, g ∈ c.entry env p := by
  simp only [gatesRun, List.mem_append, List.mem_filter, decide_eq_true_eq]
  constructor
  · intro h
    rcases h with (((⟨h, hid⟩ | h) | h) | h) | h
    · rcases h with (((((((((h | h) | h) | h) | h) | h) | h) | h) | h) | h) | h
      · exact .inl ⟨h, hid⟩
      all_goals exact .inr ⟨_, h⟩
    all_goals exact .inr ⟨_, h⟩
  · rintro (⟨h, hid⟩ | ⟨p, h⟩)
    · exact .inl (.inl (.inl (.inl ⟨by simp [h], hid⟩)))
    · have hid := id_of_mem_entry h
      cases p <;> simp_all [ProtocolGate.id]

theorem id_mem_gatesRun {p : ProtocolGate} :
    p.id ∈ (c.gatesRun env).map Gate.id ↔
      c.ran env p ≠ none ∨ ∃ g ∈ c.environment.getD [], g.id = p.id := by
  rw [List.mem_map]
  constructor
  · rintro ⟨g, hg, hid⟩
    rcases mem_gatesRun.mp hg with ⟨hmem, -⟩ | ⟨q, hq⟩
    · exact .inr ⟨g, hmem, hid⟩
    · have hpq : q = p := ProtocolGate.id_injective ((id_of_mem_entry hq).symm.trans hid)
      obtain ⟨passed, hran, -⟩ := mem_entry.mp hq
      left
      rw [← hpq, hran]
      exact Option.some_ne_none _
  · intro h
    by_cases hran : c.ran env p = none
    · obtain ⟨g, hg, hid⟩ := h.resolve_left (not_not_intro hran)
      refine ⟨g, mem_gatesRun.mpr (.inl ⟨hg, ?_⟩), hid⟩
      intro hdata
      have hp : p = .data := ProtocolGate.id_injective (hid.symm.trans hdata)
      rw [hp] at hran
      exact Option.some_ne_none _ hran
    · obtain ⟨passed, hran⟩ := Option.ne_none_iff_exists'.mp hran
      exact ⟨_, mem_gatesRun.mpr (.inr ⟨p, mem_entry.mpr ⟨passed, hran, rfl⟩⟩), rfl⟩

structure Passes (env : AcceptanceEnv δ) (c : EvaluateCall δ) : Prop where
  carried : ∀ g, c.CarriedGate g → g.blocking = true → g.passed = true
  ran : ∀ p, c.ran env p ≠ some false

def Listed (env : AcceptanceEnv δ) (c : EvaluateCall δ) : Prop :=
  ∀ p ∈ c.rc.required, c.ran env p = none → ∃ g ∈ c.environment.getD [], g.id = p.id

theorem notEvaluated_eq_nil_iff : c.notEvaluated env = [] ↔ c.Listed env := by
  rw [notEvaluated, List.filter_eq_nil_iff]
  apply forall₂_congr
  intro p hp
  rw [decide_eq_true_eq, not_not, id_mem_gatesRun, ← imp_iff_not_or]

theorem accepted_iff : c.accepted env = true ↔ c.Passes env ∧ c.Listed env := by
  have hgate : ∀ g : Gate, (!g.blocking || g.passed) = true ↔
      (g.blocking = true → g.passed = true) := by
    intro g
    cases g.blocking <;> simp
  rw [accepted, gates, List.all_append, Bool.and_eq_true, List.all_eq_true, List.all_eq_true]
  simp only [hgate]
  constructor
  · rintro ⟨hrun, hmissing⟩
    refine ⟨⟨?_, ?_⟩, ?_⟩
    · intro g hg
      exact hrun g (mem_gatesRun.mpr (.inl hg))
    · intro p hp
      have hfailed := hrun _ (mem_gatesRun.mpr (.inr ⟨p, mem_entry.mpr ⟨false, hp, rfl⟩⟩)) rfl
      cases hfailed
    · rw [← notEvaluated_eq_nil_iff]
      by_contra hne
      obtain ⟨p, hp⟩ := List.exists_mem_of_ne_nil _ hne
      have hfailed := hmissing _ (List.mem_map_of_mem hp) rfl
      cases hfailed
  · rintro ⟨hpasses, hlisted⟩
    constructor
    · intro g hg hblocking
      rcases mem_gatesRun.mp hg with hcarried | ⟨p, hp⟩
      · exact hpasses.carried g hcarried hblocking
      · obtain ⟨passed, hran, rfl⟩ := mem_entry.mp hp
        apply Bool.eq_true_of_not_eq_false
        rintro rfl
        exact hpasses.ran p hran
    · rw [notEvaluated_eq_nil_iff.mpr hlisted]
      intro g hg
      cases hg

end EvaluateCall

end Sentinel.Acceptance
