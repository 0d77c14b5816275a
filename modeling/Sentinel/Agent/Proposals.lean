import Sentinel.Core.Digits
import Sentinel.Core.RiskSettings

/-!
# Proposals

What the learning loop may propose: a table of fields with bounds and a direction
that is safer, a step of at most 35 % of the current value, and a dry run of the
configuration.  The table, the step and the rounding are applied one after the
other, and the dry run merges with the defaults.

A number stands for what it prints as; where the loop compares or multiplies two of
them, it does so with their doubles.
-/

namespace Sentinel

variable {δ : Type}

/-! ## The table -/

def frozenPaths : List String :=
  ["risk.daily_loss_limit_pct", "risk.weekly_loss_limit_pct",
    "risk.monthly_loss_limit_pct", "risk.max_drawdown_halt_pct",
    "risk.ladder", "risk.ladder_enabled", "risk.require_broker_side_stop",
    "risk.max_trades_per_day", "risk.max_trades_per_week", "risk.max_trades_per_year",
    "risk.max_annual_cost_pct_of_equity", "risk.max_gross_leverage",
    "risk.max_currency_exposure_pct", "risk.max_correlated_risk_pct",
    "risk.risk_per_trade_pct", "risk.max_lots_per_trade",
    "execution.venue_mode", "execution.broker",
    "agent.mode", "agent.proposal_requires_human",
    "security.dashboard_read_only_default", "security.require_totp_for_writes",
    "security.bind_host", "security.allowed_origins",
    "research.alpha", "research.pbo_max", "research.min_dsr",
    "research.declared_prior", "research.cpcv_positive_path_fraction"]

inductive NumberKind where
  | float
  | int
  deriving DecidableEq

inductive SafeDirection where
  | saferIsLower
  | saferIsHigher
  deriving DecidableEq

/-- A numeric entry of `PROPOSABLE`. -/
structure NumberSpec where
  min : Dec
  max : Dec
  kind : NumberKind := .float
  direction : SafeDirection

namespace NumberSpec

def grid (s : NumberSpec) : Dec :=
  match s.kind with
  | .int => 1
  | .float => 1 / 10000

/-- `round(v, 4)`, or `int(round(v))`: what the rounded number prints as. -/
def round (s : NumberSpec) (v : Dec) : Dec := quantize v s.grid

/-- `_clamp` on a number. -/
def clamp (s : NumberSpec) (v : Dec) : Dec :=
  s.round (Max.max s.min (Min.min s.max v))

/-- From `c` to `v` is a move toward more risk. -/
def Riskier (s : NumberSpec) (c v : Dec) : Prop :=
  match s.direction with
  | .saferIsLower => c < v
  | .saferIsHigher => v < c

instance (s : NumberSpec) (c v : Dec) : Decidable (s.Riskier c v) := by
  delta Riskier
  cases s.direction <;> infer_instance

end NumberSpec

/-- The fields of `RiskConfig` in `PROPOSABLE`. -/
inductive RiskParam where
  | breakevenTriggerR
  | partialTakeR
  | trailAtrMultiple
  | trailActivateR
  | maxSpreadPipsMultiple
  | givebackArmR
  | partialTakeFraction
  | minRewardRisk
  | minStopPips
  | minSecondsBetweenEntries
  | blockMinutesBeforeHighImpact
  | blockMinutesAfterHighImpact
  | givebackKeepFraction
  deriving DecidableEq

namespace RiskParam

def all : List RiskParam :=
  [.breakevenTriggerR, .partialTakeR, .trailAtrMultiple, .trailActivateR, .maxSpreadPipsMultiple,
    .givebackArmR, .partialTakeFraction, .minRewardRisk, .minStopPips, .minSecondsBetweenEntries,
    .blockMinutesBeforeHighImpact, .blockMinutesAfterHighImpact, .givebackKeepFraction]

def path : RiskParam → String
  | .breakevenTriggerR => "risk.breakeven_trigger_r"
  | .partialTakeR => "risk.partial_take_r"
  | .trailAtrMultiple => "risk.trail_atr_multiple"
  | .trailActivateR => "risk.trail_activate_r"
  | .maxSpreadPipsMultiple => "risk.max_spread_pips_multiple"
  | .givebackArmR => "risk.giveback_arm_r"
  | .partialTakeFraction => "risk.partial_take_fraction"
  | .minRewardRisk => "risk.min_reward_risk"
  | .minStopPips => "risk.min_stop_pips"
  | .minSecondsBetweenEntries => "risk.min_seconds_between_entries"
  | .blockMinutesBeforeHighImpact => "risk.block_minutes_before_high_impact"
  | .blockMinutesAfterHighImpact => "risk.block_minutes_after_high_impact"
  | .givebackKeepFraction => "risk.giveback_keep_fraction"

def spec : RiskParam → NumberSpec
  | .breakevenTriggerR => { min := 0, max := 3, direction := .saferIsLower }
  | .partialTakeR => { min := 1 / 2, max := 5, direction := .saferIsLower }
  | .trailAtrMultiple => { min := 1 / 2, max := 6, direction := .saferIsLower }
  | .trailActivateR => { min := 0, max := 3, direction := .saferIsLower }
  | .maxSpreadPipsMultiple => { min := 11 / 10, max := 5, direction := .saferIsLower }
  | .givebackArmR => { min := 1 / 2, max := 5, direction := .saferIsLower }
  | .partialTakeFraction => { min := 1 / 10, max := 4 / 5, direction := .saferIsHigher }
  | .minRewardRisk => { min := 1, max := 5, direction := .saferIsHigher }
  | .minStopPips => { min := 5, max := 100, direction := .saferIsHigher }
  | .minSecondsBetweenEntries =>
      { min := 60, max := 86400, kind := .int, direction := .saferIsHigher }
  | .blockMinutesBeforeHighImpact =>
      { min := 5, max := 240, kind := .int, direction := .saferIsHigher }
  | .blockMinutesAfterHighImpact =>
      { min := 5, max := 240, kind := .int, direction := .saferIsHigher }
  | .givebackKeepFraction => { min := 1 / 5, max := 9 / 10, direction := .saferIsHigher }

def get (r : TradeRules) : RiskParam → Dec
  | .breakevenTriggerR => r.breakevenTriggerR
  | .partialTakeR => r.partialTakeR
  | .trailAtrMultiple => r.trailAtrMultiple
  | .trailActivateR => r.trailActivateR
  | .maxSpreadPipsMultiple => r.maxSpreadPipsMultiple
  | .givebackArmR => r.givebackArmR
  | .partialTakeFraction => r.partialTakeFraction
  | .minRewardRisk => r.minRewardRisk
  | .minStopPips => r.minStopPips
  | .minSecondsBetweenEntries => r.minSecondsBetweenEntries
  | .blockMinutesBeforeHighImpact => r.blockMinutesBeforeHighImpact
  | .blockMinutesAfterHighImpact => r.blockMinutesAfterHighImpact
  | .givebackKeepFraction => r.givebackKeepFraction

def set (r : TradeRules) (v : Dec) : RiskParam → TradeRules
  | .breakevenTriggerR => { r with breakevenTriggerR := v }
  | .partialTakeR => { r with partialTakeR := v }
  | .trailAtrMultiple => { r with trailAtrMultiple := v }
  | .trailActivateR => { r with trailActivateR := v }
  | .maxSpreadPipsMultiple => { r with maxSpreadPipsMultiple := v }
  | .givebackArmR => { r with givebackArmR := v }
  | .partialTakeFraction => { r with partialTakeFraction := v }
  | .minRewardRisk => { r with minRewardRisk := v }
  | .minStopPips => { r with minStopPips := v }
  | .minSecondsBetweenEntries => { r with minSecondsBetweenEntries := ⌊v⌋.toNat }
  | .blockMinutesBeforeHighImpact => { r with blockMinutesBeforeHighImpact := ⌊v⌋.toNat }
  | .blockMinutesAfterHighImpact => { r with blockMinutesAfterHighImpact := ⌊v⌋.toNat }
  | .givebackKeepFraction => { r with givebackKeepFraction := v }

end RiskParam

def RiskSettings.change (r : RiskSettings) (q : RiskParam) (v : Dec) : RiskSettings :=
  { r with toTradeRules := q.set r.toTradeRules v }

/-- A key of `PROPOSABLE`. -/
inductive ProposalPath where
  | risk (q : RiskParam)
  | strategyParams
  deriving DecidableEq

def ProposalPath.ofString (path : String) : Option ProposalPath :=
  if path = "strategy.params" then some .strategyParams
  else (RiskParam.all.find? fun q => decide (q.path = path)).map .risk

/-! ## Findings and proposals -/

/-- `PatternFinding`, as far as proposals read it. -/
structure PatternFinding where
  pattern : String
  n : ℕ
  meanDeltaR : Dec
  pValue : Dec
  pValueAdjusted : Dec := 1
  significant : Bool := false
  nTestsInFamily : ℕ := 0
  diagnosis : String := ""

inductive ProposalValue (δ : Type) where
  | number (v : Dec)
  | params (d : δ)
  deriving DecidableEq

def ProposalValue.number? : ProposalValue δ → Option Dec
  | .number v => some v
  | .params _ => none

inductive ProposalStatus where
  | pending
  | approved
  | rejected
  | validated
  | applied
  | expired
  deriving DecidableEq

/-- `Proposal`, without its evidence. -/
structure ParamProposal (δ : Type) where
  id : String
  createdNs : ℤ
  path : String
  currentValue : Option (ProposalValue δ)
  proposedValue : ProposalValue δ
  status : ProposalStatus := .pending
  validationRunId : Option String := none
  reviewedBy : Option String := none
  reviewedNs : Option ℤ := none
  expiresNs : ℤ := 0
  strategy : Option String := none
  deriving DecidableEq

inductive ProposalError where
  | frozen (path : String)
  | notProposable (path : String)
  | thin (n minSample : ℕ)
  | riskier (path : String) (current proposed : Dec)
  | insignificant (p : Dec) (tests : ℕ) (alpha : Dec)
  | notSurvived (pattern : String) (tests : ℕ)
  | diagnosed (pattern diagnosis : String)
  | invalidConfig (path : String) (proposed : Dec)
  | riskierAfterStep (path : String) (current proposed : Dec)
  /-- the `TypeError` of a number that is none -/
  | notANumber
  deriving DecidableEq

/-! ## `propose` -/

namespace PatternFinding

variable (f : PatternFinding)

def effectiveP : Dec :=
  if f.nTestsInFamily ≠ 0 then f.pValueAdjusted else f.pValue

def notAParameter : Bool :=
  decide (f.diagnosis ∈ ["luck", "regime", "insufficient", "descriptive"])

def gate (alpha : Dec) : Except ProposalError Unit :=
  if alpha ≤ f.effectiveP then .error (.insignificant f.effectiveP (max f.nTestsInFamily 1) alpha)
  else if f.nTestsInFamily ≠ 0 ∧ f.significant = false then
    .error (.notSurvived f.pattern f.nTestsInFamily)
  else if f.notAParameter then .error (.diagnosed f.pattern f.diagnosis)
  else .ok ()

end PatternFinding

namespace RiskParam

variable (q : RiskParam)

def guardDirection (current : Option Dec) (v : Dec)
    (error : String → Dec → Dec → ProposalError) : Except ProposalError Unit :=
  match current with
  | none => .ok ()
  | some c =>
      if q.spec.Riskier (binary64 c) (binary64 v) then .error (error q.path c v) else .ok ()

def dryRun (v : Dec) : Except ProposalError Unit :=
  if (RiskSettings.change {} q v).Valid then .ok () else .error (.invalidConfig q.path v)

/-- `abs(float(clamped) - float(current)) / max(1e-9, abs(float(current)))`. -/
def relativeChange (c v : Dec) : Dec :=
  binary64 (|binary64 (binary64 v - binary64 c)| /
    max (binary64 (1 / 1000000000)) |binary64 c|)

def limitStep (maxRelativeChange : Dec) (current : Option Dec) (v : Dec) : Dec :=
  match current with
  | none => v
  | some c =>
      if binary64 c = 0 then v
      else if binary64 maxRelativeChange < relativeChange c v then
        let sign := if binary64 c < binary64 v then 1 else -1
        q.spec.clamp (binary64Mul c (1 + sign * binary64 maxRelativeChange))
      else v

def bounded (current : Option Dec) (requested : Dec) (finding : PatternFinding)
    (maxRelativeChange alpha : Dec) : Except ProposalError Dec := do
  let clamped := q.spec.clamp requested
  q.guardDirection current clamped .riskier
  finding.gate alpha
  q.dryRun clamped
  let final := q.limitStep maxRelativeChange current clamped
  q.guardDirection current final .riskierAfterStep
  return final

end RiskParam

def ProposalPath.bounded (current : Option (ProposalValue δ)) (requested : ProposalValue δ)
    (finding : PatternFinding) (maxRelativeChange alpha : Dec) :
    ProposalPath → Except ProposalError (ProposalValue δ)
  | .strategyParams => do
      finding.gate alpha
      return requested
  | .risk q =>
      match requested with
      | .params _ => .error .notANumber
      | .number x => do
          let v ← q.bounded (current.bind ProposalValue.number?) x finding maxRelativeChange alpha
          return .number v

/-- `f"P{ms:x}"`. -/
def proposalId (nowNs : ℕ) : String :=
  "P" ++ String.ofList (Nat.toDigits 16 (nowNs / 1000000))

/-- The arguments of `propose` that callers leave at their defaults. -/
structure ProposalLimits where
  maxRelativeChange : Dec := 7 / 20
  ttlDays : ℕ := 21
  minSample : ℕ := 40
  alpha : Dec := 1 / 100

def propose (nowNs : ℕ) (path : String) (current : Option (ProposalValue δ))
    (requested : ProposalValue δ) (finding : PatternFinding) (strategy : Option String)
    (limits : ProposalLimits) : Except ProposalError (ParamProposal δ) :=
  if path ∈ frozenPaths then .error (.frozen path)
  else match ProposalPath.ofString path with
  | none => .error (.notProposable path)
  | some target =>
      if finding.n < limits.minSample then .error (.thin finding.n limits.minSample)
      else do
        let final ←
          target.bounded current requested finding limits.maxRelativeChange limits.alpha
        return {
          id := proposalId nowNs
          createdNs := nowNs
          path
          currentValue := current
          proposedValue := final
          expiresNs := nowNs + limits.ttlDays * 86400 * 1000000000
          strategy }

/-! ## `derive_proposals` -/

structure ProposalConfig (δ : Type) where
  risk : RiskSettings
  params : δ

def ProposalConfig.get? (config : ProposalConfig δ) (path : String) : Option (ProposalValue δ) :=
  match ProposalPath.ofString path with
  | none => none
  | some (.risk q) => some (.number (q.get config.risk.toTradeRules))
  | some .strategyParams => some (.params config.params)

/-- A branch of `derive_proposals`. -/
structure Derivation where
  pattern : String
  /-- the effect is one of the tagged trades against the others, so a bad tag is negative -/
  adverse : Bool := false
  param : RiskParam
  request : Dec → Dec

def derivations : List Derivation :=
  [{ pattern := "counterfactual:partial_at_1R"
     param := .partialTakeR
     request := fun c => max 1 (binary64Mul c (3 / 4)) },
    { pattern := "counterfactual:breakeven_at_1R"
      param := .breakevenTriggerR
      request := fun c => max (1 / 2) (binary64Mul c (4 / 5)) },
    { pattern := "counterfactual:trail_tighter"
      param := .trailAtrMultiple
      request := fun c => max 1 (binary64Mul c (4 / 5)) },
    { pattern := "tag:entry_slippage"
      adverse := true
      param := .maxSpreadPipsMultiple
      request := fun c => max (binary64 (6 / 5)) (binary64Mul c (4 / 5)) },
    { pattern := "tag:news_adjacent"
      adverse := true
      param := .blockMinutesBeforeHighImpact
      request := fun c => min 240 (binary64Mul c (13 / 10)) }]

def Derivation.appliesTo (d : Derivation) (f : PatternFinding) (minEffectR : Dec) : Bool :=
  decide (f.pattern = d.pattern) &&
    decide (minEffectR < if d.adverse then -f.meanDeltaR else f.meanDeltaR)

def PatternFinding.supported (f : PatternFinding) (limits : ProposalLimits) : Bool :=
  decide (f.effectiveP < limits.alpha ∧ limits.minSample ≤ f.n) &&
    (f.significant || decide (f.nTestsInFamily = 0)) && !f.notAParameter

def deriveProposals (nowNs : ℕ) (findings : List PatternFinding) (config : ProposalConfig δ)
    (strategy : Option String) (limits : ProposalLimits) (minEffectR : Dec) :
    List (ParamProposal δ) :=
  findings.filterMap fun f =>
    if f.supported limits then
      match derivations.find? fun d => d.appliesTo f minEffectR with
      | none => none
      | some d =>
          let current := d.param.get config.risk.toTradeRules
          (propose nowNs d.param.path (some (.number current)) (.number (d.request current)) f
            strategy limits).toOption
    else none

end Sentinel
