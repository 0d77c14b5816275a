import Mathlib.Data.List.Sort
import Sentinel.Core.Money

/-!
# The risk envelope

The part of the configuration the risk engine reads, with its bounds and the
cross-checks of `RiskConfig._coherent` as fields: an incoherent envelope is not
a value of the type.
-/

namespace Sentinel

structure LadderRow where
  drawdownPct : Dec
  riskMultiplier : Dec
  deriving DecidableEq

/-- The ladder's drawdowns ascend, its multipliers descend within `[0, 1]`, and
it does not extend past the halt drawdown. -/
structure LadderCoherent (ladder : List LadderRow) (haltPct : Dec) : Prop where
  ascending : ladder.Pairwise fun a b => a.drawdownPct ≤ b.drawdownPct
  nonincreasing : ladder.Pairwise fun a b => b.riskMultiplier ≤ a.riskMultiplier
  within : ∀ row ∈ ladder, 0 ≤ row.riskMultiplier ∧ row.riskMultiplier ≤ 1
  belowHalt : ∀ row ∈ ladder.getLast?, row.drawdownPct ≤ haltPct

def defaultLadder : List LadderRow :=
  [⟨3, 3 / 4⟩, ⟨5, 1 / 2⟩, ⟨7, 1 / 4⟩, ⟨17 / 2, 0⟩]

theorem defaultLadder_coherent : LadderCoherent defaultLadder 10 where
  ascending := by norm_num [defaultLadder]
  nonincreasing := by norm_num [defaultLadder]
  within := by norm_num [defaultLadder]
  belowHalt := by norm_num [defaultLadder]

inductive Lifecycle where
  | reference
  | hypothesis
  | experimental
  | accepted
  | suspended
  deriving DecidableEq

/-- `RiskConfig`: the limits the engine enforces. -/
structure RiskConfig where
  riskPerTradePct : Dec := 1 / 2
  maxLotsPerTrade : Dec := 5
  minStopPips : Dec := 10
  maxStopPips : Dec := 250
  minRewardRisk : Dec := 6 / 5
  requireBrokerSideStop : Bool := true
  maxOpenPositions : ℕ := 4
  maxPositionsPerInstrument : ℕ := 1
  maxGrossLeverage : Dec := 5
  maxCurrencyExposurePct : Dec := 5 / 4
  maxCorrelatedRiskPct : Dec := 9 / 10
  maxTotalOpenRiskPct : Dec := 2
  maxGroupOpenRiskPct : Dec := 3
  maxGroupCurrencyExposurePct : Dec := 2
  correlationThreshold : Dec := 13 / 20
  dailyLossLimitPct : Dec := 2
  weeklyLossLimitPct : Dec := 4
  monthlyLossLimitPct : Dec := 6
  maxDrawdownHaltPct : Dec := 10
  maxTradesPerDay : ℕ := 6
  maxTradesPerWeek : ℕ := 20
  maxTradesPerYear : ℕ := 500
  minSecondsBetweenEntries : ℕ := 300
  maxAnnualCostPctOfEquity : Dec := 15
  ladderEnabled : Bool := true
  ladder : List LadderRow := defaultLadder
  ladderHysteresisPct : Dec := 1 / 2
  dailyProfitLockPct : Dec := 3
  rolling24hLossLimitPct : Dec := 5 / 2
  maxDataStalenessSec : ℕ := 90
  maxClockSkewMs : Dec := 750
  maxSpreadPipsMultiple : Dec := 5 / 2
  maxOfflineSecondsBeforeFreeze : ℕ := 120
  riskPerTradePct_ge : 1 / 100 ≤ riskPerTradePct := by norm_num
  riskPerTradePct_le : riskPerTradePct ≤ 2 := by norm_num
  maxLotsPerTrade_pos : 0 < maxLotsPerTrade := by norm_num
  maxLotsPerTrade_le : maxLotsPerTrade ≤ 100 := by norm_num
  minStopPips_ge : 1 ≤ minStopPips := by norm_num
  minRewardRisk_ge : 3 / 10 ≤ minRewardRisk := by norm_num
  maxOpenPositions_le : maxOpenPositions ≤ 50 := by norm_num
  maxPositionsPerInstrument_le : maxPositionsPerInstrument ≤ 10 := by norm_num
  maxGrossLeverage_pos : 0 < maxGrossLeverage := by norm_num
  maxGrossLeverage_le : maxGrossLeverage ≤ 100 := by norm_num
  maxGroupOpenRiskPct_pos : 0 < maxGroupOpenRiskPct := by norm_num
  maxGroupCurrencyExposurePct_pos : 0 < maxGroupCurrencyExposurePct := by norm_num
  correlationThreshold_nonneg : 0 ≤ correlationThreshold := by norm_num
  correlationThreshold_le : correlationThreshold ≤ 1 := by norm_num
  dailyLossLimitPct_pos : 0 < dailyLossLimitPct := by norm_num
  maxDrawdownHaltPct_le : maxDrawdownHaltPct ≤ 50 := by norm_num
  maxAnnualCostPctOfEquity_pos : 0 < maxAnnualCostPctOfEquity := by norm_num
  ladderHysteresisPct_nonneg : 0 ≤ ladderHysteresisPct := by norm_num
  dailyProfitLockPct_nonneg : 0 ≤ dailyProfitLockPct := by norm_num
  rolling24hLossLimitPct_nonneg : 0 ≤ rolling24hLossLimitPct := by norm_num
  maxClockSkewMs_pos : 0 < maxClockSkewMs := by norm_num
  maxSpreadPipsMultiple_pos : 0 < maxSpreadPipsMultiple := by norm_num
  minStop_lt_maxStop : minStopPips < maxStopPips := by norm_num
  daily_le_weekly : dailyLossLimitPct ≤ weeklyLossLimitPct := by norm_num
  weekly_le_monthly : weeklyLossLimitPct ≤ monthlyLossLimitPct := by norm_num
  monthly_le_halt : monthlyLossLimitPct ≤ maxDrawdownHaltPct := by norm_num
  tradesPerDay_consistent : maxTradesPerDay * 5 ≤ maxTradesPerWeek * 2 := by norm_num
  ladder_coherent : ladderEnabled → LadderCoherent ladder maxDrawdownHaltPct := by
    exact fun _ => defaultLadder_coherent
  rolling_le_weekly :
    0 < rolling24hLossLimitPct → rolling24hLossLimitPct ≤ weeklyLossLimitPct := by norm_num
  risk_le_currency : riskPerTradePct ≤ maxCurrencyExposurePct := by norm_num
  risk_le_correlated : riskPerTradePct ≤ maxCorrelatedRiskPct := by norm_num
  risk_le_total : riskPerTradePct ≤ maxTotalOpenRiskPct := by norm_num
  positions_reachable :
    0 < maxOpenPositions → riskPerTradePct * maxOpenPositions ≤ maxTotalOpenRiskPct := by
      norm_num
  positions_le_daily :
    riskPerTradePct * maxOpenPositions ≤ dailyLossLimitPct * 3 := by norm_num

/-- The configuration with every default is coherent. -/
instance : Inhabited RiskConfig := ⟨{}⟩

namespace RiskConfig

theorem riskPerTradePct_pos (cfg : RiskConfig) : 0 < cfg.riskPerTradePct :=
  lt_of_lt_of_le (by norm_num) cfg.riskPerTradePct_ge

end RiskConfig

end Sentinel
