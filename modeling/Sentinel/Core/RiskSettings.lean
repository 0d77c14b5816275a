import Sentinel.Core.Config

/-!
# Risk settings before validation

`RiskConfig` as it is written: a value for every field, with the ranges of the
fields and the cross-checks of `_coherent` as a decidable condition.  The fields
the learning loop may propose are kept apart from the envelope it may not touch.
-/

namespace Sentinel

/-! ## The envelope -/

/-- The fields of `RiskConfig` that nobody but a human changes. -/
structure RiskEnvelope where
  riskPerTradePct : Dec := 1 / 2
  maxLotsPerTrade : Dec := 5
  maxStopPips : Dec := 250
  requireBrokerSideStop : Bool := true
  maxOpenPositions : ℕ := 4
  maxPositionsPerInstrument : ℕ := 1
  maxGrossLeverage : Dec := 5
  maxCurrencyExposurePct : Dec := 5 / 4
  maxCorrelatedRiskPct : Dec := 9 / 10
  maxTotalOpenRiskPct : Dec := 2
  maxGroupOpenRiskPct : Dec := 3
  maxGroupCurrencyExposurePct : Dec := 2
  groupLedgerStaleSec : ℕ := 300
  correlationThreshold : Dec := 13 / 20
  correlationLookbackBars : ℕ := 240
  dailyLossLimitPct : Dec := 2
  weeklyLossLimitPct : Dec := 4
  monthlyLossLimitPct : Dec := 6
  maxDrawdownHaltPct : Dec := 10
  maxTradesPerDay : ℕ := 6
  maxTradesPerWeek : ℕ := 20
  maxTradesPerYear : ℕ := 500
  maxAnnualCostPctOfEquity : Dec := 15
  ladderEnabled : Bool := true
  ladder : List LadderRow := defaultLadder
  maxHoldSec : ℕ := 0
  dailyProfitLockPct : Dec := 3
  profitLockKeepFraction : Dec := 3 / 5
  ladderHysteresisPct : Dec := 1 / 2
  rolling24hLossLimitPct : Dec := 5 / 2
  maxDataStalenessSec : ℕ := 90
  maxClockSkewMs : Dec := 750
  weekendFlat : Bool := true
  fridayCloseUtcHour : ℕ := 19
  maxOfflineSecondsBeforeFreeze : ℕ := 120

/-- The checks of `_coherent` on the ladder. -/
def ladderChecked (ladder : List LadderRow) (haltPct : Dec) : Prop :=
  ladder.Pairwise (fun a b => a.drawdownPct ≤ b.drawdownPct) ∧
    ladder.Pairwise (fun a b => b.riskMultiplier ≤ a.riskMultiplier) ∧
    (∀ row ∈ ladder, 0 ≤ row.riskMultiplier ∧ row.riskMultiplier ≤ 1) ∧
    ∀ row ∈ ladder.getLast?, row.drawdownPct ≤ haltPct

instance (ladder : List LadderRow) (haltPct : Dec) : Decidable (ladderChecked ladder haltPct) := by
  delta ladderChecked
  infer_instance

theorem ladderCoherent_of_checked {ladder : List LadderRow} {haltPct : Dec}
    (h : ladderChecked ladder haltPct) : LadderCoherent ladder haltPct where
  ascending := h.1
  nonincreasing := h.2.1
  within := h.2.2.1
  belowHalt := h.2.2.2

namespace RiskEnvelope

def InRange (e : RiskEnvelope) : Prop :=
  (1 / 100 ≤ e.riskPerTradePct ∧ e.riskPerTradePct ≤ 2) ∧
    (0 < e.maxLotsPerTrade ∧ e.maxLotsPerTrade ≤ 100) ∧
    0 < e.maxStopPips ∧ e.maxOpenPositions ≤ 50 ∧ e.maxPositionsPerInstrument ≤ 10 ∧
    (0 < e.maxGrossLeverage ∧ e.maxGrossLeverage ≤ 100) ∧
    0 < e.maxCurrencyExposurePct ∧ 0 < e.maxCorrelatedRiskPct ∧ 0 < e.maxTotalOpenRiskPct ∧
    0 < e.maxGroupOpenRiskPct ∧ 0 < e.maxGroupCurrencyExposurePct ∧
    (30 ≤ e.groupLedgerStaleSec ∧ e.groupLedgerStaleSec ≤ 3600) ∧
    (0 ≤ e.correlationThreshold ∧ e.correlationThreshold ≤ 1) ∧
    (30 ≤ e.correlationLookbackBars ∧ e.correlationLookbackBars ≤ 5000) ∧
    (0 < e.dailyLossLimitPct ∧ e.dailyLossLimitPct ≤ 20) ∧
    (0 < e.weeklyLossLimitPct ∧ e.weeklyLossLimitPct ≤ 40) ∧
    (0 < e.monthlyLossLimitPct ∧ e.monthlyLossLimitPct ≤ 60) ∧
    (0 < e.maxDrawdownHaltPct ∧ e.maxDrawdownHaltPct ≤ 50) ∧
    e.maxTradesPerDay ≤ 500 ∧ e.maxTradesPerWeek ≤ 2000 ∧ e.maxTradesPerYear ≤ 100000 ∧
    0 < e.maxAnnualCostPctOfEquity ∧ e.maxHoldSec ≤ 2592000 ∧ 0 ≤ e.dailyProfitLockPct ∧
    (0 ≤ e.profitLockKeepFraction ∧ e.profitLockKeepFraction ≤ 1) ∧
    (0 ≤ e.ladderHysteresisPct ∧ e.ladderHysteresisPct ≤ 5) ∧ 0 ≤ e.rolling24hLossLimitPct ∧
    (1 ≤ e.maxDataStalenessSec ∧ e.maxDataStalenessSec ≤ 3600) ∧ 0 < e.maxClockSkewMs ∧
    e.fridayCloseUtcHour ≤ 23 ∧
    5 ≤ e.maxOfflineSecondsBeforeFreeze ∧ e.maxOfflineSecondsBeforeFreeze ≤ 7200

/-- The checks of `_coherent` that read the envelope only. -/
def Coherent (e : RiskEnvelope) : Prop :=
  e.dailyLossLimitPct ≤ e.weeklyLossLimitPct ∧ e.weeklyLossLimitPct ≤ e.monthlyLossLimitPct ∧
    e.monthlyLossLimitPct ≤ e.maxDrawdownHaltPct ∧
    e.maxTradesPerDay * 5 ≤ e.maxTradesPerWeek * 2 ∧
    (e.ladderEnabled = true → ladderChecked e.ladder e.maxDrawdownHaltPct) ∧
    (0 < e.rolling24hLossLimitPct → e.rolling24hLossLimitPct ≤ e.weeklyLossLimitPct) ∧
    e.riskPerTradePct ≤ e.maxCurrencyExposurePct ∧
    e.riskPerTradePct ≤ e.maxCorrelatedRiskPct ∧ e.riskPerTradePct ≤ e.maxTotalOpenRiskPct ∧
    (0 < e.maxOpenPositions → e.riskPerTradePct * e.maxOpenPositions ≤ e.maxTotalOpenRiskPct) ∧
    e.riskPerTradePct * e.maxOpenPositions ≤ e.dailyLossLimitPct * 3

instance (e : RiskEnvelope) : Decidable e.InRange := by
  delta InRange
  infer_instance

instance (e : RiskEnvelope) : Decidable e.Coherent := by
  delta Coherent
  infer_instance

end RiskEnvelope

/-! ## What may be proposed -/

/-- The fields of `RiskConfig` that the learning loop may propose to change. -/
structure TradeRules where
  breakevenTriggerR : Dec := 1
  partialTakeR : Dec := 3 / 2
  trailAtrMultiple : Dec := 5 / 2
  trailActivateR : Dec := 1
  maxSpreadPipsMultiple : Dec := 5 / 2
  givebackArmR : Dec := 3 / 2
  partialTakeFraction : Dec := 1 / 2
  minRewardRisk : Dec := 6 / 5
  minStopPips : Dec := 10
  minSecondsBetweenEntries : ℕ := 300
  blockMinutesBeforeHighImpact : ℕ := 30
  blockMinutesAfterHighImpact : ℕ := 30
  givebackKeepFraction : Dec := 1 / 2

namespace TradeRules

def InRange (t : TradeRules) : Prop :=
  0 ≤ t.breakevenTriggerR ∧ 0 ≤ t.partialTakeR ∧ 0 ≤ t.trailAtrMultiple ∧
    0 ≤ t.trailActivateR ∧ 0 < t.maxSpreadPipsMultiple ∧ 0 ≤ t.givebackArmR ∧
    (0 ≤ t.partialTakeFraction ∧ t.partialTakeFraction ≤ 1) ∧ 3 / 10 ≤ t.minRewardRisk ∧
    1 ≤ t.minStopPips ∧ t.minSecondsBetweenEntries ≤ 86400 ∧
    t.blockMinutesBeforeHighImpact ≤ 600 ∧ t.blockMinutesAfterHighImpact ≤ 600 ∧
    0 ≤ t.givebackKeepFraction ∧ t.givebackKeepFraction ≤ 19 / 20

/-- The checks of `_coherent` that read these fields only. -/
def Coherent (t : TradeRules) : Prop :=
  (0 < t.partialTakeFraction → 0 < t.partialTakeR) ∧
    (0 < t.trailActivateR → 0 < t.breakevenTriggerR → t.breakevenTriggerR ≤ t.trailActivateR) ∧
    (0 < t.givebackArmR → 0 < t.givebackKeepFraction)

instance (t : TradeRules) : Decidable t.InRange := by
  delta InRange
  infer_instance

instance (t : TradeRules) : Decidable t.Coherent := by
  delta Coherent
  infer_instance

end TradeRules

/-! ## The whole configuration -/

structure RiskSettings extends RiskEnvelope, TradeRules

namespace RiskSettings

/-- The settings pass the validation of `RiskConfig`. -/
def Valid (r : RiskSettings) : Prop :=
  r.toRiskEnvelope.InRange ∧ r.toTradeRules.InRange ∧ r.toRiskEnvelope.Coherent ∧
    r.toTradeRules.Coherent ∧ r.minStopPips < r.maxStopPips

instance (r : RiskSettings) : Decidable r.Valid := by
  delta Valid
  infer_instance

def toRiskConfig (r : RiskSettings) (h : r.Valid) : RiskConfig :=
  match h with
  | ⟨⟨hrisk, hlots, _, hopen, hper, hleverage, _, _, _, hgroup, hgroupCurrency, _, hthreshold, _,
      hdaily, _, _, hhalt, _, _, _, hcost, _, hlock, _, hhysteresis, hrolling, _, hskew, _⟩,
      ⟨_, _, _, _, hspread, _, _, hreward, hstop, _⟩,
      ⟨hdw, hwm, hmh, htrades, hladder, hrollingWeekly, hcurrency, hcorrelated, htotal, hreach,
        hday⟩, _, hstops⟩ =>
    { r with
      riskPerTradePct_ge := hrisk.1
      riskPerTradePct_le := hrisk.2
      maxLotsPerTrade_pos := hlots.1
      maxLotsPerTrade_le := hlots.2
      minStopPips_ge := hstop
      minRewardRisk_ge := hreward
      maxOpenPositions_le := hopen
      maxPositionsPerInstrument_le := hper
      maxGrossLeverage_pos := hleverage.1
      maxGrossLeverage_le := hleverage.2
      maxGroupOpenRiskPct_pos := hgroup
      maxGroupCurrencyExposurePct_pos := hgroupCurrency
      correlationThreshold_nonneg := hthreshold.1
      correlationThreshold_le := hthreshold.2
      dailyLossLimitPct_pos := hdaily.1
      maxDrawdownHaltPct_le := hhalt.2
      maxAnnualCostPctOfEquity_pos := hcost
      ladderHysteresisPct_nonneg := hhysteresis.1
      dailyProfitLockPct_nonneg := hlock
      rolling24hLossLimitPct_nonneg := hrolling
      maxClockSkewMs_pos := hskew
      maxSpreadPipsMultiple_pos := hspread
      minStop_lt_maxStop := hstops
      daily_le_weekly := hdw
      weekly_le_monthly := hwm
      monthly_le_halt := hmh
      tradesPerDay_consistent := htrades
      ladder_coherent := fun henabled => ladderCoherent_of_checked (hladder henabled)
      rolling_le_weekly := hrollingWeekly
      risk_le_currency := hcurrency
      risk_le_correlated := hcorrelated
      risk_le_total := htotal
      positions_reachable := hreach
      positions_le_daily := hday }

end RiskSettings

end Sentinel
