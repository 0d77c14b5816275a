import Sentinel.Risk.Exposure
import Sentinel.Risk.Sizing
import Sentinel.Risk.Stress

/-!
# The risk engine

`evaluate_entry` as the code computes it: the named sections of the method are
functions that return their vetoes, and the method concatenates them, with the
early returns where the source has them.  The texts of a veto (message,
observed, limit) and the diagnostics are for display and are not modelled; a
veto is its rule and its severity.
-/

namespace Sentinel

inductive Severity where
  | block
  | halt
  | warn
  deriving DecidableEq

inductive VetoRule where
  | killSwitch | halted | maxDrawdown | unresolvedOrders | connectivity
  | lifecycle | unknownInstrument | noPrice | missingConversion | portfolioAlarm
  | staleData | dataQuality | clockSkew | spread | newsBlackout
  | lossStreakCooldown | referenceDivergence | noStop | stopTooTight
  | venueStopDistance | stopTooWide | stopSide | rewardRisk | costBarrier
  | dailyLoss | weeklyLoss | monthlyLoss | rolling24hLoss | profitLock
  | frequencyDay | frequencyWeek | frequencyYear | entrySpacing | annualCost
  | ladderHalt | sizing | stressUnpriced | stressGap | stressShrunk
  | maxPositions | perInstrument | exposureUnconvertible | leverage
  | currencyExposure | correlatedRisk | margin | unknownPositionRisk
  | totalOpenRisk | groupVisibility | groupTotalRisk | groupCurrencyExposure
  | unprotectedBook | marginLevel | unprotectedPosition
  deriving DecidableEq

structure Veto where
  rule : VetoRule
  severity : Severity := .block
  deriving DecidableEq

/-- `[v]` when the condition holds, nothing otherwise. -/
def vetoIf (c : Prop) [Decidable c] (rule : VetoRule) (severity : Severity := .block) :
    List Veto :=
  if c then [⟨rule, severity⟩] else []

@[simp] theorem vetoIf_eq_nil {c : Prop} [Decidable c] {rule : VetoRule}
    {severity : Severity} : vetoIf c rule severity = [] ↔ ¬c := by
  by_cases h : c <;> simp [vetoIf, h]

theorem mem_vetoIf {c : Prop} [Decidable c] {rule : VetoRule} {severity : Severity}
    {v : Veto} : v ∈ vetoIf c rule severity ↔ c ∧ v = ⟨rule, severity⟩ := by
  by_cases h : c <;> simp [vetoIf, h]

/-! ## The context -/

/-- Everything the engine is allowed to know, captured at one instant. -/
structure RiskContext where
  nowNs : ℤ
  account : AccountState
  positions : List Position
  instruments : Dict String Instrument
  quotes : Dict String Quote
  conversions : Dict String Dec
  equityPeak : Dec
  dayPnl : Dec := 0
  weekPnl : Dec := 0
  monthPnl : Dec := 0
  weekStartEquity : Dec := 0
  monthStartEquity : Dec := 0
  rolling24hPnl : Dec := 0
  dayProfitLocked : Bool := false
  ladderRung : ℕ := 0
  venueMinStopPips : Dict String Dec := .empty
  dayStartEquity : Dec := 0
  tradesToday : ℕ := 0
  tradesThisWeek : ℕ := 0
  tradesThisYear : ℕ := 0
  lastEntryNs : Option ℤ := none
  pendingRisk : Dec := 0
  unresolvedOrders : ℕ := 0
  missingConversions : List String := []
  blockingAlarms : List VetoRule := []
  regimeRiskMultiplier : Dec := 1
  clockSkewMs : Option Dec := none
  connectivityOk : Bool := true
  offlineSeconds : Dec := 0
  dataAgeSec : Dict String Dec := .empty
  dataQuality : Dict String DataQuality := .empty
  normalSpreadPips : Dict String Dec := .empty
  newsBlackout : Dict String String := .empty
  priceDivergence : Dict String String := .empty
  cooldowns : Dict String String := .empty
  stressScenarios : Dict String Dec := .empty
  stressLimitPct : Dec := 0
  correlations : Dict (String × String) Dec := .empty
  costModels : Dict String CostModel := .empty
  halted : Bool := false
  haltReason : String := ""
  killSwitch : Bool := false
  strategyLifecycles : Dict String Lifecycle := .empty
  liveMoney : Bool := false
  projectedTradesPerYear : Option ℤ := none
  groupOthersOpenRisk : Option Dec := none
  groupOthersEquity : Dec := 0
  groupOthersCurrencyRisk : Dict String Dec := .empty
  groupUnknownMembers : List String := []

namespace RiskContext

variable (ctx : RiskContext)

/-- Quote to account rate, `none` when it is unknown. -/
def conversion (quoteCcy : String) : Option Dec :=
  if quoteCcy = ctx.account.currency then some 1 else ctx.conversions.get? quoteCcy

def drawdownPct : Dec :=
  if ctx.equityPeak ≤ 0 then 0
  else max 0 ((ctx.equityPeak - ctx.account.equity) / ctx.equityPeak * 100)

def dayPnlPct : Dec :=
  let base := orElse ctx.dayStartEquity ctx.account.equity
  if 0 < base then ctx.dayPnl / base * 100 else 0

/-- `base_eq`. -/
def baseEquity : Dec := orElse ctx.account.equity 1

/-- An amount as a percentage of `base_eq`, zero when that is not positive. -/
def pctOfEquity (amount : Dec) : Dec :=
  if 0 < ctx.baseEquity then amount / ctx.baseEquity * 100 else 0

def mids : Dict String Dec := ctx.quotes.mapValues Quote.mid

end RiskContext

structure RiskDecision where
  approved : Bool
  vetoes : List Veto := []
  warnings : List Veto := []
  sizing : Option SizingResult := none
  riskMultiplier : Dec := 1
  approvedLots : Dec := 0
  riskAmount : Dec := 0
  riskPct : Dec := 0
  expectedCostPips : Dec := 0
  breakEvenWinRate : Option Dec := none

def RiskDecision.halting (d : RiskDecision) : Bool :=
  d.vetoes.any fun v => v.severity = .halt

/-! ## Calendar days -/

/-- `datetime.fromtimestamp(ns / 1e9, utc).timetuple().tm_yday`, with the
error the conversion raises outside the years 1 to 9999.  The day count is
shifted to eras of four hundred years that start on the first of March. -/
def utcDayOfYear (ns : ℤ) : Except ValueError ℤ :=
  let seconds := ns / 1000000000
  if seconds < -62135596800 ∨ 253402300799 < seconds then .error ⟨"year is out of range"⟩
  else
    let z := seconds / 86400 + 719468
    let era := z / 146097
    let dayOfEra := z - era * 146097
    let yearOfEra :=
      (dayOfEra - dayOfEra / 1460 + dayOfEra / 36524 - dayOfEra / 146096) / 365
    let marchDay := dayOfEra - (365 * yearOfEra + yearOfEra / 4 - yearOfEra / 100)
    let leap := yearOfEra % 4 = 0 ∧ (yearOfEra % 100 ≠ 0 ∨ yearOfEra % 400 = 0)
    if 306 ≤ marchDay then .ok (marchDay - 305)
    else .ok (marchDay + 60 + if leap then 1 else 0)

/-! ## Sections 0 and 1: absolute stops, lifecycle, and what must be known -/

variable (cfg : RiskConfig) (intent : IntentFields) (ctx : RiskContext)

def absoluteStops : List Veto :=
  vetoIf ctx.killSwitch .killSwitch .halt ++
  vetoIf ctx.halted .halted .halt ++
  vetoIf (0 < ctx.equityPeak ∧ cfg.maxDrawdownHaltPct ≤
      (ctx.equityPeak - ctx.account.equity) / ctx.equityPeak * 100) .maxDrawdown .halt ++
  vetoIf (0 < ctx.unresolvedOrders) .unresolvedOrders ++
  vetoIf (¬ctx.connectivityOk ∨ cfg.maxOfflineSecondsBeforeFreeze < ctx.offlineSeconds)
    .connectivity

def lifecycleVetoes : List Veto :=
  let lifecycle := ctx.strategyLifecycles.getD intent.strategy .hypothesis
  vetoIf (ctx.liveMoney ∧ lifecycle ≠ .accepted) .lifecycle

/-- What the rest of the method needs: the contract, the price and a positive
rate to the account currency. -/
structure Market where
  inst : Instrument
  quote : Quote
  conv : Dec
  conv_pos : 0 < conv

/-- The first three early returns. -/
def market : Except VetoRule Market :=
  match ctx.instruments.get? intent.instrument with
  | none => .error .unknownInstrument
  | some inst =>
      match ctx.quotes.get? intent.instrument with
      | none => .error .noPrice
      | some quote =>
          match ctx.conversion inst.quote with
          | none => .error .missingConversion
          | some conv =>
              if h : 0 < conv then .ok ⟨inst, quote, conv, h⟩
              else .error .missingConversion

def alarmVetoes : List Veto :=
  ctx.blockingAlarms.map fun _ => ⟨.portfolioAlarm, .block⟩

/-! ## Sections 2 to 4: data, spread, news, cooldown, reference -/

def StaleData (cfg : RiskConfig) (intent : IntentFields) (ctx : RiskContext) : Prop :=
  if ctx.dataAgeSec.isEmpty then False
  else
    match ctx.dataAgeSec.get? intent.instrument with
    | none => True
    | some age => cfg.maxDataStalenessSec < age

instance (cfg : RiskConfig) (intent : IntentFields) (ctx : RiskContext) :
    Decidable (StaleData cfg intent ctx) := by
  unfold StaleData
  cases ctx.dataAgeSec.get? intent.instrument <;> exact inferInstance

def dataVetoes : List Veto :=
  vetoIf (StaleData cfg intent ctx) .staleData ++
  vetoIf (ctx.dataQuality.getD intent.instrument .ok ≠ .ok) .dataQuality ++
  vetoIf (ctx.clockSkewMs.any fun skew => decide (cfg.maxClockSkewMs < |skew|)) .clockSkew

variable (m : Market) (stop : Dec)

def spreadVetoes (m : Market) : List Veto :=
  let spread := m.quote.spreadPips m.inst
  let normal := ctx.normalSpreadPips.getD intent.instrument spread
  vetoIf (0 < normal ∧ normal * cfg.maxSpreadPipsMultiple < spread) .spread

def newsVetoes : List Veto :=
  vetoIf (ctx.newsBlackout.contains intent.instrument) .newsBlackout

def cooldownVetoes : List Veto :=
  vetoIf (ctx.cooldowns.contains "*" ∨ ctx.cooldowns.contains intent.strategy)
    .lossStreakCooldown

def divergenceVetoes : List Veto :=
  vetoIf (ctx.priceDivergence.contains intent.instrument) .referenceDivergence

def standingVetoes (m : Market) : List Veto :=
  alarmVetoes ctx ++ dataVetoes cfg intent ctx ++ spreadVetoes cfg intent ctx m ++
    newsVetoes intent ctx ++ cooldownVetoes intent ctx ++ divergenceVetoes intent ctx

/-! ## Sections 5 and 6: stop discipline and cost -/

/-- `intent.limit_price or quote.price_for(intent.side)`. -/
def entryRef : Dec :=
  orElse (intent.limitPrice.getD 0) (m.quote.priceFor intent.side)

def stopPips (stop : Dec) : Dec :=
  |entryRef intent m - stop| / m.inst.pip

def targetPips (target : Dec) : Dec :=
  |target - entryRef intent m| / m.inst.pip

def stopVetoes : List Veto :=
  let pips := stopPips intent m stop
  let venueFloor := ctx.venueMinStopPips.getD intent.instrument 0
  vetoIf (pips < cfg.minStopPips) .stopTooTight ++
  vetoIf (0 < venueFloor ∧ pips < venueFloor) .venueStopDistance ++
  vetoIf (cfg.maxStopPips < pips) .stopTooWide ++
  vetoIf (intent.side = .buy ∧ entryRef intent m ≤ stop) .stopSide ++
  vetoIf (intent.side = .sell ∧ stop ≤ entryRef intent m) .stopSide

def rewardRiskVetoes : List Veto :=
  match intent.takeProfit with
  | none => []
  | some target =>
      let pips := stopPips intent m stop
      vetoIf (0 < pips ∧ targetPips intent m target / pips < cfg.minRewardRisk) .rewardRisk

/-- `cost_pips`: the model's round trip, the spread when the model raises. -/
def costPips (m : Market) : Dec :=
  let spread := m.quote.spreadPips m.inst
  let model := ctx.costModels.getD intent.instrument { spreadPips := spread }
  let pipValPerLot := m.inst.pipValueQuote 1 * m.conv
  match model.roundTripPips 1 pipValPerLot (ctx.newsBlackout.contains intent.instrument) with
  | .ok pips => pips
  | .error _ => spread

/-- `be`; the helper is called outside any `try`. -/
def breakEven : Except ValueError (Option Dec) :=
  match intent.takeProfit with
  | none => .ok none
  | some target =>
      let pips := stopPips intent m stop
      if 0 < pips then
        (breakEvenWinRate (targetPips intent m target) pips (costPips intent ctx m)).map some
      else .ok none

def costVetoes (be : Option Dec) : List Veto :=
  vetoIf (be.any fun rate => decide (65 / 100 ≤ rate)) .costBarrier

def costWarnings (be : Option Dec) : List Veto :=
  vetoIf (be.any fun rate => decide (58 / 100 ≤ rate ∧ rate < 65 / 100)) .costBarrier .warn

/-! ## Sections 7 and 8: loss budgets and frequency -/

def rollingLossVetoes : List Veto :=
  let rollBase := ctx.account.equity - ctx.rolling24hPnl
  vetoIf (0 < cfg.rolling24hLossLimitPct ∧ ctx.rolling24hPnl < 0 ∧ 0 < rollBase ∧
    cfg.rolling24hLossLimitPct ≤ -(ctx.rolling24hPnl / rollBase * 100)) .rolling24hLoss

def lossVetoes : List Veto :=
  let weekBase := orElse (orElse ctx.weekStartEquity ctx.account.equity) 1
  let monthBase := orElse (orElse ctx.monthStartEquity ctx.account.equity) 1
  vetoIf (cfg.dailyLossLimitPct ≤ -ctx.dayPnlPct) .dailyLoss ++
  vetoIf (cfg.weeklyLossLimitPct ≤ -(ctx.weekPnl / weekBase * 100)) .weeklyLoss ++
  vetoIf (cfg.monthlyLossLimitPct ≤ -(ctx.monthPnl / monthBase * 100)) .monthlyLoss ++
  rollingLossVetoes cfg ctx ++
  vetoIf (0 < cfg.dailyProfitLockPct ∧
    (ctx.dayProfitLocked ∨ cfg.dailyProfitLockPct ≤ ctx.dayPnlPct)) .profitLock

def frequencyVetoes : List Veto :=
  vetoIf (cfg.maxTradesPerDay ≤ ctx.tradesToday) .frequencyDay ++
  vetoIf (cfg.maxTradesPerWeek ≤ ctx.tradesThisWeek) .frequencyWeek ++
  vetoIf (cfg.maxTradesPerYear ≤ ctx.tradesThisYear) .frequencyYear ++
  vetoIf (ctx.lastEntryNs.any fun last => decide
    (((ctx.nowNs - last : ℤ) : Dec) / 1000000000 < cfg.minSecondsBetweenEntries)) .entrySpacing

/-- `projected`: trades per year at this pace. -/
def projectedTrades : Except ValueError (Option ℤ) :=
  match ctx.projectedTradesPerYear with
  | some n => .ok (some n)
  | none =>
      if 0 < ctx.tradesThisYear then do
        let day ← utcDayOfYear ctx.nowNs
        pure (some (ctx.tradesThisYear * 365 / max 1 day))
      else .ok none

def costBp (m : Market) : Dec :=
  let notional := m.inst.units 1 * m.quote.mid * m.conv
  if 0 < notional then
    costPips intent ctx m * m.inst.pip * m.inst.units 1 * m.conv / notional * 10000
  else 0

def bookLeverage : Dec :=
  let gross := (grossNotional ctx.positions ctx.instruments ctx.mids ctx.conversions
    ctx.account.currency).1
  max (if 0 < ctx.baseEquity then gross / ctx.baseEquity else 0) 1

def annualCostVetoes (m : Market) : Except ValueError (List Veto) := do
  match ← projectedTrades ctx with
  | none => pure []
  | some projected =>
      if projected = 0 then pure []
      else
        let annual ← annualCostPctOfEquity (costBp intent ctx m) (bookLeverage ctx) projected
        pure (vetoIf (cfg.maxAnnualCostPctOfEquity < annual) .annualCost)

/-! ## Section 10: sizing and gap stress -/

def riskMultiplier : Dec :=
  ladderMultiplier ctx.drawdownPct cfg.ladder cfg.ladderEnabled ctx.ladderRung
    cfg.ladderHysteresisPct * max 0 (min 1 ctx.regimeRiskMultiplier)

def budgetSizing : SizingResult :=
  sizePosition ctx.account.equity cfg.riskPerTradePct (entryRef intent m) stop m.inst
    (some m.conv) (riskMultiplier cfg ctx) cfg.maxLotsPerTrade

variable (sizing : SizingResult)

def sizingVetoes : List Veto :=
  vetoIf (riskMultiplier cfg ctx ≤ 0) .ladderHalt ++ vetoIf (¬sizing.feasible) .sizing

def sizingWarnings : List Veto :=
  if sizing.feasible then sizing.notes.map fun _ => ⟨.sizing, .warn⟩ else []

def StressActive (ctx : RiskContext) (sizing : SizingResult) : Prop :=
  ctx.stressScenarios.isEmpty = false ∧ 0 < ctx.stressLimitPct ∧ sizing.feasible ∧
    0 < sizing.lots

instance (ctx : RiskContext) (sizing : SizingResult) : Decidable (StressActive ctx sizing) :=
  inferInstanceAs (Decidable (_ ∧ _ ∧ _ ∧ _))

def openStress : Dec × List String :=
  bookStressLoss ctx.positions ctx.instruments ctx.mids ctx.conversions
    ctx.account.currency ctx.stressScenarios

def stressCap (m : Market) : Dec :=
  let budget := ctx.baseEquity * ctx.stressLimitPct / 100 - (openStress ctx).1
  m.inst.roundLotsDown (maxLotsWithin budget m.inst m.quote.mid m.conv ctx.stressScenarios)

/-- `_replace(sizing, lots=cap, ...)`, with the amounts scaled. -/
def SizingResult.shrink (s : SizingResult) (cap : Dec) (hcap : 0 ≤ cap) : SizingResult :=
  { s with
    lots := cap
    riskAmount := s.riskAmount * (cap / s.lots)
    riskPct := s.riskPct * (cap / s.lots)
    lots_nonneg := hcap
    riskAmount_nonneg := mul_nonneg s.riskAmount_nonneg (div_nonneg hcap s.lots_nonneg) }

def stressSizing (m : Market) (sizing : SizingResult) : SizingResult :=
  let cap := stressCap ctx m
  if StressActive ctx sizing ∧ cap < sizing.lots ∧ m.inst.minLot ≤ cap then
    sizing.shrink cap (m.inst.roundLotsDown_nonneg _)
  else sizing

def stressVetoes (m : Market) (sizing : SizingResult) : List Veto :=
  let cap := stressCap ctx m
  vetoIf (StressActive ctx sizing ∧ cap < sizing.lots ∧ cap < m.inst.minLot) .stressGap

def stressWarnings (m : Market) (sizing : SizingResult) : List Veto :=
  let cap := stressCap ctx m
  vetoIf (StressActive ctx sizing ∧ (openStress ctx).2 ≠ []) .stressUnpriced .warn ++
  vetoIf (StressActive ctx sizing ∧ cap < sizing.lots ∧ m.inst.minLot ≤ cap)
    .stressShrunk .warn

/-! ## Sections 11 and 12: portfolio limits, including the proposed trade -/

def countVetoes : List Veto :=
  let sameInst := (ctx.positions.filter fun p => p.instrument = intent.instrument).length
  vetoIf (cfg.maxOpenPositions ≤ ctx.positions.length) .maxPositions ++
  vetoIf (cfg.maxPositionsPerInstrument ≤ sameInst) .perInstrument

def proposedPosition (m : Market)
    (sizing : SizingResult) : Position where
  instrument := intent.instrument
  side := intent.side
  lots := sizing.lots
  entryPrice := entryRef intent m
  openedNs := ctx.nowNs
  strategy := intent.strategy
  initialRisk := sizing.riskAmount
  initialRisk_nonneg := sizing.riskAmount_nonneg

def prospective (m : Market) (sizing : SizingResult) : List Position :=
  ctx.positions ++ [proposedPosition intent ctx m sizing]

def leverageVetoes (m : Market) (sizing : SizingResult) : List Veto :=
  let gross := grossNotional (prospective intent ctx m sizing) ctx.instruments ctx.mids
    ctx.conversions ctx.account.currency
  let leverage := if 0 < ctx.baseEquity then gross.1 / ctx.baseEquity else 0
  vetoIf (gross.2 ≠ []) .exposureUnconvertible ++
  vetoIf (cfg.maxGrossLeverage < leverage) .leverage

/-- `risk_map`: the legs that look like the proposed one are skipped, and its
own risk is added explicitly. -/
def riskMap (m : Market) (sizing : SizingResult) : Dict String Dec :=
  let counted := (prospective intent ctx m sizing).filter fun p =>
    ¬(p.instrument = intent.instrument ∧ p.entryPrice = entryRef intent m)
  (Dict.totals (counted.map fun p => (p.instrument, p.initialRisk))).addTo
    intent.instrument sizing.riskAmount

def exposures (m : Market) (sizing : SizingResult) : List CurrencyExposure × List String :=
  currencyExposure (prospective intent ctx m sizing) ctx.instruments
    (riskMap intent ctx m sizing) ctx.conversions ctx.mids ctx.account.currency

def currencyVetoes (m : Market) (sizing : SizingResult) : List Veto :=
  let found := exposures intent ctx m sizing
  vetoIf (found.2 ≠ []) .exposureUnconvertible ++
  found.1.flatMap fun e =>
    vetoIf (cfg.maxCurrencyExposurePct < ctx.pctOfEquity |e.netRisk|) .currencyExposure

def clusterVetoes (m : Market) (sizing : SizingResult) : List Veto :=
  let clusters := correlationClusters
    ((prospective intent ctx m sizing).map Position.instrument)
    (riskMap intent ctx m sizing) ctx.correlations cfg.correlationThreshold
  clusters.flatMap fun c =>
    vetoIf (2 ≤ c.instruments.length ∧
      cfg.maxCorrelatedRiskPct < ctx.pctOfEquity c.totalRisk) .correlatedRisk

def requiredMargin (m : Market) (lots : Dec) : Dec :=
  m.inst.units lots * m.quote.mid * m.inst.marginRate * m.conv

def marginVetoes (m : Market) (sizing : SizingResult) : List Veto :=
  vetoIf (ctx.account.marginAvailable * (1 / 2) < requiredMargin m sizing.lots) .margin

def unknownRiskPositions : List Position :=
  ctx.positions.filter fun p => p.initialRisk ≤ 0

/-- `total_risk`: open positions, with the full budget for each unknown one,
this trade, and what is in flight. -/
def totalRisk : Dec :=
  let assumed := ctx.baseEquity * cfg.riskPerTradePct / 100 * (unknownRiskPositions ctx).length
  let openRisk := (ctx.positions.map Position.initialRisk).sum + assumed
  openRisk + sizing.riskAmount + ctx.pendingRisk

def totalRiskVetoes : List Veto :=
  vetoIf (cfg.maxTotalOpenRiskPct < ctx.pctOfEquity (totalRisk cfg ctx sizing)) .totalOpenRisk

def groupEquity : Dec := ctx.baseEquity + ctx.groupOthersEquity

def pctOfGroup (amount : Dec) : Dec :=
  if 0 < groupEquity ctx then amount / groupEquity ctx * 100 else 0

def groupVetoes (m : Market) (sizing : SizingResult) : List Veto :=
  match ctx.groupOthersOpenRisk with
  | none => []
  | some othersOpenRisk =>
      vetoIf (ctx.groupUnknownMembers ≠ []) .groupVisibility ++
      vetoIf (cfg.maxGroupOpenRiskPct <
        pctOfGroup ctx (totalRisk cfg ctx sizing + othersOpenRisk)) .groupTotalRisk ++
      (exposures intent ctx m sizing).1.flatMap fun e =>
        let combined := e.netRisk + ctx.groupOthersCurrencyRisk.getD e.currency 0
        vetoIf (cfg.maxGroupCurrencyExposurePct < pctOfGroup ctx |combined|)
          .groupCurrencyExposure

def unprotectedVetoes : List Veto :=
  vetoIf (cfg.requireBrokerSideStop ∧ ctx.positions.any fun p => !p.brokerStopConfirmed)
    .unprotectedBook

def portfolioVetoes (m : Market) (sizing : SizingResult) : List Veto :=
  countVetoes cfg intent ctx ++ leverageVetoes cfg intent ctx m sizing ++
    currencyVetoes cfg intent ctx m sizing ++ clusterVetoes cfg intent ctx m sizing ++
    marginVetoes ctx m sizing ++ totalRiskVetoes cfg ctx sizing ++
    groupVetoes cfg intent ctx m sizing ++ unprotectedVetoes cfg ctx

def portfolioWarnings : List Veto :=
  vetoIf (unknownRiskPositions ctx ≠ []) .unknownPositionRisk .warn

/-! ## `evaluate_entry` -/

def refused (vetoes : List Veto) : RiskDecision := { approved := false, vetoes }

def finalSizing : SizingResult :=
  stressSizing ctx m (budgetSizing cfg intent ctx m stop)

variable (earlier : List Veto)

def pricedVetoes (be : Option Dec) (annual : List Veto) : List Veto :=
  let budget := budgetSizing cfg intent ctx m stop
  earlier ++ stopVetoes cfg intent ctx m stop ++ rewardRiskVetoes cfg intent m stop ++
    costVetoes be ++ lossVetoes cfg ctx ++ frequencyVetoes cfg ctx ++ annual ++
    sizingVetoes cfg ctx budget ++ stressVetoes ctx m budget ++
    portfolioVetoes cfg intent ctx m (finalSizing cfg intent ctx m stop)

def pricedVerdict (be : Option Dec) (annual : List Veto) : RiskDecision :=
  let budget := budgetSizing cfg intent ctx m stop
  let sizing := finalSizing cfg intent ctx m stop
  let vetoes := pricedVetoes cfg intent ctx m stop earlier be annual
  let approved := vetoes.isEmpty
  { approved
    vetoes
    warnings := costWarnings be ++ stressWarnings ctx m budget ++ sizingWarnings sizing ++
      portfolioWarnings ctx
    sizing := some sizing
    riskMultiplier := riskMultiplier cfg ctx
    approvedLots := if approved then sizing.lots else 0
    riskAmount := if approved then sizing.riskAmount else 0
    riskPct := if approved then sizing.riskPct else 0
    expectedCostPips := costPips intent ctx m
    breakEvenWinRate := be }

def evaluatePriced : Except ValueError RiskDecision := do
  let be ← breakEven intent ctx m stop
  let annual ← annualCostVetoes cfg intent ctx m
  pure (pricedVerdict cfg intent ctx m stop earlier be annual)

/-- `RiskEngine.evaluate_entry`. -/
def evaluateEntry : Except ValueError RiskDecision :=
  let opening := absoluteStops cfg ctx ++ lifecycleVetoes intent ctx
  match market intent ctx with
  | .error rule => .ok (refused (opening ++ [⟨rule, .block⟩]))
  | .ok m =>
      let earlier := opening ++ standingVetoes cfg intent ctx m
      match intent.stopLoss with
      | none => .ok (refused (earlier ++ [⟨.noStop, .block⟩]))
      | some stop => evaluatePriced cfg intent ctx m stop earlier

def approves : Bool :=
  match evaluateEntry cfg intent ctx with
  | .ok d => d.approved
  | .error _ => false

theorem approves_iff {cfg : RiskConfig} {intent : IntentFields} {ctx : RiskContext} :
    approves cfg intent ctx ↔ ∃ d, evaluateEntry cfg intent ctx = .ok d ∧ d.approved := by
  unfold approves
  cases evaluateEntry cfg intent ctx with
  | ok d => simp
  | error e => simp

/-- `RiskEngine.portfolio_alarms`. -/
def portfolioAlarms : List Veto :=
  vetoIf (cfg.maxDrawdownHaltPct ≤ ctx.drawdownPct) .maxDrawdown .halt ++
  (match ctx.account.marginLevelPct with
    | none => []
    | some level =>
        vetoIf (level < 200) .marginLevel (if 150 ≤ level then .warn else .block)) ++
  (ctx.positions.flatMap fun p =>
    vetoIf (cfg.requireBrokerSideStop ∧ ¬p.brokerStopConfirmed) .unprotectedPosition) ++
  vetoIf (ctx.clockSkewMs.any fun skew => decide (cfg.maxClockSkewMs < |skew|)) .clockSkew

end Sentinel
