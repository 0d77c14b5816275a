import Sentinel.Risk.Totality
import Sentinel.Risk.Verdict

/-!
# The limits an approved trade keeps

The limits are stated over the book with the new trade in it at the approved
size, independently of the order in which the engine sizes, shrinks and checks.
-/

namespace Sentinel

def chargedRisk (cfg : RiskConfig) (ctx : RiskContext) (p : Position) : Dec :=
  if p.initialRisk ≤ 0 then ctx.account.equity * cfg.riskPerTradePct / 100 else p.initialRisk

def committedRisk (cfg : RiskConfig) (ctx : RiskContext) (newRisk : Dec) : Dec :=
  (ctx.positions.map (chargedRisk cfg ctx)).sum + ctx.pendingRisk + newRisk

/-- The loss of `lots` at the stop, in the account currency. -/
def riskAtStop (intent : IntentFields) (m : Market) (stop lots : Dec) : Dec :=
  lots * stopPips intent m stop * (m.inst.pipValueQuote 1 * m.conv)

/-- The open book with the new trade in it at `lots`. -/
def bookWith (intent : IntentFields) (ctx : RiskContext) (m : Market) (lots : Dec) :
    List Position :=
  ctx.positions ++
    [{ instrument := intent.instrument, side := intent.side, lots
       entryPrice := entryRef intent m }]

def StressConfigured (ctx : RiskContext) : Prop :=
  ctx.stressScenarios.isEmpty = false ∧ 0 < ctx.stressLimitPct

structure WithinLimits (cfg : RiskConfig) (intent : IntentFields) (ctx : RiskContext)
    (m : Market) (stop lots : Dec) : Prop where
  openRisk : committedRisk cfg ctx (riskAtStop intent m stop lots) ≤
    cfg.maxTotalOpenRiskPct / 100 * ctx.account.equity
  group : ∀ others ∈ ctx.groupOthersOpenRisk,
    committedRisk cfg ctx (riskAtStop intent m stop lots) + others ≤
      cfg.maxGroupOpenRiskPct / 100 * (ctx.account.equity + ctx.groupOthersEquity)
  priced : (grossNotional (bookWith intent ctx m lots) ctx.instruments ctx.mids
    ctx.conversions ctx.account.currency).2 = []
  leverage : (grossNotional (bookWith intent ctx m lots) ctx.instruments ctx.mids
    ctx.conversions ctx.account.currency).1 ≤ cfg.maxGrossLeverage * ctx.account.equity
  margin : requiredMargin m lots ≤ ctx.account.marginAvailable / 2
  openPositions : (bookWith intent ctx m lots).length ≤ cfg.maxOpenPositions
  perInstrument :
    ((bookWith intent ctx m lots).filter fun p => p.instrument = intent.instrument).length ≤
      cfg.maxPositionsPerInstrument
  stress : StressConfigured ctx →
    (bookStressLoss (bookWith intent ctx m lots) ctx.instruments ctx.mids ctx.conversions
      ctx.account.currency ctx.stressScenarios).1 ≤
      ctx.stressLimitPct / 100 * ctx.account.equity

structure LimitsMeasured (ctx : RiskContext) (m : Market) : Prop where
  groupEquity_pos : ctx.groupOthersOpenRisk ≠ none →
    0 < ctx.account.equity + ctx.groupOthersEquity
  stressMeasured : StressConfigured ctx →
    0 < scenarioGap m.inst ctx.stressScenarios ∨
      (openStress ctx).1 ≤ ctx.stressLimitPct / 100 * ctx.account.equity

/-! ## Percentages -/

theorem le_of_pct_le {amount base pct : Dec} (hbase : 0 < base)
    (h : amount / base * 100 ≤ pct) : amount ≤ pct / 100 * base := by
  have hdiv : amount / base ≤ pct / 100 := by linarith
  exact (div_le_iff₀ hbase).1 hdiv

/-! ## The parts -/

section Parts

variable {cfg : RiskConfig} {intent : IntentFields} {ctx : RiskContext} {d : RiskDecision}
  {m : Market} {stop : Dec}

theorem sum_chargedRisk (cfg : RiskConfig) (ctx : RiskContext) (positions : List Position) :
    (positions.map (chargedRisk cfg ctx)).sum =
      (positions.map Position.initialRisk).sum +
        ctx.account.equity * cfg.riskPerTradePct / 100 *
          (positions.filter fun p => p.initialRisk ≤ 0).length := by
  induction positions with
  | nil => simp
  | cons p positions ih =>
      rw [List.map_cons, List.sum_cons, List.map_cons, List.sum_cons, ih]
      by_cases hunknown : p.initialRisk ≤ 0
      · have hzero : p.initialRisk = 0 := le_antisymm hunknown p.initialRisk_nonneg
        simp only [chargedRisk, List.filter_cons, hunknown, decide_true, if_true,
          List.length_cons]
        push_cast
        rw [hzero]
        ring
      · simp only [chargedRisk, List.filter_cons, hunknown, decide_false, if_false,
          Bool.false_eq_true]
        ring

theorem chargedRisk_nonneg (hequity : 0 < ctx.account.equity) (p : Position) :
    0 ≤ chargedRisk cfg ctx p := by
  unfold chargedRisk
  split
  · have hpct := cfg.riskPerTradePct_pos.le
    have hequity := hequity.le
    positivity
  · exact p.initialRisk_nonneg

namespace Approval

theorem riskAtStop_eq (h : Approval cfg intent ctx d m stop) :
    riskAtStop intent m stop d.approvedLots = d.riskAmount :=
  h.risk_eq.symm

theorem totalRisk_eq (h : Approval cfg intent ctx d m stop) :
    totalRisk cfg ctx (finalSizing cfg intent ctx m stop) =
      committedRisk cfg ctx (riskAtStop intent m stop d.approvedLots) := by
  rw [h.riskAtStop_eq, h.risk, committedRisk, sum_chargedRisk, totalRisk, h.baseEquity_eq]
  unfold unknownRiskPositions
  ring

theorem portfolio_eq_nil (h : Approval cfg intent ctx d m stop) :
    portfolioVetoes cfg intent ctx m (finalSizing cfg intent ctx m stop) = [] := by
  obtain ⟨annual, -, hbook⟩ := h.passedBook
  exact hbook.portfolio

theorem openRisk_le (h : Approval cfg intent ctx d m stop) :
    committedRisk cfg ctx (riskAtStop intent m stop d.approvedLots) ≤
      cfg.maxTotalOpenRiskPct / 100 * ctx.account.equity := by
  have hportfolio := h.portfolio_eq_nil
  simp only [portfolioVetoes, List.append_eq_nil_iff, totalRiskVetoes, vetoIf_eq_nil,
    not_lt] at hportfolio
  have htotal := hportfolio.1.1.2
  rw [RiskContext.pctOfEquity, h.baseEquity_eq, if_pos h.equity_pos, h.totalRisk_eq] at htotal
  exact le_of_pct_le h.equity_pos htotal

theorem committedRisk_pos (h : Approval cfg intent ctx d m stop)
    (hpending : 0 ≤ ctx.pendingRisk) :
    0 < committedRisk cfg ctx (riskAtStop intent m stop d.approvedLots) := by
  have hcharged : 0 ≤ (ctx.positions.map (chargedRisk cfg ctx)).sum := by
    refine List.sum_nonneg ?_
    intro x hx
    obtain ⟨p, -, rfl⟩ := List.mem_map.1 hx
    exact chargedRisk_nonneg h.equity_pos p
  have hnew := h.risk_pos
  rw [h.riskAtStop_eq, committedRisk]
  linarith

theorem group_le (h : Approval cfg intent ctx d m stop)
    (hequity : 0 < ctx.account.equity + ctx.groupOthersEquity) {others : Dec}
    (hothers : ctx.groupOthersOpenRisk = some others) :
    committedRisk cfg ctx (riskAtStop intent m stop d.approvedLots) + others ≤
      cfg.maxGroupOpenRiskPct / 100 * (ctx.account.equity + ctx.groupOthersEquity) := by
  have hportfolio := h.portfolio_eq_nil
  simp only [portfolioVetoes, List.append_eq_nil_iff, groupVetoes, hothers, vetoIf_eq_nil,
    not_lt] at hportfolio
  have htotal := hportfolio.1.2.1.2
  rw [pctOfGroup, groupEquity, h.baseEquity_eq, if_pos hequity, h.totalRisk_eq] at htotal
  exact le_of_pct_le hequity htotal

theorem grossNotional_eq (h : Approval cfg intent ctx d m stop) :
    grossNotional (bookWith intent ctx m d.approvedLots) ctx.instruments ctx.mids
        ctx.conversions ctx.account.currency =
      grossNotional (prospective intent ctx m (finalSizing cfg intent ctx m stop))
        ctx.instruments ctx.mids ctx.conversions ctx.account.currency := by
  rw [h.lots]
  simp only [grossNotional, bookWith, prospective, List.filterMap_append]
  rfl

theorem priced (h : Approval cfg intent ctx d m stop) :
    (grossNotional (bookWith intent ctx m d.approvedLots) ctx.instruments ctx.mids
      ctx.conversions ctx.account.currency).2 = [] := by
  have hportfolio := h.portfolio_eq_nil
  simp only [portfolioVetoes, List.append_eq_nil_iff, leverageVetoes, vetoIf_eq_nil,
    not_not] at hportfolio
  rw [h.grossNotional_eq]
  exact hportfolio.1.1.1.1.1.1.2.1

theorem leverage_le (h : Approval cfg intent ctx d m stop) :
    (grossNotional (bookWith intent ctx m d.approvedLots) ctx.instruments ctx.mids
      ctx.conversions ctx.account.currency).1 ≤
      cfg.maxGrossLeverage * ctx.account.equity := by
  have hportfolio := h.portfolio_eq_nil
  simp only [portfolioVetoes, List.append_eq_nil_iff, leverageVetoes, vetoIf_eq_nil,
    not_lt] at hportfolio
  have hleverage := hportfolio.1.1.1.1.1.1.2.2
  rw [h.baseEquity_eq, if_pos h.equity_pos, ← h.grossNotional_eq] at hleverage
  exact (div_le_iff₀ h.equity_pos).1 hleverage

theorem margin_le (h : Approval cfg intent ctx d m stop) :
    requiredMargin m d.approvedLots ≤ ctx.account.marginAvailable / 2 := by
  have hportfolio := h.portfolio_eq_nil
  simp only [portfolioVetoes, List.append_eq_nil_iff, marginVetoes, vetoIf_eq_nil,
    not_lt] at hportfolio
  have hmargin := hportfolio.1.1.1.2
  rw [h.lots]
  linarith

theorem counts_le (h : Approval cfg intent ctx d m stop) (lots : Dec) :
    (bookWith intent ctx m lots).length ≤ cfg.maxOpenPositions ∧
      ((bookWith intent ctx m lots).filter fun p =>
        p.instrument = intent.instrument).length ≤ cfg.maxPositionsPerInstrument := by
  have hportfolio := h.portfolio_eq_nil
  simp only [portfolioVetoes, List.append_eq_nil_iff, countVetoes, vetoIf_eq_nil,
    not_le] at hportfolio
  obtain ⟨hopen, hsame⟩ := hportfolio.1.1.1.1.1.1.1
  refine ⟨?_, ?_⟩
  · simp only [bookWith, List.length_append, List.length_singleton]
    omega
  · simp only [bookWith, List.filter_append, List.length_append]
    simpa [Nat.succ_le_iff] using hsame

/-! ### Stress -/

theorem lots_le_stressCap (h : Approval cfg intent ctx d m stop)
    (hstress : StressConfigured ctx) : d.approvedLots ≤ stressCap ctx m := by
  rw [h.lots]
  rcases h.sizing_cases with ⟨hsame, hfits⟩ | ⟨hcut, -, -⟩
  · rw [hsame]
    refine hfits ⟨hstress.1, hstress.2, h.feasible, ?_⟩
    exact m.inst.minLot_pos.trans_le h.feasibleSize.minLot_le
  · rw [hcut]
    exact le_rfl

theorem mid_pos (h : Approval cfg intent ctx d m stop) (hstress : StressConfigured ctx) :
    0 < m.quote.mid := by
  by_contra hmid
  have hle := h.lots_le_stressCap hstress
  have hzero : stressCap ctx m = 0 := by
    simp only [stressCap, maxLotsWithin, positionNotional, if_pos (Or.inr (not_lt.1 hmid))]
    exact m.inst.roundLotsDown_of_nonpos le_rfl
  rw [hzero] at hle
  exact absurd h.lots_pos (not_lt.2 hle)

theorem bookStress_eq (h : Approval cfg intent ctx d m stop) (hstress : StressConfigured ctx)
    (lots : Dec) :
    (bookStressLoss (bookWith intent ctx m lots) ctx.instruments ctx.mids ctx.conversions
        ctx.account.currency ctx.stressScenarios).1 =
      (openStress ctx).1 +
        m.inst.units lots * m.quote.mid * m.conv * scenarioGap m.inst ctx.stressScenarios := by
  obtain ⟨hinst, hquote, hconv⟩ := h.instrument_eq
  have hmid : ctx.mids.getD intent.instrument (entryRef intent m) = m.quote.mid := by
    simp [Dict.getD, RiskContext.mids, hquote]
  have hrate : (if m.inst.quote = ctx.account.currency then some 1
      else ctx.conversions.get? m.inst.quote) = some m.conv := hconv
  have hpriced : ¬(m.conv ≤ 0 ∨ m.quote.mid ≤ 0) := by
    rw [not_or]
    exact ⟨not_le.2 m.conv_pos, not_le.2 (h.mid_pos hstress)⟩
  simp only [bookStressLoss, bookWith, openStress, List.map_append, List.filterMap_append,
    List.sum_append, List.map_singleton, positionStress, hinst, hmid, hrate, positionNotional,
    if_neg hpriced]
  simp

theorem stress_le_iff (h : Approval cfg intent ctx d m stop) (hstress : StressConfigured ctx) :
    (bookStressLoss (bookWith intent ctx m d.approvedLots) ctx.instruments ctx.mids
        ctx.conversions ctx.account.currency ctx.stressScenarios).1 ≤
      ctx.stressLimitPct / 100 * ctx.account.equity ↔
    0 < scenarioGap m.inst ctx.stressScenarios ∨
      (openStress ctx).1 ≤ ctx.stressLimitPct / 100 * ctx.account.equity := by
  rw [h.bookStress_eq hstress]
  by_cases hgap : 0 < scenarioGap m.inst ctx.stressScenarios
  · refine ⟨fun _ => .inl hgap, fun _ => ?_⟩
    have hcap : d.approvedLots ≤ maxLotsWithin
        (ctx.baseEquity * ctx.stressLimitPct / 100 - (openStress ctx).1) m.inst m.quote.mid
        m.conv ctx.stressScenarios := by
      refine (h.lots_le_stressCap hstress).trans (m.inst.roundLotsDown_le ?_)
      exact m.inst.minLot_pos.le.trans (m.inst.minLot_le_of_le_roundLotsDown
        (h.minLot_le.trans (h.lots_le_stressCap hstress)))
    have hfits := stress_le_of_le_maxLotsWithin h.lots_pos hgap hcap
    rw [h.baseEquity_eq] at hfits
    linarith
  · rw [stress_eq_zero hgap, add_zero]
    exact ⟨.inr, fun hor => hor.resolve_left hgap⟩

end Approval

end Parts

/-! ## All limits at once -/

theorem withinLimits_iff {cfg : RiskConfig} {intent : IntentFields} {ctx : RiskContext}
    {d : RiskDecision} {m : Market} {stop : Dec} (h : Approval cfg intent ctx d m stop)
    (hpending : 0 ≤ ctx.pendingRisk) (hothers : ∀ r ∈ ctx.groupOthersOpenRisk, 0 ≤ r) :
    WithinLimits cfg intent ctx m stop d.approvedLots ↔ LimitsMeasured ctx m := by
  constructor
  · intro hwithin
    refine ⟨?_, fun hstress => (h.stress_le_iff hstress).1 (hwithin.stress hstress)⟩
    intro hgroup
    obtain ⟨others, hsome⟩ := Option.ne_none_iff_exists'.1 hgroup
    have htotal := hwithin.group others (by rw [hsome]; rfl)
    have hpos := h.committedRisk_pos hpending
    have hrest := hothers others (by rw [hsome]; rfl)
    by_contra hequity
    have hcap : cfg.maxGroupOpenRiskPct / 100 *
        (ctx.account.equity + ctx.groupOthersEquity) ≤ 0 :=
      mul_nonpos_of_nonneg_of_nonpos (div_pos cfg.maxGroupOpenRiskPct_pos (by norm_num)).le
        (not_lt.1 hequity)
    linarith
  · intro hmeasured
    exact
      { openRisk := h.openRisk_le
        group := by
          intro others hsome
          rw [Option.mem_def] at hsome
          exact h.group_le (hmeasured.groupEquity_pos (by simp [hsome])) hsome
        priced := h.priced
        leverage := h.leverage_le
        margin := h.margin_le
        openPositions := (h.counts_le _).1
        perInstrument := (h.counts_le _).2
        stress := fun hstress => (h.stress_le_iff hstress).2 (hmeasured.stressMeasured hstress) }

/-- An approved trade keeps every configured limit exactly when the limits
could be measured: the group has equity, and the stress budget is not already
spent by a book the new trade adds no scenario loss to. -/
theorem approved_withinLimits_iff (cfg : RiskConfig) (intent : OrderIntent)
    (ctx : RiskContext) (d : RiskDecision) (m : Market) (stop : Dec)
    (hpending : 0 ≤ ctx.pendingRisk) (hothers : ∀ r ∈ ctx.groupOthersOpenRisk, 0 ≤ r)
    (hm : market intent.toIntentFields ctx = .ok m) (hstop : intent.stopLoss = some stop)
    (hd : evaluateEntry cfg intent.toIntentFields ctx = .ok d) (happroved : d.approved) :
    WithinLimits cfg intent.toIntentFields ctx m stop d.approvedLots ↔
      LimitsMeasured ctx m := by
  obtain ⟨m', stop', happroval⟩ := approval_of_approved hd happroved
  cases hm.symm.trans happroval.market_eq
  cases hstop.symm.trans happroval.stop_eq
  exact withinLimits_iff happroval hpending hothers

def eurUsdTicket : OrderIntent where
  toIntentFields :=
    { clientOrderId := "c-2", strategy := "trend", instrument := "EUR_USD", side := .buy
      lots := 1 / 100, stopLoss := some (1095 / 1000), takeProfit := some (111 / 100) }
  accepted := by decide +kernel

theorem approved_withinLimits_iff_flat :
    ∃ d, evaluateEntry default eurUsdTicket.toIntentFields flatContext = .ok d ∧
      (WithinLimits default eurUsdTicket.toIntentFields flatContext
          ⟨eurUsd, eurUsdQuote, 1, one_pos⟩ (1095 / 1000) d.approvedLots ↔
        LimitsMeasured flatContext ⟨eurUsd, eurUsdQuote, 1, one_pos⟩) := by
  have happroves : approves default eurUsdTicket.toIntentFields flatContext := by
    decide +kernel
  obtain ⟨d, hd, happroved⟩ := approves_iff.1 happroves
  exact ⟨d, hd, approved_withinLimits_iff default eurUsdTicket flatContext d
    ⟨eurUsd, eurUsdQuote, 1, one_pos⟩ (1095 / 1000) le_rfl (fun r hr => by cases hr) rfl rfl
    hd happroved⟩

/-! ## A book that has already spent its stress budget -/

def usdChf : Instrument where
  symbol := "USD_CHF"
  base := "USD"
  quote := "CHF"

def usdChfQuote : Quote where
  instrument := "USD_CHF"
  bid := 8999 / 10000
  ask := 9 / 10

def francContext : RiskContext :=
  { flatContext with
    positions := [{ instrument := "USD_CHF", side := .buy, lots := 1, entryPrice := 9 / 10
                    brokerStopConfirmed := true, initialRisk := 500 }]
    instruments := flatContext.instruments.set "USD_CHF" usdChf
    quotes := flatContext.quotes.set "USD_CHF" usdChfQuote
    conversions := Dict.empty.set "CHF" (11 / 10)
    stressScenarios := ((Dict.empty.set "CHF" (3 / 10)).set "EUR" 0).set "USD" 0
    stressLimitPct := 25 }

theorem limits_broken_on_francContext :
    ¬∀ (cfg : RiskConfig) (intent : OrderIntent) (ctx : RiskContext) (d : RiskDecision)
      (m : Market) (stop : Dec), 0 ≤ ctx.pendingRisk →
      (∀ r ∈ ctx.groupOthersOpenRisk, 0 ≤ r) →
      market intent.toIntentFields ctx = .ok m → intent.stopLoss = some stop →
      evaluateEntry cfg intent.toIntentFields ctx = .ok d → d.approved →
      WithinLimits cfg intent.toIntentFields ctx m stop d.approvedLots := by
  intro hall
  have happroves : approves default eurUsdTicket.toIntentFields francContext := by
    decide +kernel
  obtain ⟨d, hd, happroved⟩ := approves_iff.1 happroves
  obtain ⟨m, stop, happroval⟩ := approval_of_approved hd happroved
  have hm : m = ⟨eurUsd, eurUsdQuote, 1, one_pos⟩ := by
    have hm := happroval.market_eq
    cases hm
    rfl
  have hconfigured : StressConfigured francContext := ⟨rfl, by decide +kernel⟩
  have hstress := (hall default eurUsdTicket francContext d m stop le_rfl
    (fun r hr => by cases hr) happroval.market_eq happroval.stop_eq hd happroved).stress
    hconfigured
  rw [happroval.stress_le_iff hconfigured, hm] at hstress
  -- the scenario does not move the euro or the dollar, and 29 698 is over 25 000
  exact absurd hstress (by decide +kernel)

end Sentinel
