import Sentinel.Risk.Engine

/-!
# When the engine returns a verdict

The engine promises a verdict for every context.  Its helpers raise on
degenerate prices; one of those calls, the break-even rate, is reached with a
target that sits on the entry reference.  On contexts as the agent builds them
that is the only way `evaluate_entry` raises.
-/

namespace Sentinel

structure CostModel.NonNegative (model : CostModel) : Prop where
  spread : 0 ≤ model.spreadPips
  commission : 0 ≤ model.commissionPerLotRoundTurn
  news : 0 ≤ model.newsSpreadMultiplier
  slippage : 0 ≤ model.slippagePipsMedian

/-- A time the calendar has, costs that are not rebates, a projection that is
a count. -/
structure RiskContext.WellFormed (ctx : RiskContext) : Prop where
  clock : -62135596800 ≤ ctx.nowNs / 1000000000 ∧ ctx.nowNs / 1000000000 ≤ 253402300799
  costs : ∀ model ∈ ctx.costModels.values, model.NonNegative
  projected : ∀ n ∈ ctx.projectedTradesPerYear, 0 ≤ n

def TargetOnEntry (intent : IntentFields) (ctx : RiskContext) : Prop :=
  ∃ m stop, market intent ctx = .ok m ∧ intent.stopLoss = some stop ∧
    stop ≠ entryRef intent m ∧ intent.takeProfit = some (entryRef intent m)

/-! ## The helpers -/

theorem utcDayOfYear_ok {ns : ℤ}
    (h : -62135596800 ≤ ns / 1000000000 ∧ ns / 1000000000 ≤ 253402300799) :
    ∃ day, utcDayOfYear ns = .ok day := by
  rw [utcDayOfYear]
  simp only
  rw [if_neg (by omega)]
  split <;> exact ⟨_, rfl⟩

theorem roundTripPips_ok (model : CostModel) {lots pipVal : Dec} (h : 0 < pipVal)
    (news : Bool) :
    model.roundTripPips lots pipVal news =
      .ok (model.spreadPips * (if news then model.newsSpreadMultiplier else 1) +
        model.commissionPerLotRoundTurn * lots / pipVal + model.slippagePipsMedian * 2) := by
  rw [CostModel.roundTripPips, if_neg (not_le.2 h)]

theorem Market.pipValue_pos (m : Market) : 0 < m.inst.pipValueQuote 1 * m.conv :=
  mul_pos (m.inst.pipValueQuote_pos one_pos) m.conv_pos

variable {ctx : RiskContext}

theorem costPips_nonneg (h : ctx.WellFormed) (intent : IntentFields)
    (m : Market) : 0 ≤ costPips intent ctx m := by
  have hspread := m.quote.spreadPips_nonneg m.inst
  have hmodel : (ctx.costModels.getD intent.instrument
      { spreadPips := m.quote.spreadPips m.inst }).NonNegative := by
    cases hget : ctx.costModels.get? intent.instrument with
    | none =>
        simp only [Dict.getD, hget, Option.getD_none]
        exact ⟨hspread, by norm_num, by norm_num, by norm_num⟩
    | some model =>
        simp only [Dict.getD, hget, Option.getD_some]
        exact h.costs model ((Dict.mem_values_iff _ _).2 ⟨_, hget⟩)
  simp only [costPips, roundTripPips_ok _ m.pipValue_pos]
  have hnews : 0 ≤ if ctx.newsBlackout.contains intent.instrument then
      (ctx.costModels.getD intent.instrument
        { spreadPips := m.quote.spreadPips m.inst }).newsSpreadMultiplier else 1 := by
    split
    · exact hmodel.news
    · exact zero_le_one
  have hcommission := div_nonneg
    (mul_nonneg hmodel.commission zero_le_one) m.pipValue_pos.le
  have hslippage := mul_nonneg hmodel.slippage zero_le_two
  exact add_nonneg (add_nonneg (mul_nonneg hmodel.spread hnews) hcommission) hslippage

theorem costBp_nonneg (h : ctx.WellFormed) (intent : IntentFields)
    (m : Market) : 0 ≤ costBp intent ctx m := by
  simp only [costBp]
  split
  case isTrue hnotional =>
    have hcost := costPips_nonneg h intent m
    have hunits := (m.inst.units_pos one_pos).le
    have hpip := m.inst.pip_pos.le
    have hconv := m.conv_pos.le
    positivity
  case isFalse => exact le_rfl

theorem projectedTrades_ok (h : ctx.WellFormed) :
    ∃ n, projectedTrades ctx = .ok n ∧ ∀ k ∈ n, 0 ≤ k := by
  rw [projectedTrades]
  cases hprojected : ctx.projectedTradesPerYear with
  | some n => exact ⟨some n, rfl, fun k hk => h.projected k (by rw [hprojected]; exact hk)⟩
  | none =>
      simp only
      by_cases htrades : 0 < ctx.tradesThisYear
      · obtain ⟨day, hday⟩ := utcDayOfYear_ok h.clock
        rw [if_pos htrades, hday]
        refine ⟨_, rfl, ?_⟩
        intro k hk
        rw [Option.mem_some_iff] at hk
        subst hk
        exact Int.ediv_nonneg (by positivity) (by omega)
      · rw [if_neg htrades]
        exact ⟨none, rfl, fun k hk => by cases hk⟩

theorem annualCostVetoes_ok (h : ctx.WellFormed) (cfg : RiskConfig)
    (intent : IntentFields) (m : Market) :
    ∃ vetoes, annualCostVetoes cfg intent ctx m = .ok vetoes := by
  obtain ⟨n, hn, hnonneg⟩ := projectedTrades_ok h
  rw [annualCostVetoes]
  rw [hn]
  cases n with
  | none => exact ⟨[], rfl⟩
  | some projected =>
      have hleverage : 0 ≤ bookLeverage ctx := zero_le_one.trans (le_max_right _ _)
      have hannual := annualCostPctOfEquity_ok (hnonneg projected rfl) hleverage
        (costBp_nonneg h intent m)
      by_cases hzero : projected = 0
      · exact ⟨[], by simp [hzero]; rfl⟩
      · refine ⟨vetoIf (cfg.maxAnnualCostPctOfEquity <
          costBp intent ctx m * bookLeverage ctx * projected / 100) .annualCost, ?_⟩
        simp only [bind, Except.bind, if_neg hzero, hannual]
        rfl

theorem breakEven_ok_iff (intent : IntentFields) (ctx : RiskContext) (m : Market)
    (stop : Dec) :
    (∃ be, breakEven intent ctx m stop = .ok be) ↔
      ¬(stop ≠ entryRef intent m ∧ intent.takeProfit = some (entryRef intent m)) := by
  have hpips : 0 < stopPips intent m stop ↔ stop ≠ entryRef intent m := by
    rw [stopPips, div_pos_iff_of_pos_right m.inst.pip_pos, abs_pos, sub_ne_zero, ne_comm]
  rw [breakEven]
  cases htarget : intent.takeProfit with
  | none => simp
  | some target =>
      have htargetPips : 0 < targetPips intent m target ↔ target ≠ entryRef intent m := by
        rw [targetPips, div_pos_iff_of_pos_right m.inst.pip_pos, abs_pos, sub_ne_zero]
      simp only [Option.some.injEq]
      by_cases hstop : stop = entryRef intent m
      · rw [if_neg fun hpos => hpips.1 hpos hstop]
        simp [hstop]
      · rw [if_pos (hpips.2 hstop)]
        have hrate := breakEvenWinRate_ok_iff (targetPips intent m target)
          (stopPips intent m stop) (costPips intent ctx m)
        cases hbe : breakEvenWinRate (targetPips intent m target)
            (stopPips intent m stop) (costPips intent ctx m) with
        | ok rate =>
            have hpos := (hrate.1 ⟨rate, hbe⟩).1
            simp [Except.map, htargetPips.1 hpos]
        | error e =>
            have hnone : ¬(0 < targetPips intent m target ∧ 0 < stopPips intent m stop) := by
              rw [← hrate, hbe]
              simp
            have hon : target = entryRef intent m := by
              by_contra hne
              exact hnone ⟨htargetPips.2 hne, hpips.2 hstop⟩
            simp [Except.map, hstop, hon]

/-! ## The method -/

theorem evaluatePriced_ok_iff (h : ctx.WellFormed) (cfg : RiskConfig)
    (intent : IntentFields) (m : Market) (stop : Dec) (earlier : List Veto) :
    (∃ d, evaluatePriced cfg intent ctx m stop earlier = .ok d) ↔
      ∃ be, breakEven intent ctx m stop = .ok be := by
  obtain ⟨annual, hannual⟩ := annualCostVetoes_ok h cfg intent m
  rw [evaluatePriced]
  cases hbe : breakEven intent ctx m stop with
  | error e => simp [bind, Except.bind]
  | ok be => simp [bind, Except.bind, hannual, pure, Except.pure]

theorem not_ok_of_targetOnEntry {cfg : RiskConfig} {intent : IntentFields}
    {ctx : RiskContext} (hctx : ctx.WellFormed) (h : TargetOnEntry intent ctx) :
    ¬∃ d, evaluateEntry cfg intent ctx = .ok d := by
  obtain ⟨m, stop, hm, hstop, hne, htarget⟩ := h
  simp only [evaluateEntry, hm, hstop, evaluatePriced_ok_iff hctx, breakEven_ok_iff, not_not]
  exact ⟨hne, htarget⟩

theorem ok_of_not_targetOnEntry {cfg : RiskConfig} {intent : IntentFields}
    {ctx : RiskContext} (hctx : ctx.WellFormed) (h : ¬TargetOnEntry intent ctx) :
    ∃ d, evaluateEntry cfg intent ctx = .ok d := by
  rw [evaluateEntry]
  cases hm : market intent ctx with
  | error rule => exact ⟨_, rfl⟩
  | ok m =>
      cases hstop : intent.stopLoss with
      | none => exact ⟨_, rfl⟩
      | some stop =>
          simp only [evaluatePriced_ok_iff hctx, breakEven_ok_iff]
          rintro ⟨hne, htarget⟩
          exact h ⟨m, stop, hm, hstop, hne, htarget⟩

/-- On a well-formed context the engine returns a verdict exactly when the
target of a priced intent with a real stop does not sit on the entry. -/
theorem evaluateEntry_returns_iff (cfg : RiskConfig) (intent : OrderIntent)
    (ctx : RiskContext) (hctx : ctx.WellFormed) :
    (∃ d, evaluateEntry cfg intent.toIntentFields ctx = .ok d) ↔
      ¬TargetOnEntry intent.toIntentFields ctx :=
  ⟨fun hok htarget => not_ok_of_targetOnEntry hctx htarget hok,
    ok_of_not_targetOnEntry hctx⟩

/-! ## A ticket whose target is the current ask -/

def eurUsd : Instrument where
  symbol := "EUR_USD"
  base := "EUR"
  quote := "USD"

def eurUsdQuote : Quote where
  instrument := "EUR_USD"
  bid := 10999 / 10000
  ask := 11 / 10

def flatContext : RiskContext where
  nowNs := 1700000000000000000
  account := { accountId := "a", currency := "USD", balance := 100000, equity := 100000
               marginAvailable := 100000 }
  positions := []
  instruments := Dict.empty.set "EUR_USD" eurUsd
  quotes := Dict.empty.set "EUR_USD" eurUsdQuote
  conversions := .empty
  equityPeak := 100000

theorem flatContext_wellFormed : flatContext.WellFormed where
  clock := by decide
  costs := fun model hmodel => by cases hmodel
  projected := fun n hn => by cases hn

def targetAtAsk : OrderIntent where
  toIntentFields :=
    { clientOrderId := "c-1", strategy := "manual", instrument := "EUR_USD", side := .buy
      lots := 1 / 100, stopLoss := some (1095 / 1000), takeProfit := some (11 / 10) }
  accepted := by decide +kernel

theorem targetAtAsk_onEntry : TargetOnEntry targetAtAsk.toIntentFields flatContext :=
  ⟨⟨eurUsd, eurUsdQuote, 1, one_pos⟩, 1095 / 1000, rfl, rfl, by decide +kernel,
    by decide +kernel⟩

theorem evaluateEntry_raises_on_targetAtAsk :
    ¬∀ (cfg : RiskConfig) (intent : OrderIntent) (ctx : RiskContext), ctx.WellFormed →
      ∃ d, evaluateEntry cfg intent.toIntentFields ctx = .ok d :=
  fun h => not_ok_of_targetOnEntry flatContext_wellFormed targetAtAsk_onEntry
    (h default targetAtAsk flatContext flatContext_wellFormed)

theorem evaluateEntry_returns_iff_flat :
    (∃ d, evaluateEntry default targetAtAsk.toIntentFields flatContext = .ok d) ↔
      ¬TargetOnEntry targetAtAsk.toIntentFields flatContext :=
  evaluateEntry_returns_iff default targetAtAsk flatContext flatContext_wellFormed

end Sentinel
