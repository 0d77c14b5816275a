import Sentinel.Risk.Engine

/-!
# What an approved verdict has passed

The verdict approves exactly when every section returned no veto.  The sections
are grouped by what they read, and the approved size is described by the
feasible budget size it was shrunk from.
-/

namespace Sentinel

structure PassedLocal (cfg : RiskConfig) (intent : IntentFields) (ctx : RiskContext)
    (m : Market) (stop : Dec) (be : Option Dec) : Prop where
  absolute : absoluteStops cfg ctx = []
  data : dataVetoes cfg intent ctx = []
  spread : spreadVetoes cfg intent ctx m = []
  cooldown : cooldownVetoes intent ctx = []
  divergence : divergenceVetoes intent ctx = []
  stops : stopVetoes cfg intent ctx m stop = []
  rewardRisk : rewardRiskVetoes cfg intent m stop = []
  cost : costVetoes be = []
  loss : lossVetoes cfg ctx = []
  frequency : frequencyVetoes cfg ctx = []
  sizing : sizingVetoes cfg ctx (budgetSizing cfg intent ctx m stop) = []

structure PassedBook (cfg : RiskConfig) (intent : IntentFields) (ctx : RiskContext)
    (m : Market) (stop : Dec) (annual : List Veto) : Prop where
  annual : annual = []
  stress : stressVetoes ctx m (budgetSizing cfg intent ctx m stop) = []
  portfolio : portfolioVetoes cfg intent ctx m (finalSizing cfg intent ctx m stop) = []

structure Approval (cfg : RiskConfig) (intent : IntentFields) (ctx : RiskContext)
    (d : RiskDecision) (m : Market) (stop : Dec) : Prop where
  market_eq : market intent ctx = .ok m
  stop_eq : intent.stopLoss = some stop
  lifecycle : lifecycleVetoes intent ctx = []
  alarms : alarmVetoes ctx = []
  news : newsVetoes intent ctx = []
  passedLocal : ∃ be, breakEven intent ctx m stop = .ok be ∧
    PassedLocal cfg intent ctx m stop be
  passedBook : ∃ annual, annualCostVetoes cfg intent ctx m = .ok annual ∧
    PassedBook cfg intent ctx m stop annual
  vetoes : d.vetoes = []
  lots : d.approvedLots = (finalSizing cfg intent ctx m stop).lots
  risk : d.riskAmount = (finalSizing cfg intent ctx m stop).riskAmount

theorem market_eq_ok {intent : IntentFields} {ctx : RiskContext} {m : Market}
    (h : market intent ctx = .ok m) :
    ctx.instruments.get? intent.instrument = some m.inst ∧
      ctx.quotes.get? intent.instrument = some m.quote ∧
      ctx.conversion m.inst.quote = some m.conv := by
  unfold market at h
  cases hinst : ctx.instruments.get? intent.instrument with
  | none => simp [hinst] at h
  | some inst =>
      cases hquote : ctx.quotes.get? intent.instrument with
      | none => simp [hinst, hquote] at h
      | some quote =>
          cases hconv : ctx.conversion inst.quote with
          | none => simp [hinst, hquote, hconv] at h
          | some conv =>
              simp only [hinst, hquote, hconv] at h
              split at h
              · cases h
                exact ⟨rfl, rfl, hconv⟩
              · cases h

theorem pricedVetoes_eq_nil_iff {cfg : RiskConfig} {intent : IntentFields}
    {ctx : RiskContext} {m : Market} {stop : Dec} {be : Option Dec} {annual : List Veto} :
    pricedVetoes cfg intent ctx m stop
        (absoluteStops cfg ctx ++ lifecycleVetoes intent ctx ++
          standingVetoes cfg intent ctx m) be annual = [] ↔
      lifecycleVetoes intent ctx = [] ∧ alarmVetoes ctx = [] ∧ newsVetoes intent ctx = [] ∧
        PassedLocal cfg intent ctx m stop be ∧ PassedBook cfg intent ctx m stop annual := by
  simp only [pricedVetoes, standingVetoes, List.append_eq_nil_iff]
  constructor
  · rintro ⟨⟨⟨⟨⟨⟨⟨⟨⟨⟨⟨habs, hlife⟩, ⟨⟨⟨⟨halarm, hdata⟩, hspread⟩, hnews⟩, hcool⟩, hdiv⟩, hstops⟩,
      hrr⟩, hcost⟩, hloss⟩, hfreq⟩, hannual⟩, hsize⟩, hstress⟩, hport⟩
    exact ⟨hlife, halarm, hnews,
      ⟨habs, hdata, hspread, hcool, hdiv, hstops, hrr, hcost, hloss, hfreq, hsize⟩,
      ⟨hannual, hstress, hport⟩⟩
  · rintro ⟨hlife, halarm, hnews, hlocal, hbook⟩
    exact ⟨⟨⟨⟨⟨⟨⟨⟨⟨⟨⟨hlocal.absolute, hlife⟩, ⟨⟨⟨⟨halarm, hlocal.data⟩, hlocal.spread⟩, hnews⟩,
      hlocal.cooldown⟩, hlocal.divergence⟩, hlocal.stops⟩, hlocal.rewardRisk⟩, hlocal.cost⟩,
      hlocal.loss⟩, hlocal.frequency⟩, hbook.annual⟩, hlocal.sizing⟩, hbook.stress⟩,
      hbook.portfolio⟩

section Verdict

variable {cfg : RiskConfig} {intent : IntentFields} {ctx : RiskContext} {m : Market}
  {stop : Dec} {earlier : List Veto} {be : Option Dec} {annual : List Veto}

theorem pricedVerdict_approved_iff :
    (pricedVerdict cfg intent ctx m stop earlier be annual).approved ↔
      pricedVetoes cfg intent ctx m stop earlier be annual = [] := by
  simp only [pricedVerdict, List.isEmpty_iff]

theorem pricedVerdict_of_approved
    (h : pricedVetoes cfg intent ctx m stop earlier be annual = []) :
    let d := pricedVerdict cfg intent ctx m stop earlier be annual
    d.vetoes = [] ∧ d.approvedLots = (finalSizing cfg intent ctx m stop).lots ∧
      d.riskAmount = (finalSizing cfg intent ctx m stop).riskAmount := by
  simp [pricedVerdict, h]

end Verdict

theorem approval_of_approved {cfg : RiskConfig} {intent : IntentFields} {ctx : RiskContext}
    {d : RiskDecision} (hd : evaluateEntry cfg intent ctx = .ok d) (happroved : d.approved) :
    ∃ m stop, Approval cfg intent ctx d m stop := by
  unfold evaluateEntry at hd
  cases hm : market intent ctx with
  | error rule =>
      simp only [hm, Except.ok.injEq] at hd
      rw [← hd] at happroved
      cases happroved
  | ok m =>
      cases hstop : intent.stopLoss with
      | none =>
          simp only [hm, hstop, Except.ok.injEq] at hd
          rw [← hd] at happroved
          cases happroved
      | some stop =>
          simp only [hm, hstop, evaluatePriced] at hd
          cases hbe : breakEven intent ctx m stop with
          | error e => simp [hbe, bind, Except.bind] at hd
          | ok be =>
              cases hannual : annualCostVetoes cfg intent ctx m with
              | error e => simp [hbe, hannual, bind, Except.bind] at hd
              | ok annual =>
                  simp only [hbe, hannual, bind, Except.bind, pure, Except.pure,
                    Except.ok.injEq] at hd
                  subst hd
                  have hnil := pricedVerdict_approved_iff.1 happroved
                  obtain ⟨hlife, halarm, hnews, hlocal, hbook⟩ :=
                    pricedVetoes_eq_nil_iff.1 hnil
                  obtain ⟨hvetoes, hlots, hrisk⟩ := pricedVerdict_of_approved hnil
                  exact ⟨m, stop, hm, hstop, hlife, halarm, hnews, ⟨be, hbe, hlocal⟩,
                    ⟨annual, hannual, hbook⟩, hvetoes, hlots, hrisk⟩

namespace Approval

variable {cfg : RiskConfig} {intent : IntentFields} {ctx : RiskContext} {d : RiskDecision}
  {m : Market} {stop : Dec}

theorem instrument_eq (h : Approval cfg intent ctx d m stop) :
    ctx.instruments.get? intent.instrument = some m.inst ∧
      ctx.quotes.get? intent.instrument = some m.quote ∧
      ctx.conversion m.inst.quote = some m.conv :=
  market_eq_ok h.market_eq

theorem feasible (h : Approval cfg intent ctx d m stop) :
    (budgetSizing cfg intent ctx m stop).feasible := by
  obtain ⟨be, -, hlocal⟩ := h.passedLocal
  have hsizing := hlocal.sizing
  simp only [sizingVetoes, List.append_eq_nil_iff, vetoIf_eq_nil, not_not] at hsizing
  exact hsizing.2

theorem feasibleSize (h : Approval cfg intent ctx d m stop) :
    FeasibleSize ctx.account.equity (entryRef intent m) stop m.inst m.conv
      cfg.maxLotsPerTrade (budgetSizing cfg intent ctx m stop) :=
  feasibleSize_of_feasible h.feasible

theorem equity_pos (h : Approval cfg intent ctx d m stop) : 0 < ctx.account.equity :=
  h.feasibleSize.equity_pos

theorem baseEquity_eq (h : Approval cfg intent ctx d m stop) :
    ctx.baseEquity = ctx.account.equity := by
  rw [RiskContext.baseEquity, orElse, if_neg h.equity_pos.ne']

theorem sizing_cases (h : Approval cfg intent ctx d m stop) :
    (finalSizing cfg intent ctx m stop = budgetSizing cfg intent ctx m stop ∧
      (StressActive ctx (budgetSizing cfg intent ctx m stop) →
        (budgetSizing cfg intent ctx m stop).lots ≤ stressCap ctx m)) ∨
    (finalSizing cfg intent ctx m stop =
      (budgetSizing cfg intent ctx m stop).shrink (stressCap ctx m)
        (m.inst.roundLotsDown_nonneg _) ∧
      m.inst.minLot ≤ stressCap ctx m ∧
      stressCap ctx m < (budgetSizing cfg intent ctx m stop).lots) := by
  obtain ⟨annual, -, hbook⟩ := h.passedBook
  have hstress := hbook.stress
  simp only [stressVetoes, vetoIf_eq_nil, not_and, not_lt] at hstress
  unfold finalSizing stressSizing
  by_cases hactive : StressActive ctx (budgetSizing cfg intent ctx m stop)
  · by_cases hcap : stressCap ctx m < (budgetSizing cfg intent ctx m stop).lots
    · have hmin := hstress hactive hcap
      refine .inr ⟨?_, hmin, hcap⟩
      simp [hactive, hcap, hmin]
    · refine .inl ⟨?_, fun _ => not_lt.1 hcap⟩
      simp [hcap]
  · refine .inl ⟨?_, fun hyes => absurd hyes hactive⟩
    simp [hactive]

theorem minLot_le (h : Approval cfg intent ctx d m stop) : m.inst.minLot ≤ d.approvedLots := by
  rw [h.lots]
  rcases h.sizing_cases with ⟨hsame, -⟩ | ⟨hcut, hmin, -⟩
  · rw [hsame]
    exact h.feasibleSize.minLot_le
  · rw [hcut]
    exact hmin

theorem lots_pos (h : Approval cfg intent ctx d m stop) : 0 < d.approvedLots :=
  m.inst.minLot_pos.trans_le h.minLot_le

theorem risk_eq (h : Approval cfg intent ctx d m stop) :
    d.riskAmount =
      d.approvedLots * stopPips intent m stop * (m.inst.pipValueQuote 1 * m.conv) := by
  rw [h.risk, h.lots]
  have hbudget := h.feasibleSize.riskAmount_eq
  rcases h.sizing_cases with ⟨hsame, -⟩ | ⟨hcut, -, hlt⟩
  · rw [hsame]
    exact hbudget
  · have hpos : (budgetSizing cfg intent ctx m stop).lots ≠ 0 :=
      (m.inst.minLot_pos.trans_le h.feasibleSize.minLot_le).ne'
    rw [hcut]
    simp only [SizingResult.shrink, hbudget, stopPips]
    field_simp

theorem stopPips_pos (h : Approval cfg intent ctx d m stop) : 0 < stopPips intent m stop :=
  div_pos (abs_pos.2 (sub_ne_zero.2 h.feasibleSize.entry_ne_stop)) m.inst.pip_pos

theorem risk_pos (h : Approval cfg intent ctx d m stop) : 0 < d.riskAmount := by
  rw [h.risk_eq]
  exact mul_pos (mul_pos h.lots_pos h.stopPips_pos)
    (mul_pos (m.inst.pipValueQuote_pos one_pos) m.conv_pos)

end Approval

end Sentinel
