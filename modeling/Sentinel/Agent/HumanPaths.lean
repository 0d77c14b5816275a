import Sentinel.Agent.EntrySafety

/-!
# The human paths beside the agent's own

A human's call and a cycle at the same instant build their contexts from the
same desk and the same outside.  The human's has one instrument, the news of
the last cycle, no correlations and no alarms.  What it shows of that
instrument is what the cycle's context shows; what it leaves out is the rest of
this module.
-/

namespace Sentinel

/-! ## Sections that read one instrument -/

section OneInstrument

variable {cfg : RiskConfig} {intent : IntentFields} {a b : RiskContext} {m : Market}

theorem market_congr (hinst : b.instruments = a.instruments)
    (hquote : b.quotes.get? intent.instrument = a.quotes.get? intent.instrument)
    (hconv : ∀ inst, a.instruments.get? intent.instrument = some inst →
      (a.quotes.get? intent.instrument).isSome →
      b.conversion inst.quote = a.conversion inst.quote) :
    market intent b = market intent a := by
  unfold market
  rw [hinst, hquote]
  cases hi : a.instruments.get? intent.instrument with
  | none => rfl
  | some inst =>
      cases hq : a.quotes.get? intent.instrument with
      | none => rfl
      | some quote =>
          simp only
          rw [hconv inst hi (by rw [hq]; rfl)]

structure SameInstrument (intent : IntentFields) (a b : RiskContext) : Prop where
  age : b.dataAgeSec.get? intent.instrument = a.dataAgeSec.get? intent.instrument
  aged : (a.dataAgeSec.get? intent.instrument).isSome
  quality : b.dataQuality.get? intent.instrument = a.dataQuality.get? intent.instrument
  clockSkew : b.clockSkewMs = a.clockSkewMs
  costs : ∃ model : CostModel, a.costModels.get? intent.instrument = some model ∧
    b.costModels.get? intent.instrument = some model ∧
    0 ≤ model.spreadPips ∧ 1 ≤ model.newsSpreadMultiplier

theorem isEmpty_eq_false_of_get? {α : Type} {d : Dict String α} {k : String}
    (h : (d.get? k).isSome) : d.isEmpty = false := by
  obtain ⟨items, hnodup⟩ := d
  cases items with
  | nil => simp [Dict.get?] at h
  | cons entry items => rfl

theorem SameInstrument.staleData_iff (h : SameInstrument intent a b) :
    StaleData cfg intent b ↔ StaleData cfg intent a := by
  have haged : (b.dataAgeSec.get? intent.instrument).isSome := by
    rw [h.age]
    exact h.aged
  simp only [StaleData, isEmpty_eq_false_of_get? haged, isEmpty_eq_false_of_get? h.aged, h.age]

theorem SameInstrument.dataVetoes_nil (h : SameInstrument intent a b)
    (ha : dataVetoes cfg intent a = []) : dataVetoes cfg intent b = [] := by
  simp only [dataVetoes, List.append_eq_nil_iff, vetoIf_eq_nil] at ha ⊢
  obtain ⟨⟨hstale, hquality⟩, hskew⟩ := ha
  refine ⟨⟨?_, ?_⟩, ?_⟩
  · rw [h.staleData_iff]
    exact hstale
  · rw [Dict.getD, h.quality]
    exact hquality
  · rw [h.clockSkew]
    exact hskew

theorem spreadVetoes_nil_of_normal
    (hnormal : b.normalSpreadPips.get? intent.instrument =
      a.normalSpreadPips.get? intent.instrument)
    (ha : spreadVetoes cfg intent a m = []) : spreadVetoes cfg intent b m = [] := by
  simp only [spreadVetoes, vetoIf_eq_nil] at ha ⊢
  rw [Dict.getD, hnormal]
  exact ha

theorem SameInstrument.costPips_eq (h : SameInstrument intent a b)
    (hnews : b.newsBlackout.contains intent.instrument =
      a.newsBlackout.contains intent.instrument) :
    costPips intent b m = costPips intent a m := by
  obtain ⟨model, ha, hb, -, -⟩ := h.costs
  simp only [costPips, Dict.getD, ha, hb, hnews]

theorem SameInstrument.costPips_le (h : SameInstrument intent a b)
    (hnews : newsVetoes intent a = []) : costPips intent a m ≤ costPips intent b m := by
  obtain ⟨model, ha, hb, hspread, hmultiplier⟩ := h.costs
  have hcalm : a.newsBlackout.contains intent.instrument = false := by
    simpa [newsVetoes] using hnews
  simp only [costPips, Dict.getD, ha, hb, Option.getD_some, roundTripPips_ok _ m.pipValue_pos,
    hcalm, Bool.false_eq_true, if_false, mul_one]
  have hscaled : model.spreadPips ≤ model.spreadPips *
      (if b.newsBlackout.contains intent.instrument = true then model.newsSpreadMultiplier
        else 1) := by
    split_ifs
    · exact le_mul_of_one_le_right hspread hmultiplier
    · rw [mul_one]
  linarith

theorem costBp_le_of_costPips (h : costPips intent a m ≤ costPips intent b m) :
    costBp intent a m ≤ costBp intent b m := by
  simp only [costBp]
  split_ifs with hnotional
  · have hpip := m.inst.pip_pos.le
    have hunits := (m.inst.units_pos one_pos).le
    have hconv := m.conv_pos.le
    gcongr
  · exact le_rfl

theorem annualCostVetoes_ok_of_le (hprojected : projectedTrades b = projectedTrades a)
    (hcost : costBp intent a m ≤ costBp intent b m) {annual : List Veto}
    (ha : annualCostVetoes cfg intent a m = .ok annual) :
    ∃ annual', annualCostVetoes cfg intent b m = .ok annual' := by
  rw [annualCostVetoes] at ha ⊢
  rw [hprojected]
  cases hn : projectedTrades a with
  | error e => simp [hn, bind, Except.bind] at ha
  | ok projected =>
      cases projected with
      | none => exact ⟨[], rfl⟩
      | some n =>
          simp only [hn, bind, Except.bind] at ha ⊢
          by_cases hzero : n = 0
          · exact ⟨[], by rw [if_pos hzero]; rfl⟩
          · rw [if_neg hzero] at ha
            have hvalid : 0 ≤ n ∧ 0 ≤ costBp intent a m := by
              rw [annualCostPctOfEquity] at ha
              split_ifs at ha with hsign hnegative
              exact ⟨not_lt.1 fun h => hsign (.inl h), not_lt.1 hnegative⟩
            have hleverage : 0 ≤ bookLeverage b := zero_le_one.trans (le_max_right _ _)
            rw [if_neg hzero,
              annualCostPctOfEquity_ok hvalid.1 hleverage (hvalid.2.trans hcost)]
            exact ⟨_, rfl⟩

end OneInstrument

/-! ## The two contexts -/

theorem Agent.tradesYear_halt (a : Agent) (reason : String) :
    (a.halt reason).tradesYear = a.tradesYear := by
  rw [Agent.halt]
  split_ifs <;> rfl

namespace EntryDesk

variable (d : EntryDesk) (s : EntrySettings) (x : HumanInputs) (news : Dict String NewsAssessment)
  (correlations : Dict (String × String) Dec)

def cycleReads (news : Dict String NewsAssessment)
    (correlations : Dict (String × String) Dec) : CycleReads where
  nowNs := x.nowNs
  outside := x.outside
  rebuilt := x.outside
  news
  regime := d.regime
  group := d.group
  correlations

def ownContext : RiskContext :=
  (d.cycleView s (d.cycleReads x news correlations)).ctx

section Build

variable {d e : EntryDesk} {s : EntrySettings} {x : HumanInputs} {intent : IntentFields}
  {symbols : List String} {y : ContextArgs} {inst : Instrument} {quote : Quote}

theorem mem_keys_of_quote {feed : String → FeedRow} {k : String} (nowNs : ℤ)
    (hk : k ∈ symbols) (hquote : (feed k).quote = some quote) :
    k ∈ (feedSnapshot feed symbols nowNs).quotes.keys := by
  refine Dict.mem_keys_of_get? (v := quote) ?_
  rw [feedSnapshot_quote, if_pos hk, hquote]

theorem buildContext_conversion (hsnap : y.snap = feedSnapshot x.outside.feed symbols x.nowNs)
    (hk : intent.instrument ∈ symbols)
    (hquote : (x.outside.feed intent.instrument).quote = some quote)
    (hinst : x.outside.instruments.get? intent.instrument = some inst) :
    (e.buildContext s x.outside y).2.conversion inst.quote =
      if inst.quote = x.outside.account.currency then some 1
      else quoteRate s x.outside inst.quote := by
  have hconverted : (e.buildContext s x.outside y).2.conversions.get? inst.quote =
      quoteRate s x.outside inst.quote := by
    refine (convertQuotes_get? s x.outside y.snap.quotes.keys inst.quote).trans (if_pos ?_)
    refine ⟨intent.instrument, ?_, inst, hinst, rfl⟩
    rw [hsnap]
    exact mem_keys_of_quote x.nowNs hk hquote
  rw [RiskContext.conversion, hconverted]
  rfl

theorem market_buildContext (hsnap : y.snap = feedSnapshot x.outside.feed symbols x.nowNs)
    (hk : intent.instrument ∈ symbols) :
    market intent (e.buildContext s x.outside y).2 =
      market intent (d.humanContext s x intent.instrument).2 := by
  have hquotes : (e.buildContext s x.outside y).2.quotes.get? intent.instrument =
      (x.outside.feed intent.instrument).quote := by
    refine (congrArg (fun snap => snap.quotes.get? intent.instrument) hsnap).trans ?_
    rw [feedSnapshot_quote, if_pos hk]
  have hown : (d.humanContext s x intent.instrument).2.quotes.get? intent.instrument =
      (x.outside.feed intent.instrument).quote :=
    (feedSnapshot_quote _ _ x.nowNs _).trans (if_pos (List.mem_singleton.2 rfl))
  refine market_congr rfl (hquotes.trans hown.symm) ?_
  intro inst hinst hquoted
  rw [hown] at hquoted
  obtain ⟨quote, hquote⟩ := Option.isSome_iff_exists.1 hquoted
  rw [buildContext_conversion hsnap hk hquote hinst]
  exact (buildContext_conversion rfl (List.mem_singleton.2 rfl) hquote hinst).symm

theorem sameInstrument_buildContext
    (hsnap : y.snap = feedSnapshot x.outside.feed symbols x.nowNs)
    (hk : intent.instrument ∈ symbols)
    (hquote : (x.outside.feed intent.instrument).quote = some quote)
    (hinst : x.outside.instruments.get? intent.instrument = some inst) :
    SameInstrument intent (d.humanContext s x intent.instrument).2
      (e.buildContext s x.outside y).2 := by
  have hself : intent.instrument ∈ [intent.instrument] := List.mem_singleton.2 rfl
  have hage : (d.humanContext s x intent.instrument).2.dataAgeSec.get? intent.instrument =
      some ((x.outside.feed intent.instrument).age x.nowNs) :=
    (feedSnapshot_age _ _ x.nowNs _).trans (if_pos hself)
  have hquality : (d.humanContext s x intent.instrument).2.dataQuality.get? intent.instrument =
      some ((x.outside.feed intent.instrument).quality x.nowNs) :=
    (feedSnapshot_quality _ _ x.nowNs _).trans (if_pos hself)
  have hcosts : ∀ (symbols : List String) (h : SpreadHistory), intent.instrument ∈ symbols →
      (viewSpreads s x.outside h
        (feedSnapshot x.outside.feed symbols x.nowNs).quotes).costs.get? intent.instrument =
        some
          { spreadPips := quote.spreadPips inst
            commissionPerLotRoundTurn := s.commissionPerLotRoundTurn
            slippagePipsMedian := s.expectedSlippagePips } := by
    intro symbols h hmem
    have hat : (feedSnapshot x.outside.feed symbols x.nowNs).quotes.get? intent.instrument =
        some quote := by
      rw [feedSnapshot_quote, if_pos hmem, hquote]
    exact (viewSpreads_at s x.outside hat hinst).costs
  refine ⟨?_, ?_, ?_, rfl, _, hcosts [intent.instrument] _ hself, ?_,
    quote.spreadPips_nonneg inst, by norm_num⟩
  · rw [hage]
    refine (congrArg (fun snap => snap.ages.get? intent.instrument) hsnap).trans ?_
    rw [feedSnapshot_age, if_pos hk]
  · rw [hage]
    rfl
  · rw [hquality]
    refine (congrArg (fun snap => snap.quality.get? intent.instrument) hsnap).trans ?_
    rw [feedSnapshot_quality, if_pos hk]
  · refine (congrArg (fun snap => (viewSpreads s x.outside e.spreads
      snap.quotes).costs.get? intent.instrument) hsnap).trans ?_
    exact hcosts symbols _ hk

end Build

def informed (news : Dict String NewsAssessment) : EntryDesk :=
  { d with agent := (d.agent.hydrate x.outside.positions).1, news }

def cycleArgs (correlations : Dict (String × String) Dec) (blockingAlarms : List VetoRule) :
    ContextArgs where
  nowNs := x.nowNs
  positions := (d.agent.hydrate x.outside.positions).2
  snap := feedSnapshot x.outside.feed (activeInstruments s) x.nowNs
  correlations
  blockingAlarms

def firstContext : RiskContext :=
  ((d.informed x news).buildContext s x.outside (d.cycleArgs s x correlations [])).2

theorem ownContext_cases :
    let blocking := blockingRules (portfolioAlarms s.risk (d.firstContext s x news correlations))
    (blocking = [] ∧ d.ownContext s x news correlations = d.firstContext s x news correlations) ∨
    (blocking ≠ [] ∧ ∃ e : EntryDesk,
      e.agent.tradesYear = (d.informed x news).agent.tradesYear ∧
      d.ownContext s x news correlations =
        (e.buildContext s x.outside (d.cycleArgs s x correlations blocking)).2) := by
  intro blocking
  by_cases hblocking : blocking = []
  · refine .inl ⟨hblocking, ?_⟩
    rw [ownContext, cycleView]
    simp only
    rw [if_pos]
    · rfl
    · exact List.isEmpty_iff.2 hblocking
  · refine .inr ⟨hblocking, ?_⟩
    rw [ownContext, cycleView]
    simp only
    rw [if_neg]
    · refine ⟨_, ?_, rfl⟩
      split_ifs
      · exact Agent.tradesYear_halt _ _
      · rfl
    · intro hempty
      exact hblocking (List.isEmpty_iff.1 hempty)

end EntryDesk

/-! ## What the human's context settles -/

structure Cleared (cfg : RiskConfig) (intent : IntentFields) (ctx : RiskContext) (m : Market)
    (stop : Dec) : Prop where
  market_eq : market intent ctx = .ok m
  stop_eq : intent.stopLoss = some stop
  news : newsVetoes intent ctx = []
  passedLocal : ∃ be, breakEven intent ctx m stop = .ok be ∧
    PassedLocal cfg intent ctx m stop be
  annual : ∃ annual, annualCostVetoes cfg intent ctx m = .ok annual
  unprotected : unprotectedVetoes cfg ctx = []

theorem Approval.cleared {cfg : RiskConfig} {intent : IntentFields} {ctx : RiskContext}
    {d : RiskDecision} {m : Market} {stop : Dec} (h : Approval cfg intent ctx d m stop) :
    Cleared cfg intent ctx m stop := by
  obtain ⟨annual, hannual, hbook⟩ := h.passedBook
  refine ⟨h.market_eq, h.stop_eq, h.news, h.passedLocal, ⟨annual, hannual⟩, ?_⟩
  have hportfolio := hbook.portfolio
  simp only [portfolioVetoes, List.append_eq_nil_iff] at hportfolio
  exact hportfolio.2

theorem Cleared.of_forTicket {cfg : RiskConfig} {intent : IntentFields} {ctx : RiskContext}
    {m : Market} {stop : Dec} (h : Cleared cfg intent ctx.forTicket m stop) :
    Cleared cfg intent ctx m stop where
  market_eq := h.market_eq
  stop_eq := h.stop_eq
  news := h.news
  passedLocal := by
    obtain ⟨be, hbe, hlocal⟩ := h.passedLocal
    exact ⟨be, hbe, hlocal.absolute, hlocal.data, hlocal.spread, hlocal.cooldown,
      hlocal.divergence, hlocal.stops, hlocal.rewardRisk, hlocal.cost, hlocal.loss,
      hlocal.frequency, hlocal.sizing⟩
  annual := h.annual
  unprotected := h.unprotected

/-- What the cycle's context alone decides: the instrument is an active one, the
margin level is not under 150 %, the fresh assessment does not block it, and the
sections that price the whole book, with every quote, every rate and the
correlations, return no veto. -/
structure CyclePasses (s : EntrySettings) (intent : IntentFields) (own : RiskContext) :
    Prop where
  active : intent.instrument ∈ activeInstruments s
  margin : ∀ level ∈ own.account.marginLevelPct, 150 ≤ level
  news : newsVetoes intent own = []
  book : ∃ m stop annual, market intent own = .ok m ∧ intent.stopLoss = some stop ∧
    annualCostVetoes s.risk intent own m = .ok annual ∧
    PassedBook s.risk intent own m stop annual

theorem blockingRules_eq_nil_iff {cfg : RiskConfig} {ctx : RiskContext}
    (hunprotected : unprotectedVetoes cfg ctx = [])
    (hclock : ¬(ctx.clockSkewMs.any fun skew => decide (cfg.maxClockSkewMs < |skew|)) = true) :
    blockingRules (portfolioAlarms cfg ctx) = [] ↔
      ∀ level ∈ ctx.account.marginLevelPct, 150 ≤ level := by
  have hpositions : (ctx.positions.flatMap fun p =>
      vetoIf (cfg.requireBrokerSideStop ∧ ¬p.brokerStopConfirmed) .unprotectedPosition) = [] := by
    rw [List.flatMap_eq_nil_iff]
    intro p hp
    simp only [unprotectedVetoes, vetoIf_eq_nil, List.any_eq_true, not_and,
      not_exists] at hunprotected
    rw [vetoIf_eq_nil]
    rintro ⟨hrequired, hnaked⟩
    exact hunprotected hrequired p hp (by simpa using hnaked)
  have hskew : vetoIf (ctx.clockSkewMs.any fun skew => decide (cfg.maxClockSkewMs < |skew|))
      .clockSkew = [] := vetoIf_eq_nil.2 hclock
  have hdrawdown : (vetoIf (cfg.maxDrawdownHaltPct ≤ ctx.drawdownPct) .maxDrawdown .halt).filter
      (fun v => v.severity = .block) = [] := by
    rw [vetoIf]
    split_ifs <;> rfl
  simp only [blockingRules, portfolioAlarms, hpositions, hskew, List.append_nil,
    List.filter_append, hdrawdown, List.nil_append]
  cases ctx.account.marginLevelPct with
  | none => simp
  | some level =>
      by_cases hlevel : 150 ≤ level
      · simp only [Option.mem_some_iff, forall_eq', hlevel, iff_true]
        rw [vetoIf]
        split_ifs <;> rfl
      · have hlow : level < 200 := (not_le.1 hlevel).trans (by norm_num)
        simp [hlevel, hlow, vetoIf]

namespace EntryDesk

variable {d : EntryDesk} {s : EntrySettings} {x : HumanInputs} {intent : IntentFields}
  {news : Dict String NewsAssessment} {correlations : Dict (String × String) Dec} {m : Market}
  {stop : Dec}

theorem quoted_of_cleared
    (h : Cleared s.risk intent (d.humanContext s x intent.instrument).2 m stop) :
    (x.outside.feed intent.instrument).quote = some m.quote ∧
      x.outside.instruments.get? intent.instrument = some m.inst := by
  obtain ⟨hinst, hquote, -⟩ := market_eq_ok h.market_eq
  refine ⟨?_, hinst⟩
  rw [← hquote]
  exact ((feedSnapshot_quote _ _ x.nowNs _).trans (if_pos (List.mem_singleton.2 rfl))).symm

theorem ownContext_build (d : EntryDesk) (s : EntrySettings) (x : HumanInputs)
    (news : Dict String NewsAssessment) (correlations : Dict (String × String) Dec) :
    ∃ (e : EntryDesk) (blocking : List VetoRule),
      e.agent.tradesYear = (d.informed x news).agent.tradesYear ∧
      d.ownContext s x news correlations =
        (e.buildContext s x.outside (d.cycleArgs s x correlations blocking)).2 := by
  rcases d.ownContext_cases s x news correlations with ⟨-, hown⟩ | ⟨-, e, hyear, hown⟩
  · exact ⟨d.informed x news, [], rfl, hown⟩
  · exact ⟨e, _, hyear, hown⟩

theorem active_of_market (h : market intent (d.ownContext s x news correlations) = .ok m) :
    intent.instrument ∈ activeInstruments s := by
  obtain ⟨e, blocking, -, hown⟩ := d.ownContext_build s x news correlations
  obtain ⟨-, hquote, -⟩ := market_eq_ok h
  rw [hown] at hquote
  have hlookup : (feedSnapshot x.outside.feed (activeInstruments s) x.nowNs).quotes.get?
      intent.instrument = some m.quote := hquote
  rw [feedSnapshot_quote] at hlookup
  by_contra hinactive
  rw [if_neg hinactive] at hlookup
  cases hlookup

theorem market_own (d : EntryDesk) (x : HumanInputs) (news : Dict String NewsAssessment)
    (correlations : Dict (String × String) Dec)
    (hactive : intent.instrument ∈ activeInstruments s) :
    market intent (d.ownContext s x news correlations) =
      market intent (d.humanContext s x intent.instrument).2 := by
  obtain ⟨e, blocking, -, hown⟩ := d.ownContext_build s x news correlations
  rw [hown]
  exact market_buildContext rfl hactive

theorem evaluate_own (news : Dict String NewsAssessment)
    (correlations : Dict (String × String) Dec)
    (h : Cleared s.risk intent (d.humanContext s x intent.instrument).2 m stop) :
    ∃ verdict, evaluateEntry s.risk intent (d.ownContext s x news correlations) = .ok verdict := by
  cases hm : market intent (d.ownContext s x news correlations) with
  | error rule =>
      exact ⟨_, by simp only [evaluateEntry, hm]; rfl⟩
  | ok m' =>
      have hactive := active_of_market hm
      have hsame : m' = m := by
        have hmarkets := market_own d x news correlations hactive
        rw [hm, h.market_eq] at hmarkets
        exact Except.ok.inj hmarkets
      subst hsame
      obtain ⟨e, blocking, hyear, hown⟩ := d.ownContext_build s x news correlations
      obtain ⟨hquote, hinst⟩ := quoted_of_cleared h
      have hinstrument : SameInstrument intent (d.humanContext s x intent.instrument).2
          (d.ownContext s x news correlations) := by
        rw [hown]
        exact sameInstrument_buildContext rfl hactive hquote hinst
      have hprojected : projectedTrades (d.ownContext s x news correlations) =
          projectedTrades (d.humanContext s x intent.instrument).2 := by
        have hcount : (d.ownContext s x news correlations).tradesThisYear =
            (d.humanContext s x intent.instrument).2.tradesThisYear := by
          rw [hown]
          exact congrArg Int.toNat hyear
        rw [projectedTrades]
        rw [hcount, hown]
        rfl
      obtain ⟨annual, hannual⟩ := h.annual
      obtain ⟨annual', hannual'⟩ := annualCostVetoes_ok_of_le hprojected
        (costBp_le_of_costPips (hinstrument.costPips_le h.news)) hannual
      obtain ⟨be, hbe, -⟩ := h.passedLocal
      obtain ⟨be', hbe'⟩ := (breakEven_ok_iff intent (d.ownContext s x news correlations) m'
        stop).2 ((breakEven_ok_iff intent _ m' stop).1 ⟨be, hbe⟩)
      simp only [evaluateEntry, hm, h.stop_eq, evaluatePriced, hbe', hannual', bind, Except.bind,
        pure, Except.pure]
      exact ⟨_, rfl⟩

theorem blocking_eq_nil_iff
    (h : Cleared s.risk intent (d.humanContext s x intent.instrument).2 m stop) :
    blockingRules (portfolioAlarms s.risk (d.firstContext s x news correlations)) = [] ↔
      ∀ level ∈ (d.ownContext s x news correlations).account.marginLevelPct, 150 ≤ level := by
  obtain ⟨e, blocking, -, hown⟩ := d.ownContext_build s x news correlations
  obtain ⟨be, -, hlocal⟩ := h.passedLocal
  have hdata := hlocal.data
  simp only [dataVetoes, List.append_eq_nil_iff, vetoIf_eq_nil] at hdata
  rw [hown]
  exact blockingRules_eq_nil_iff h.unprotected hdata.2

theorem assess_of_assess {g : ReferenceGuard} {symbols symbols' : List String}
    {fresh : Dict String ReferenceCheck} (h : g.assess symbols = some fresh)
    (hsub : ∀ k ∈ symbols', k ∈ symbols) : ∃ fresh', g.assess symbols' = some fresh' := by
  rw [ReferenceGuard.assess] at h ⊢
  split_ifs at h with hdisabled hall
  · exact ⟨_, if_pos hdisabled⟩
  · have hall' : (symbols'.all fun symbol => (g.check symbol).isSome) = true := by
      rw [List.all_eq_true] at hall ⊢
      exact fun k hk => hall k (hsub k hk)
    exact ⟨_, by rw [if_neg hdisabled, if_pos hall']⟩

theorem divergenceVetoes_eq_nil_iff {ctx : RiskContext} :
    divergenceVetoes intent ctx = [] ↔ ctx.priceDivergence.get? intent.instrument = none := by
  rw [divergenceVetoes, vetoIf_eq_nil]
  simp [Dict.contains]

theorem divergence_first
    (h : Cleared s.risk intent (d.humanContext s x intent.instrument).2 m stop)
    (hactive : intent.instrument ∈ activeInstruments s)
    (hdivergence : divergenceVetoes intent (d.humanContext s x intent.instrument).2 = []) :
    divergenceVetoes intent (d.firstContext s x news correlations) = [] := by
  obtain ⟨hquote, -⟩ := quoted_of_cleared h
  have hown := mem_keys_of_quote x.nowNs hactive hquote
  have hhuman := mem_keys_of_quote x.nowNs
    (List.mem_singleton.2 (rfl : intent.instrument = intent.instrument)) hquote
  have hsub : ∀ k ∈ (feedSnapshot x.outside.feed [intent.instrument] x.nowNs).quotes.keys,
      k ∈ (feedSnapshot x.outside.feed (activeInstruments s) x.nowNs).quotes.keys := by
    intro k hk
    have hsame : k = intent.instrument := by
      by_contra hne
      refine (Dict.get?_eq_none_iff _ k).1 ?_ hk
      rw [feedSnapshot_quote, if_neg]
      simpa using hne
    rw [hsame]
    exact hown
  -- the check under the instrument is the human's, or the guard raised on another
  have hchecks : (refreshChecks d.checks x.outside.reference
      (feedSnapshot x.outside.feed (activeInstruments s) x.nowNs).quotes.keys).get?
        intent.instrument = none ∨
      (refreshChecks d.checks x.outside.reference
        (feedSnapshot x.outside.feed (activeInstruments s) x.nowNs).quotes.keys).get?
          intent.instrument =
      (refreshChecks d.checks x.outside.reference
        (feedSnapshot x.outside.feed [intent.instrument] x.nowNs).quotes.keys).get?
          intent.instrument := by
    cases hreference : x.outside.reference with
    | none => exact .inr rfl
    | some g =>
        cases hassess : g.assess
            (feedSnapshot x.outside.feed (activeInstruments s) x.nowNs).quotes.keys with
        | none =>
            left
            have hne : (feedSnapshot x.outside.feed (activeInstruments s)
                x.nowNs).quotes.keys.isEmpty = false := by
              rw [List.isEmpty_eq_false_iff_exists_mem]
              exact ⟨_, hown⟩
            simp [refreshChecks, hne, hassess]
        | some fresh =>
            right
            obtain ⟨fresh', hfresh'⟩ := assess_of_assess hassess hsub
            rw [refreshChecks_get? hassess hown, refreshChecks_get? hfresh' hhuman]
  rw [divergenceVetoes_eq_nil_iff] at hdivergence ⊢
  have hlookup : (divergences (refreshChecks d.checks x.outside.reference
      (feedSnapshot x.outside.feed [intent.instrument] x.nowNs).quotes.keys)).get?
        intent.instrument = none := hdivergence
  refine (divergences_get? (refreshChecks d.checks x.outside.reference
    (feedSnapshot x.outside.feed (activeInstruments s) x.nowNs).quotes.keys) _).trans ?_
  rw [divergences_get?] at hlookup
  rcases hchecks with hnone | hsame
  · rw [hnone]
    rfl
  · rw [hsame]
    exact hlookup

theorem passed_own
    (h : Cleared s.risk intent (d.humanContext s x intent.instrument).2 m stop)
    (hcycle : CyclePasses s intent (d.ownContext s x news correlations)) :
    PassedButLifecycle s.risk intent (d.ownContext s x news correlations) m stop := by
  have hfirst : d.ownContext s x news correlations = d.firstContext s x news correlations := by
    rcases d.ownContext_cases s x news correlations with ⟨-, hown⟩ | ⟨hblocking, -⟩
    · exact hown
    · exact absurd ((blocking_eq_nil_iff h).2 hcycle.margin) hblocking
  have hmarket := market_own d x news correlations hcycle.active
  rw [h.market_eq] at hmarket
  obtain ⟨m', stop', annual, hm', hstop', hannual, hbook⟩ := hcycle.book
  obtain rfl : m' = m := Except.ok.inj (hm'.symm.trans hmarket)
  obtain rfl : stop' = stop := Option.some.inj (hstop'.symm.trans h.stop_eq)
  have hnews := hcycle.news
  rw [hfirst] at hnews hm' hannual hbook ⊢
  obtain ⟨hquote, hinst⟩ := quoted_of_cleared h
  have hinstrument : SameInstrument intent (d.humanContext s x intent.instrument).2
      (d.firstContext s x news correlations) :=
    sameInstrument_buildContext rfl hcycle.active hquote hinst
  obtain ⟨be, hbe, hlocal⟩ := h.passedLocal
  have hcalm : (d.firstContext s x news correlations).newsBlackout.contains intent.instrument =
      (d.humanContext s x intent.instrument).2.newsBlackout.contains intent.instrument := by
    have hhuman := h.news
    simp only [newsVetoes, vetoIf_eq_nil, Bool.not_eq_true] at hnews hhuman
    rw [hnews, hhuman]
  have hbe' : breakEven intent (d.firstContext s x news correlations) m' stop' = .ok be := by
    rw [← hbe]
    unfold breakEven
    rw [hinstrument.costPips_eq hcalm]
  have hnormal : (d.firstContext s x news correlations).normalSpreadPips.get? intent.instrument =
      (d.humanContext s x intent.instrument).2.normalSpreadPips.get? intent.instrument := by
    have hat : ∀ symbols, intent.instrument ∈ symbols →
        (viewSpreads s x.outside d.spreads
          (feedSnapshot x.outside.feed symbols x.nowNs).quotes).At s x.outside d.spreads
            intent.instrument m'.quote m'.inst := by
      intro symbols hmem
      refine viewSpreads_at s x.outside ?_ hinst
      rw [feedSnapshot_quote, if_pos hmem, hquote]
    exact (hat _ hcycle.active).normal.trans
      (hat [intent.instrument] (List.mem_singleton.2 rfl)).normal.symm
  exact
    { market_eq := hm'
      stop_eq := h.stop_eq
      alarms := rfl
      news := hnews
      passedLocal := ⟨be, hbe',
        { absolute := hlocal.absolute
          data := hinstrument.dataVetoes_nil hlocal.data
          spread := spreadVetoes_nil_of_normal hnormal hlocal.spread
          cooldown := hlocal.cooldown
          divergence := divergence_first h hcycle.active hlocal.divergence
          stops := hlocal.stops
          rewardRisk := hlocal.rewardRisk
          cost := hlocal.cost
          loss := hlocal.loss
          frequency := hlocal.frequency
          sizing := hlocal.sizing }⟩
      passedBook := ⟨annual, hannual, hbook⟩ }

theorem cyclePasses_of_passed
    (h : Cleared s.risk intent (d.humanContext s x intent.instrument).2 m stop)
    {m' : Market} {stop' : Dec}
    (hpassed : PassedButLifecycle s.risk intent (d.ownContext s x news correlations) m' stop') :
    CyclePasses s intent (d.ownContext s x news correlations) := by
  obtain ⟨annual, hannual, hbook⟩ := hpassed.passedBook
  refine ⟨active_of_market hpassed.market_eq, (blocking_eq_nil_iff h).1 ?_, hpassed.news,
    m', stop', annual, hpassed.market_eq, hpassed.stop_eq, hannual, hbook⟩
  rcases d.ownContext_cases s x news correlations with ⟨hblocking, -⟩ | ⟨-, e, -, hown⟩
  · exact hblocking
  · have halarms := hpassed.alarms
    rw [hown] at halarms
    exact List.map_eq_nil_iff.1 halarms

/-! ## The calls of a human -/

def proposal? (d : EntryDesk) (clientOrderId : String) : Option Proposal :=
  d.queue.find? fun p => p.clientOrderId = clientOrderId

def humanIntent (d : EntryDesk) (x : HumanInputs) : HumanCall → Option OrderIntent
  | .accept clientOrderId => do
      let p ← d.proposal? clientOrderId
      let inst ← x.outside.instruments.get? p.instrument
      (OrderIntent.ofFields (p.intentFields inst)).toOption
  | .manual t => do
      let inst ← x.outside.instruments.get? t.instrument
      (OrderIntent.ofFields (t.intentFields x.nowNs inst)).toOption

def gatesOpen (d : EntryDesk) (s : EntrySettings) (x : HumanInputs) : HumanCall → Bool
  | .accept clientOrderId =>
      (d.proposal? clientOrderId).any fun p =>
        entryPermission s.venueMode x.gate && !d.agent.guardSuspended.contains p.strategy &&
          inSession s x.nowNs
  | .manual _ =>
      !(decide (s.venueMode = .live) && !s.manualTradingLive) &&
        entryPermission s.venueMode x.gate && inSession s x.nowNs

def callContext (d : EntryDesk) (s : EntrySettings) (x : HumanInputs) (instrument : String) :
    HumanCall → RiskContext
  | .accept _ => (d.humanContext s x instrument).2
  | .manual _ => (d.humanContext s x instrument).2.forTicket

def callCaution (d : EntryDesk) (s : EntrySettings) (x : HumanInputs) : HumanCall → Option Dec
  | .accept clientOrderId =>
      (d.proposal? clientOrderId).map fun p =>
        (d.humanContext s x p.instrument).1.acceptCaution x p
  | .manual t => (d.humanContext s x t.instrument).1.ticketCaution s x t

structure Admits (d : EntryDesk) (s : EntrySettings) (call : HumanCall) (x : HumanInputs)
    (intent : OrderIntent) : Prop where
  gates : d.gatesOpen s x call = true
  quoted : ((x.outside.feed intent.instrument).quote).isSome
  judged : ∃ inst verdict caution,
    x.outside.instruments.get? intent.instrument = some inst ∧
    evaluateEntry s.risk intent.toIntentFields (d.callContext s x intent.instrument call) =
      .ok verdict ∧
    verdict.approved = true ∧ d.callCaution s x call = some caution ∧
    inst.minLot ≤ inst.roundLotsDown (verdict.approvedLots * caution)

theorem readyOrder_isSome_iff {ctx : RiskContext} {inst : Instrument} {quote : Quote}
    {judged : OrderIntent} {verdict : RiskDecision} {caution : Dec} :
    (readyOrder ctx inst quote judged verdict caution).isSome ↔ verdict.approved = true ∧
      inst.minLot ≤ inst.roundLotsDown (verdict.approvedLots * caution) := by
  unfold readyOrder sizeOrder
  simp only
  split_ifs with happroved hlots
  · simp [happroved, hlots]
  · simp [hlots]
  · simp [happroved]

theorem evaluateHuman_isSome_iff {d : EntryDesk} {instrument : String}
    {fields : Instrument → IntentFields} {adjust : RiskContext → RiskContext}
    {caution : EntryDesk → Option Dec} (hfields : ∀ inst, (fields inst).instrument = instrument) :
    (d.evaluateHuman s x instrument fields adjust caution).order.isSome ↔
      ∃ intent : OrderIntent,
        ((x.outside.instruments.get? instrument).bind fun inst =>
          (OrderIntent.ofFields (fields inst)).toOption) = some intent ∧
        ((x.outside.feed intent.instrument).quote).isSome ∧
        ∃ inst verdict size, x.outside.instruments.get? intent.instrument = some inst ∧
          evaluateEntry s.risk intent.toIntentFields
            (adjust (d.humanContext s x intent.instrument).2) = .ok verdict ∧
          verdict.approved = true ∧ caution (d.humanContext s x instrument).1 = some size ∧
          inst.minLot ≤ inst.roundLotsDown (verdict.approvedLots * size) := by
  have hlookup : (feedSnapshot x.outside.feed [instrument] x.nowNs).quotes.get? instrument =
      (x.outside.feed instrument).quote :=
    (feedSnapshot_quote _ _ _ _).trans (if_pos (List.mem_singleton.2 rfl))
  constructor
  · intro hsome
    obtain ⟨order, horder⟩ := Option.isSome_iff_exists.1 hsome
    obtain ⟨quote, inst, intent, verdict, size, hquote, hinst, hintent, hverdict, hsize, hready⟩ :=
      EntryDesk.evaluateHuman_order.1 horder
    obtain ⟨happroved, hlots⟩ := readyOrder_isSome_iff.1 (Option.isSome_of_eq_some hready)
    have hsame : intent.instrument = instrument := by
      rw [OrderIntent.fields_of_ofFields hintent, hfields]
    subst hsame
    refine ⟨intent, ?_, ?_, inst, verdict, size, hinst, hverdict, happroved, hsize, hlots⟩
    · simp [hinst, hintent, Except.toOption]
    · rw [← hlookup, hquote]
      rfl
  · rintro ⟨intent, hintent, hquoted, inst, verdict, size, hinst, hverdict, happroved, hsize,
      hlots⟩
    obtain ⟨inst', hinst', hvalid⟩ := Option.bind_eq_some_iff.1 hintent
    cases hofFields : OrderIntent.ofFields (fields inst') with
    | error e => simp [hofFields, Except.toOption] at hvalid
    | ok valid =>
        obtain rfl : valid = intent := by simpa [hofFields, Except.toOption] using hvalid
        have hsame : valid.instrument = instrument := by
          rw [OrderIntent.fields_of_ofFields hofFields, hfields]
        subst hsame
        obtain rfl : inst' = inst := Option.some.inj (hinst'.symm.trans hinst)
        obtain ⟨quote, hquote⟩ := Option.isSome_iff_exists.1 hquoted
        have hready : (readyOrder (adjust (d.humanContext s x valid.instrument).2) inst' quote
            valid verdict size).isSome := readyOrder_isSome_iff.2 ⟨happroved, hlots⟩
        obtain ⟨order, horder⟩ := Option.isSome_iff_exists.1 hready
        exact Option.isSome_of_eq_some (EntryDesk.evaluateHuman_order.2 ⟨quote, inst', valid,
          verdict, size, hlookup.trans hquote, hinst, hofFields, hverdict, hsize, horder⟩)

theorem gatesOpen_accept {clientOrderId : String} {p : Proposal}
    (hp : d.proposal? clientOrderId = some p) :
    d.gatesOpen s x (.accept clientOrderId) = true ↔
      entryPermission s.venueMode x.gate = true ∧
        d.agent.guardSuspended.contains p.strategy = false ∧ inSession s x.nowNs = true := by
  simp [gatesOpen, hp, and_assoc]

theorem acceptAdvice_order {clientOrderId : String} {p : Proposal}
    (hp : d.proposal? clientOrderId = some p) :
    (d.human s (.accept clientOrderId) x).order.isSome ↔
      d.gatesOpen s x (.accept clientOrderId) = true ∧
        ((d.dequeue clientOrderId).evaluateHuman s x p.instrument p.intentFields id
          fun desk => some (desk.acceptCaution x p)).order.isSome := by
  have hfound : d.queue.find? (fun p => p.clientOrderId = clientOrderId) = some p := hp
  rw [gatesOpen_accept hp]
  simp only [human, acceptAdvice, hfound]
  split_ifs with hpermitted hsuspended hsession
  · simp_all
  · simp_all
  · simp_all
  · simp_all

theorem manualOrder_order {t : ManualTicket} :
    (d.human s (.manual t) x).order.isSome ↔
      d.gatesOpen s x (.manual t) = true ∧
        (d.evaluateHuman s x t.instrument (t.intentFields x.nowNs) RiskContext.forTicket
          fun desk => desk.ticketCaution s x t).order.isSome := by
  simp only [human, manualOrder, gatesOpen]
  split_ifs with hlive hpermitted hsession
  · simp [hlive]
  · simp_all
  · simp_all
  · have hallowed : s.venueMode = .live → s.manualTradingLive = true := by simpa using hlive
    by_cases hmode : s.venueMode = .live
    · simp_all
    · simp_all

theorem human_isSome_iff (d : EntryDesk) (s : EntrySettings) (call : HumanCall)
    (x : HumanInputs) : (d.human s call x).order.isSome ↔
      ∃ intent, d.humanIntent x call = some intent ∧ d.Admits s call x intent := by
  cases call with
  | accept clientOrderId =>
      cases hp : d.proposal? clientOrderId with
      | none =>
          have hnone : d.queue.find? (fun p => p.clientOrderId = clientOrderId) = none := hp
          simp [human, acceptAdvice, hnone, humanIntent, hp]
      | some p =>
          have hintent : d.humanIntent x (.accept clientOrderId) =
              (x.outside.instruments.get? p.instrument).bind fun inst =>
                (OrderIntent.ofFields (p.intentFields inst)).toOption := by
            simp [humanIntent, hp]
          have hcaution : d.callCaution s x (.accept clientOrderId) =
              some ((d.humanContext s x p.instrument).1.acceptCaution x p) := by
            simp [callCaution, hp]
          rw [acceptAdvice_order hp, evaluateHuman_isSome_iff
            fun inst => (rfl : (p.intentFields inst).instrument = p.instrument), hintent]
          constructor
          · rintro ⟨hgates, intent, hvalid, hquoted, inst, verdict, size, hinst, hverdict,
              happroved, hsize, hlots⟩
            exact ⟨intent, hvalid, hgates, hquoted, inst, verdict, size, hinst, hverdict,
              happroved, hcaution.trans hsize, hlots⟩
          · rintro ⟨intent, hvalid, hgates, hquoted, inst, verdict, size, hinst, hverdict,
              happroved, hsize, hlots⟩
            exact ⟨hgates, intent, hvalid, hquoted, inst, verdict, size, hinst, hverdict,
              happroved, hcaution.symm.trans hsize, hlots⟩
  | manual t =>
      rw [manualOrder_order, evaluateHuman_isSome_iff
        fun inst => (rfl : (t.intentFields x.nowNs inst).instrument = t.instrument)]
      constructor
      · rintro ⟨hgates, intent, hvalid, hquoted, hjudged⟩
        exact ⟨intent, hvalid, hgates, hquoted, hjudged⟩
      · rintro ⟨intent, hvalid, hgates, hquoted, hjudged⟩
        exact ⟨hgates, intent, hvalid, hquoted, hjudged⟩

/-! ## Beside the cycle -/

theorem Admits.cleared {call : HumanCall} {intent : OrderIntent} (h : d.Admits s call x intent) :
    ∃ m stop, Cleared s.risk intent.toIntentFields
      (d.humanContext s x intent.instrument).2 m stop := by
  obtain ⟨inst, verdict, caution, -, hverdict, happroved, -⟩ := h.judged
  obtain ⟨m, stop, happroval⟩ := approval_of_approved hverdict happroved
  refine ⟨m, stop, ?_⟩
  cases call with
  | accept clientOrderId => exact happroval.cleared
  | manual t => exact happroval.cleared.of_forTicket

/-- A cycle at the instant of a call, reading `news` and `correlations`, would
not have refused the intent of a call that sends an order, except for its
lifecycle. -/
def NoWeaker (d : EntryDesk) (s : EntrySettings) (call : HumanCall) (x : HumanInputs)
    (news : Dict String NewsAssessment) (correlations : Dict (String × String) Dec) : Prop :=
  ∀ intent, d.humanIntent x call = some intent →
    (∃ verdict, evaluateEntry s.risk intent.toIntentFields
        (d.ownContext s x news correlations) = .ok verdict ∧
      ∃ v ∈ verdict.vetoes, v.rule ≠ .lifecycle) →
    (d.human s call x).order = none

theorem vetoed_iff
    (h : Cleared s.risk intent (d.humanContext s x intent.instrument).2 m stop) :
    (∃ verdict, evaluateEntry s.risk intent (d.ownContext s x news correlations) = .ok verdict ∧
      ∃ v ∈ verdict.vetoes, v.rule ≠ .lifecycle) ↔
      ¬CyclePasses s intent (d.ownContext s x news correlations) := by
  obtain ⟨verdict, hverdict⟩ := evaluate_own news correlations h
  constructor
  · rintro ⟨verdict', hverdict', v, hv, hrule⟩ hcycle
    obtain ⟨passed, hpassed, honly⟩ := (passed_own h hcycle).only
    obtain rfl : verdict' = passed := Except.ok.inj (hverdict'.symm.trans hpassed)
    exact hrule (honly v hv)
  · intro hcycle
    refine ⟨verdict, hverdict, ?_⟩
    by_contra hnone
    have honly : verdict.OnlyLifecycle := by simpa [RiskDecision.OnlyLifecycle] using hnone
    obtain ⟨m', stop', hpassed⟩ := passedButLifecycle_of_only hverdict honly
    exact hcycle (cyclePasses_of_passed h hpassed)

/-- A human's call is no weaker than the cycle exactly when it is not admitted,
or the cycle passes what its own context alone decides. -/
theorem noWeaker_iff (d : EntryDesk) (s : EntrySettings) (call : HumanCall) (x : HumanInputs)
    (news : Dict String NewsAssessment) (correlations : Dict (String × String) Dec) :
    d.NoWeaker s call x news correlations ↔
      ∀ intent, d.humanIntent x call = some intent → d.Admits s call x intent →
        CyclePasses s intent.toIntentFields (d.ownContext s x news correlations) := by
  constructor
  · intro hno intent hintent hadmits
    obtain ⟨m, stop, hcleared⟩ := hadmits.cleared
    have hsent : (d.human s call x).order.isSome :=
      (d.human_isSome_iff s call x).2 ⟨intent, hintent, hadmits⟩
    by_contra hcycle
    rw [hno intent hintent ((vetoed_iff hcleared).2 hcycle)] at hsent
    cases hsent
  · intro hpasses intent hintent hvetoed
    by_contra hsent
    obtain ⟨intent', hintent', hadmits⟩ :=
      (d.human_isSome_iff s call x).1 (Option.isSome_iff_ne_none.2 hsent)
    obtain rfl : intent = intent' := Option.some.inj (hintent.symm.trans hintent')
    obtain ⟨m, stop, hcleared⟩ := hadmits.cleared
    exact (vetoed_iff hcleared).1 hvetoed (hpasses intent hintent hadmits)

def mondayBlackout : Dict String NewsAssessment :=
  .ofEntries [("EUR_USD", { blocked := true, reasons := ["rate decision"] })]

/-- A ticket goes out on the assessment of an earlier cycle. -/
theorem not_noWeaker :
    ¬∀ (d : EntryDesk) (s : EntrySettings) (call : HumanCall) (x : HumanInputs)
      (news : Dict String NewsAssessment) (correlations : Dict (String × String) Dec),
      d.NoWeaker s call x news correlations := by
  intro h
  have hvetoed : ((freshDesk.humanIntent mondayInputs (.manual mondayTicket)).any fun intent =>
      (evaluateEntry paperSettings.risk intent.toIntentFields
        (freshDesk.ownContext paperSettings mondayInputs mondayBlackout .empty)).toOption.any
          fun verdict => verdict.vetoes.any fun v => v.rule ≠ .lifecycle) = true := by
    decide +kernel
  have hsends := freshDesk_sends
  rw [Option.any_eq_true] at hvetoed
  obtain ⟨intent, hintent, hverdict⟩ := hvetoed
  cases hown : evaluateEntry paperSettings.risk intent.toIntentFields
      (freshDesk.ownContext paperSettings mondayInputs mondayBlackout .empty) with
  | error e => simp [hown, Except.toOption] at hverdict
  | ok verdict =>
      have hveto : ∃ v ∈ verdict.vetoes, v.rule ≠ .lifecycle := by
        simpa only [hown, Except.toOption, Option.any_some, List.any_eq_true,
          decide_eq_true_eq] using hverdict
      rw [h freshDesk paperSettings _ mondayInputs mondayBlackout .empty intent hintent
        ⟨verdict, hown, hveto⟩] at hsends
      cases hsends

end EntryDesk

end Sentinel
