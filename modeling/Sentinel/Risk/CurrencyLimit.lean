import Mathlib.Algebra.BigOperators.Group.Finset.Piecewise
import Mathlib.Algebra.BigOperators.Ring.List
import Sentinel.Risk.Limits

/-!
# Net currency exposure

`currency_exposure` documents its amounts as each position's own risk to the
stop.  The engine hands it a risk map summed by instrument, and every position
is charged the sum of its instrument.  The check therefore bounds the charged
net, which is the own net when the legs of each instrument are balanced: a single
leg, legs without risk, or as much risk on one side as on the other, in as many
legs.
-/

namespace Sentinel

def exposureSign (instruments : Dict String Instrument) (instrument : String) (side : Side)
    (c : String) : Dec :=
  match instruments.get? instrument with
  | none => 0
  | some inst => side.sign * ((if inst.base = c then 1 else 0) - if inst.quote = c then 1 else 0)

/-- The net exposure of a book to `c`, every position charged `risk`. -/
def netExposure (instruments : Dict String Instrument) (risk : Position → Dec)
    (positions : List Position) (c : String) : Dec :=
  (positions.map fun p => exposureSign instruments p.instrument p.side c * risk p).sum

/-- The sum of `f` over the positions on `symbol`. -/
def legSum (positions : List Position) (symbol : String) (f : Position → Dec) : Dec :=
  (positions.map fun p => if p.instrument = symbol then f p else 0).sum

structure LegsBalanced (intent : IntentFields) (ctx : RiskContext) : Prop where
  intent_free : ∀ p ∈ ctx.positions, p.instrument ≠ intent.instrument
  legs : ∀ symbol, (ctx.instruments.get? symbol).isSome →
    legSum ctx.positions symbol (fun p => p.side.sign) *
        legSum ctx.positions symbol Position.initialRisk =
      legSum ctx.positions symbol fun p => p.side.sign * p.initialRisk

/-! ## The charged net -/

section Charged

variable {instruments : Dict String Instrument} {risks conversions mids : Dict String Dec}
  {currency : String}

def mapCharge (risks : Dict String Dec) (p : Position) : Dec :=
  risks.getD p.instrument p.initialRisk

theorem sum_split (leg : Leg) (amount : Dec) (c : String) :
    ((leg.split amount).map fun kv => if c = kv.1 then kv.2 else 0).sum =
      leg.sign * ((if leg.base = c then 1 else 0) - if leg.quote = c then 1 else 0) * amount := by
  simp only [Leg.split, List.map_cons, List.map_nil, List.sum_cons, List.sum_nil, eq_comm (a := c)]
  split <;> split <;> ring

theorem netRisk_eq (positions : List Position) (c : String)
    (hconverted : (currencyExposure positions instruments risks conversions mids currency).2 = []) :
    (Dict.totals (((positions.filterMap
        (exposureLeg instruments risks conversions mids currency)).filterMap
          Sum.getRight?).flatMap fun l => l.split l.risk)).getD c 0 =
      netExposure instruments (mapCharge risks) positions c := by
  rw [Dict.getD_totals]
  simp only [currencyExposure] at hconverted
  induction positions with
  | nil => simp [netExposure]
  | cons p positions ih =>
      simp only [netExposure, List.map_cons, List.sum_cons] at ih ⊢
      unfold exposureLeg at hconverted ih ⊢
      cases hinst : instruments.get? p.instrument with
      | none =>
          simp only [List.filterMap_cons, hinst] at hconverted ⊢
          rw [ih hconverted]
          simp [exposureSign, hinst]
      | some inst =>
          cases hrate : legRate conversions currency inst.quote with
          | none => simp [hinst, hrate] at hconverted
          | some conv =>
              simp only [List.filterMap_cons, hinst, hrate, Sum.getLeft?_inr,
                Sum.getRight?_inr] at hconverted ⊢
              rw [List.flatMap_cons, List.map_append, List.sum_append, ih hconverted, sum_split]
              simp only [exposureSign, hinst, mapCharge]

end Charged

/-! ## What the check bounds -/

namespace Approval

variable {cfg : RiskConfig} {intent : IntentFields} {ctx : RiskContext} {d : RiskDecision}
  {m : Market} {stop : Dec}

theorem chargedNet_le (h : Approval cfg intent ctx d m stop) (c : String) :
    |netExposure ctx.instruments
        (mapCharge (riskMap intent ctx m (finalSizing cfg intent ctx m stop)))
        (prospective intent ctx m (finalSizing cfg intent ctx m stop)) c| ≤
      cfg.maxCurrencyExposurePct / 100 * ctx.account.equity := by
  have hportfolio := h.portfolio_eq_nil
  simp only [portfolioVetoes, List.append_eq_nil_iff, currencyVetoes, vetoIf_eq_nil,
    not_not] at hportfolio
  obtain ⟨hconverted, hbounded⟩ := hportfolio.1.1.1.1.1.2
  unfold exposures at hconverted hbounded
  rw [← netRisk_eq _ c hconverted]
  simp only [currencyExposure, List.flatMap_eq_nil_iff, List.mem_map, mem_sortedNames,
    vetoIf_eq_nil, not_lt, forall_exists_index, and_imp, forall_apply_eq_imp_iff₂,
    RiskContext.pctOfEquity, h.baseEquity_eq, if_pos h.equity_pos] at hbounded
  by_cases hc : c ∈ (Dict.totals
      ((((prospective intent ctx m (finalSizing cfg intent ctx m stop)).filterMap
        (exposureLeg ctx.instruments (riskMap intent ctx m (finalSizing cfg intent ctx m stop))
          ctx.conversions ctx.mids ctx.account.currency)).filterMap
            Sum.getRight?).flatMap fun l => l.split l.risk)).keys
  · exact le_of_pct_le h.equity_pos (hbounded c hc)
  · have hnone := (Dict.get?_eq_none_iff _ c).2 hc
    have hpct : 0 ≤ cfg.maxCurrencyExposurePct / 100 :=
      div_nonneg (cfg.riskPerTradePct_pos.le.trans cfg.risk_le_currency) (by norm_num)
    rw [Dict.getD, hnone, Option.getD_none, abs_zero]
    exact mul_nonneg hpct h.equity_pos.le

end Approval

/-! ## Balanced legs -/

theorem sum_by_key {α : Type} {l : List α} {k : α → String} {K : Finset String}
    (hK : ∀ a ∈ l, k a ∈ K) (w : String → Dec) (g : α → Dec) :
    (l.map fun a => w (k a) * g a).sum =
      ∑ key ∈ K, w key * (l.map fun a => if k a = key then g a else 0).sum := by
  induction l with
  | nil => simp
  | cons a l ih =>
      rw [List.forall_mem_cons] at hK
      simp only [List.map_cons, List.sum_cons, mul_add, Finset.sum_add_distrib, ← ih hK.2]
      congr 1
      simp [hK.1]

section Own

variable {intent : IntentFields} {ctx : RiskContext}

theorem mapCharge_eq (hfree : ∀ q ∈ ctx.positions, q.instrument ≠ intent.instrument)
    (m : Market) (sizing : SizingResult) {p : Position} (hp : p ∈ prospective intent ctx m sizing) :
    mapCharge (riskMap intent ctx m sizing) p =
      legSum ctx.positions p.instrument Position.initialRisk +
        if p.instrument = intent.instrument then sizing.riskAmount else 0 := by
  have hcounted : (prospective intent ctx m sizing).filter (fun q =>
      ¬(q.instrument = intent.instrument ∧ q.entryPrice = entryRef intent m)) =
      ctx.positions := by
    rw [prospective, List.filter_append, List.filter_eq_self.2]
    · simp [proposedPosition]
    · intro q hq
      simp [hfree q hq]
  have hsome : ((riskMap intent ctx m sizing).get? p.instrument).isSome := by
    rw [riskMap, hcounted, Dict.isSome_get?_addTo]
    rcases List.mem_append.1 hp with hopen | hnew
    · refine .inr ?_
      rw [Dict.totals, Dict.isSome_get?_foldl_addTo]
      exact .inl (by simpa using ⟨p, hopen, rfl⟩)
    · rw [List.mem_singleton] at hnew
      exact .inl (by rw [hnew]; rfl)
  obtain ⟨v, hv⟩ := Option.isSome_iff_exists.1 hsome
  have hmap : (riskMap intent ctx m sizing).getD p.instrument p.initialRisk =
      (riskMap intent ctx m sizing).getD p.instrument 0 := by
    simp [Dict.getD, hv]
  rw [mapCharge, hmap, riskMap, hcounted, Dict.getD_addTo, Dict.getD_totals, List.map_map]
  simp [legSum, Function.comp_def, eq_comm (a := p.instrument)]

def currencyWeight (instruments : Dict String Instrument) (c symbol : String) : Dec :=
  (instruments.get? symbol).elim 0 fun inst =>
    (if inst.base = c then 1 else 0) - if inst.quote = c then 1 else 0

theorem exposureSign_eq (instruments : Dict String Instrument) (symbol : String) (side : Side)
    (c : String) :
    exposureSign instruments symbol side c = currencyWeight instruments c symbol * side.sign := by
  unfold exposureSign currencyWeight
  cases instruments.get? symbol with
  | none => simp
  | some inst => exact mul_comm _ _

theorem netExposure_charged (h : LegsBalanced intent ctx) (c : String) :
    netExposure ctx.instruments
        (fun p => legSum ctx.positions p.instrument Position.initialRisk) ctx.positions c =
      netExposure ctx.instruments Position.initialRisk ctx.positions c := by
  have hkeys : ∀ p ∈ ctx.positions,
      p.instrument ∈ (ctx.positions.map Position.instrument).toFinset := by
    intro p hp
    simpa using ⟨p, hp, rfl⟩
  simp only [netExposure, exposureSign_eq, mul_assoc]
  rw [sum_by_key hkeys (currencyWeight ctx.instruments c),
    sum_by_key hkeys (currencyWeight ctx.instruments c)]
  refine Finset.sum_congr rfl ?_
  intro symbol _
  cases hknown : ctx.instruments.get? symbol with
  | none => simp [currencyWeight, hknown]
  | some inst =>
      have hbalanced := h.legs symbol (by rw [hknown]; rfl)
      have hcharged : (ctx.positions.map fun p => if p.instrument = symbol then
          p.side.sign * legSum ctx.positions p.instrument Position.initialRisk else 0) =
          ctx.positions.map fun p => (if p.instrument = symbol then p.side.sign else 0) *
            legSum ctx.positions symbol Position.initialRisk := by
        refine List.map_congr_left ?_
        intro p _
        split_ifs with hsame
        · rw [hsame]
        · rw [zero_mul]
      rw [hcharged, List.sum_map_mul_right]
      exact congrArg _ hbalanced

end Own

/-- Over balanced legs an approved trade keeps the net of the positions' own
risks within the currency limit, in every currency. -/
theorem approved_currencyNet_le (cfg : RiskConfig) (intent : OrderIntent) (ctx : RiskContext)
    (d : RiskDecision) (hlegs : LegsBalanced intent.toIntentFields ctx)
    (hd : evaluateEntry cfg intent.toIntentFields ctx = .ok d) (happroved : d.approved)
    (c : String) :
    |netExposure ctx.instruments Position.initialRisk ctx.positions c +
        exposureSign ctx.instruments intent.instrument intent.side c * d.riskAmount| ≤
      cfg.maxCurrencyExposurePct / 100 * ctx.account.equity := by
  obtain ⟨m, stop, h⟩ := approval_of_approved hd happroved
  have hcharged := h.chargedNet_le c
  set sizing := finalSizing cfg intent.toIntentFields ctx m stop with hsizing
  have hopen : netExposure ctx.instruments
      (mapCharge (riskMap intent.toIntentFields ctx m sizing)) ctx.positions c =
      netExposure ctx.instruments Position.initialRisk ctx.positions c := by
    rw [← netExposure_charged hlegs c]
    unfold netExposure
    refine congrArg List.sum (List.map_congr_left ?_)
    intro p hp
    rw [mapCharge_eq hlegs.intent_free m sizing (List.mem_append_left _ hp),
      if_neg (hlegs.intent_free p hp), add_zero]
  have hnone : legSum ctx.positions intent.instrument Position.initialRisk = 0 := by
    refine List.sum_eq_zero ?_
    intro x hx
    obtain ⟨q, hq, rfl⟩ := List.mem_map.1 hx
    exact if_neg (hlegs.intent_free q hq)
  have hnew : mapCharge (riskMap intent.toIntentFields ctx m sizing)
      (proposedPosition intent.toIntentFields ctx m sizing) = sizing.riskAmount := by
    have hcharge := mapCharge_eq hlegs.intent_free m sizing
      (List.mem_append_right ctx.positions (List.mem_singleton_self _))
    rw [hcharge]
    change legSum ctx.positions intent.instrument Position.initialRisk +
      (if intent.instrument = intent.instrument then sizing.riskAmount else 0) = _
    rw [hnone, if_pos rfl, zero_add]
  rw [h.risk, ← hopen]
  simp only [netExposure, prospective, List.map_append, List.map_cons, List.map_nil,
    List.sum_append, List.sum_singleton, hnew] at hcharged
  exact hcharged

/-! ## Two opposite legs on one instrument -/

def gbpUsd : Instrument where
  symbol := "GBP_USD"
  base := "GBP"
  quote := "USD"

def gbpUsdQuote : Quote where
  instrument := "GBP_USD"
  bid := 12499 / 10000
  ask := 5 / 4

def hedgedContext : RiskContext :=
  { flatContext with
    positions :=
      [{ instrument := "GBP_USD", side := .buy, lots := 1, entryPrice := 5 / 4
         brokerStopConfirmed := true, initialRisk := 1000 },
       { instrument := "GBP_USD", side := .sell, lots := 1, entryPrice := 13 / 10
         brokerStopConfirmed := true, initialRisk := 200 }]
    instruments := flatContext.instruments.set "GBP_USD" gbpUsd
    quotes := flatContext.quotes.set "GBP_USD" gbpUsdQuote }

/-- The two legs are charged twelve hundred each and cancel, so the dollar is
checked at five hundred; it carries thirteen hundred. -/
theorem currencyNet_broken_on_hedgedContext :
    ¬∀ (cfg : RiskConfig) (intent : OrderIntent) (ctx : RiskContext) (d : RiskDecision)
      (c : String), evaluateEntry cfg intent.toIntentFields ctx = .ok d → d.approved →
      |netExposure ctx.instruments Position.initialRisk ctx.positions c +
          exposureSign ctx.instruments intent.instrument intent.side c * d.riskAmount| ≤
        cfg.maxCurrencyExposurePct / 100 * ctx.account.equity := by
  intro hall
  have happroves : approves default eurUsdTicket.toIntentFields hedgedContext := by
    decide +kernel
  obtain ⟨d, hd, happroved⟩ := approves_iff.1 happroves
  obtain ⟨m, stop, h⟩ := approval_of_approved hd happroved
  have hrisk : d.riskAmount = 500 := by
    have hm := h.market_eq
    have hstop := h.stop_eq
    cases hm
    cases hstop
    rw [h.risk]
    decide +kernel
  have hle := hall default eurUsdTicket hedgedContext d "USD" hd happroved
  rw [hrisk] at hle
  exact absurd hle (by decide +kernel)

def balancedContext : RiskContext :=
  { hedgedContext with
    positions :=
      [{ instrument := "GBP_USD", side := .buy, lots := 1, entryPrice := 5 / 4
         brokerStopConfirmed := true, initialRisk := 600 },
       { instrument := "GBP_USD", side := .sell, lots := 1, entryPrice := 13 / 10
         brokerStopConfirmed := true, initialRisk := 600 }] }

theorem approved_currencyNet_le_balanced :
    ∃ d, evaluateEntry default eurUsdTicket.toIntentFields balancedContext = .ok d ∧
      |netExposure balancedContext.instruments Position.initialRisk balancedContext.positions
            "USD" +
          exposureSign balancedContext.instruments "EUR_USD" .buy "USD" * d.riskAmount| ≤
        (default : RiskConfig).maxCurrencyExposurePct / 100 * balancedContext.account.equity := by
  have happroves : approves default eurUsdTicket.toIntentFields balancedContext := by
    decide +kernel
  obtain ⟨d, hd, happroved⟩ := approves_iff.1 happroves
  refine ⟨d, hd, approved_currencyNet_le default eurUsdTicket balancedContext d
    ⟨by decide +kernel, ?_⟩ hd happroved "USD"⟩
  intro symbol _
  by_cases hsame : "GBP_USD" = symbol
  · rw [← hsame]
    decide +kernel
  · simp [legSum, balancedContext, hedgedContext, hsame]

end Sentinel
