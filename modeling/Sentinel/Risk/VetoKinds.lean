import Sentinel.Risk.Verdict

/-!
# The kinds of vetoes

Only the absolute stops halt, and only the lifecycle section names the
lifecycle: every other veto of a verdict is plain.
-/

namespace Sentinel

def Veto.Plain (v : Veto) : Prop := v.rule ≠ .lifecycle ∧ v.severity = .block

theorem plain_vetoIf {c : Prop} [Decidable c] {rule : VetoRule} (h : rule ≠ .lifecycle) :
    ∀ v ∈ vetoIf c rule, v.Plain := by
  intro v hv
  obtain ⟨-, rfl⟩ := mem_vetoIf.1 hv
  exact ⟨h, rfl⟩

theorem plain_append {l l' : List Veto} (h : ∀ v ∈ l, v.Plain) (h' : ∀ v ∈ l', v.Plain) :
    ∀ v ∈ l ++ l', v.Plain :=
  List.forall_mem_append.2 ⟨h, h'⟩

theorem plain_flatMap {α : Type} {f : α → List Veto} (h : ∀ a, ∀ v ∈ f a, v.Plain)
    (l : List α) : ∀ v ∈ l.flatMap f, v.Plain := by
  intro v hv
  obtain ⟨a, -, ha⟩ := List.mem_flatMap.1 hv
  exact h a v ha

section Kinds

variable (cfg : RiskConfig) (intent : IntentFields) (ctx : RiskContext) (m : Market)
  (sizing : SizingResult)

theorem plain_alarmVetoes : ∀ v ∈ alarmVetoes ctx, v.Plain := by
  intro v hv
  obtain ⟨rule, -, rfl⟩ := List.mem_map.1 hv
  exact ⟨by decide, rfl⟩

theorem plain_dataVetoes : ∀ v ∈ dataVetoes cfg intent ctx, v.Plain :=
  plain_append (plain_append (plain_vetoIf (by decide)) (plain_vetoIf (by decide)))
    (plain_vetoIf (by decide))

theorem plain_sizingVetoes : ∀ v ∈ sizingVetoes cfg ctx sizing, v.Plain :=
  plain_append (plain_vetoIf (by decide)) (plain_vetoIf (by decide))

theorem plain_standingVetoes : ∀ v ∈ standingVetoes cfg intent ctx m, v.Plain := by
  refine plain_append (plain_append (plain_append (plain_append (plain_append
    (plain_alarmVetoes ctx) (plain_dataVetoes cfg intent ctx)) ?_) ?_) ?_) ?_
  · exact plain_vetoIf (by decide)
  · exact plain_vetoIf (by decide)
  · exact plain_vetoIf (by decide)
  · exact plain_vetoIf (by decide)

theorem plain_stopVetoes (stop : Dec) : ∀ v ∈ stopVetoes cfg intent ctx m stop, v.Plain :=
  plain_append (plain_append (plain_append (plain_append (plain_vetoIf (by decide))
    (plain_vetoIf (by decide))) (plain_vetoIf (by decide))) (plain_vetoIf (by decide)))
    (plain_vetoIf (by decide))

theorem plain_rewardRiskVetoes (stop : Dec) :
    ∀ v ∈ rewardRiskVetoes cfg intent m stop, v.Plain := by
  rw [rewardRiskVetoes]
  cases intent.takeProfit with
  | none => simp
  | some target => exact plain_vetoIf (by decide)

theorem plain_lossVetoes : ∀ v ∈ lossVetoes cfg ctx, v.Plain :=
  plain_append (plain_append (plain_append (plain_append (plain_vetoIf (by decide))
    (plain_vetoIf (by decide))) (plain_vetoIf (by decide))) (plain_vetoIf (by decide)))
    (plain_vetoIf (by decide))

theorem plain_frequencyVetoes : ∀ v ∈ frequencyVetoes cfg ctx, v.Plain :=
  plain_append (plain_append (plain_append (plain_vetoIf (by decide)) (plain_vetoIf (by decide)))
    (plain_vetoIf (by decide))) (plain_vetoIf (by decide))

theorem plain_annualCostVetoes {annual : List Veto}
    (h : annualCostVetoes cfg intent ctx m = .ok annual) : ∀ v ∈ annual, v.Plain := by
  rw [annualCostVetoes] at h
  cases hprojected : projectedTrades ctx with
  | error e => simp [hprojected, bind, Except.bind] at h
  | ok projected =>
      cases projected with
      | none =>
          simp only [hprojected, bind, Except.bind, pure, Except.pure, Except.ok.injEq] at h
          simp [← h]
      | some n =>
          simp only [hprojected, bind, Except.bind] at h
          by_cases hzero : n = 0
          · simp only [if_pos hzero, pure, Except.pure, Except.ok.injEq] at h
            simp [← h]
          · rw [if_neg hzero] at h
            cases hcost : annualCostPctOfEquity (costBp intent ctx m) (bookLeverage ctx) n with
            | error e => simp [hcost] at h
            | ok rate =>
                simp only [hcost, pure, Except.pure, Except.ok.injEq] at h
                rw [← h]
                exact plain_vetoIf (by decide)

theorem plain_portfolioVetoes : ∀ v ∈ portfolioVetoes cfg intent ctx m sizing, v.Plain := by
  have hgroup : ∀ v ∈ groupVetoes cfg intent ctx m sizing, v.Plain := by
    rw [groupVetoes]
    cases ctx.groupOthersOpenRisk with
    | none => simp
    | some othersOpenRisk =>
        exact plain_append (plain_append (plain_vetoIf (by decide)) (plain_vetoIf (by decide)))
          (plain_flatMap (fun _ => plain_vetoIf (by decide)) _)
  refine plain_append (plain_append (plain_append (plain_append (plain_append (plain_append
    (plain_append ?_ ?_) ?_) ?_) ?_) ?_) hgroup) (plain_vetoIf (by decide))
  · exact plain_append (plain_vetoIf (by decide)) (plain_vetoIf (by decide))
  · exact plain_append (plain_vetoIf (by decide)) (plain_vetoIf (by decide))
  · exact plain_append (plain_vetoIf (by decide))
      (plain_flatMap (fun _ => plain_vetoIf (by decide)) _)
  · exact plain_flatMap (fun _ => plain_vetoIf (by decide)) _
  · exact plain_vetoIf (by decide)
  · exact plain_vetoIf (by decide)

theorem plain_pricedVetoes {earlier annual : List Veto} {stop : Dec} {be : Option Dec}
    (hannual : annualCostVetoes cfg intent ctx m = .ok annual) :
    ∀ v ∈ pricedVetoes cfg intent ctx m stop earlier be annual, v ∈ earlier ∨ v.Plain := by
  have htail : ∀ v ∈ stopVetoes cfg intent ctx m stop ++ (rewardRiskVetoes cfg intent m stop ++
      (costVetoes be ++ (lossVetoes cfg ctx ++ (frequencyVetoes cfg ctx ++ (annual ++
        (sizingVetoes cfg ctx (budgetSizing cfg intent ctx m stop) ++
          (stressVetoes ctx m (budgetSizing cfg intent ctx m stop) ++
            portfolioVetoes cfg intent ctx m (finalSizing cfg intent ctx m stop)))))))),
        v.Plain := by
    refine plain_append (plain_stopVetoes cfg intent ctx m stop) (plain_append
      (plain_rewardRiskVetoes cfg intent m stop) (plain_append ?_ (plain_append
        (plain_lossVetoes cfg ctx) (plain_append (plain_frequencyVetoes cfg ctx) (plain_append
          (plain_annualCostVetoes cfg intent ctx m hannual) (plain_append
            (plain_sizingVetoes cfg ctx _) (plain_append ?_
              (plain_portfolioVetoes cfg intent ctx m _))))))))
    · exact plain_vetoIf (by decide)
    · exact plain_vetoIf (by decide)
  intro v hv
  simp only [pricedVetoes, List.append_assoc] at hv
  rcases List.mem_append.1 hv with hearlier | hrest
  · exact .inl hearlier
  · exact .inr (htail v hrest)

end Kinds

variable {cfg : RiskConfig} {intent : IntentFields} {ctx : RiskContext} {d : RiskDecision}

theorem market_error_ne {rule : VetoRule}
    (h : market intent ctx = .error rule) : rule ≠ .lifecycle := by
  rw [market] at h
  split at h
  · cases h
    decide
  · split at h
    · cases h
      decide
    · split at h
      · cases h
        decide
      · split_ifs at h
        cases h
        decide

theorem evaluateEntry_vetoes (h : evaluateEntry cfg intent ctx = .ok d) :
    ∀ v ∈ d.vetoes, v ∈ absoluteStops cfg ctx ∨ v ∈ lifecycleVetoes intent ctx ∨ v.Plain := by
  intro v hv
  rw [evaluateEntry] at h
  cases hm : market intent ctx with
  | error rule =>
      simp only [hm, Except.ok.injEq] at h
      subst h
      simp only [refused, List.mem_append, List.mem_singleton] at hv
      rcases hv with (habs | hlife) | rfl
      · exact .inl habs
      · exact .inr (.inl hlife)
      · exact .inr (.inr ⟨market_error_ne hm, rfl⟩)
  | ok m =>
      cases hstop : intent.stopLoss with
      | none =>
          simp only [hm, hstop, Except.ok.injEq] at h
          subst h
          simp only [refused, List.mem_append, List.mem_singleton] at hv
          rcases hv with ((habs | hlife) | hstanding) | rfl
          · exact .inl habs
          · exact .inr (.inl hlife)
          · exact .inr (.inr (plain_standingVetoes cfg intent ctx m v hstanding))
          · exact .inr (.inr ⟨by decide, rfl⟩)
      | some stop =>
          simp only [hm, hstop, evaluatePriced] at h
          cases hbe : breakEven intent ctx m stop with
          | error e => simp [hbe, bind, Except.bind] at h
          | ok be =>
              cases hannual : annualCostVetoes cfg intent ctx m with
              | error e => simp [hbe, hannual, bind, Except.bind] at h
              | ok annual =>
                  simp only [hbe, hannual, bind, Except.bind, pure, Except.pure,
                    Except.ok.injEq] at h
                  subst h
                  simp only [pricedVerdict] at hv
                  rcases plain_pricedVetoes cfg intent ctx m hannual v hv with hearlier | hplain
                  · simp only [List.mem_append] at hearlier
                    rcases hearlier with (habs | hlife) | hstanding
                    · exact .inl habs
                    · exact .inr (.inl hlife)
                    · exact .inr (.inr (plain_standingVetoes cfg intent ctx m v hstanding))
                  · exact .inr (.inr hplain)

theorem absoluteStops_ne_nil_of_halting (h : evaluateEntry cfg intent ctx = .ok d)
    (hhalting : d.halting = true) : absoluteStops cfg ctx ≠ [] := by
  simp only [RiskDecision.halting, List.any_eq_true, decide_eq_true_eq] at hhalting
  obtain ⟨v, hv, hsev⟩ := hhalting
  rcases evaluateEntry_vetoes h v hv with habs | hlife | hplain
  · exact List.ne_nil_of_mem habs
  · obtain ⟨-, rfl⟩ := mem_vetoIf.1 hlife
    cases hsev
  · rw [hplain.2] at hsev
    cases hsev

structure PassedButLifecycle (cfg : RiskConfig) (intent : IntentFields) (ctx : RiskContext)
    (m : Market) (stop : Dec) : Prop where
  market_eq : market intent ctx = .ok m
  stop_eq : intent.stopLoss = some stop
  alarms : alarmVetoes ctx = []
  news : newsVetoes intent ctx = []
  passedLocal : ∃ be, breakEven intent ctx m stop = .ok be ∧
    PassedLocal cfg intent ctx m stop be
  passedBook : ∃ annual, annualCostVetoes cfg intent ctx m = .ok annual ∧
    PassedBook cfg intent ctx m stop annual

def RiskDecision.OnlyLifecycle (d : RiskDecision) : Prop :=
  ∀ v ∈ d.vetoes, v.rule = .lifecycle

theorem eq_nil_of_rules {l : List Veto} (hplain : ∀ v ∈ l, v.Plain)
    (hrules : ∀ v ∈ l, v.rule = .lifecycle) : l = [] :=
  List.eq_nil_iff_forall_not_mem.2 fun v hv => (hplain v hv).1 (hrules v hv)

theorem absoluteStops_eq_nil_of_rules
    (hrules : ∀ v ∈ absoluteStops cfg ctx, v.rule = .lifecycle) : absoluteStops cfg ctx = [] := by
  refine List.eq_nil_iff_forall_not_mem.2 fun v hv => ?_
  have hrule := hrules v hv
  simp only [absoluteStops, List.mem_append, mem_vetoIf] at hv
  rcases hv with (((⟨-, rfl⟩ | ⟨-, rfl⟩) | ⟨-, rfl⟩) | ⟨-, rfl⟩) | ⟨-, rfl⟩ <;> cases hrule

theorem passedButLifecycle_of_priced
    {ctx : RiskContext} {m : Market} {stop : Dec} {be : Option Dec} {annual : List Veto}
    (hm : market intent ctx = .ok m) (hstop : intent.stopLoss = some stop)
    (hbe : breakEven intent ctx m stop = .ok be)
    (hannual : annualCostVetoes cfg intent ctx m = .ok annual)
    (honly : ∀ v ∈ pricedVetoes cfg intent ctx m stop
      (absoluteStops cfg ctx ++ lifecycleVetoes intent ctx ++ standingVetoes cfg intent ctx m)
      be annual, v.rule = .lifecycle) : PassedButLifecycle cfg intent ctx m stop := by
  simp only [pricedVetoes, standingVetoes, List.forall_mem_append] at honly
  obtain ⟨⟨⟨⟨⟨⟨⟨⟨⟨⟨⟨habs, -⟩, ⟨⟨⟨⟨halarm, hdata⟩, hspread⟩, hnews⟩, hcool⟩, hdiv⟩, hstops⟩,
    hrr⟩, hcost⟩, hloss⟩, hfreq⟩, hyear⟩, hsize⟩, hstress⟩, hport⟩ := honly
  have hplain : ∀ {c : Prop} [Decidable c] {rule : VetoRule}, rule ≠ .lifecycle →
      (∀ v ∈ vetoIf c rule, v.rule = .lifecycle) → vetoIf c rule = [] :=
    fun hrule => eq_nil_of_rules (plain_vetoIf hrule)
  exact
    { market_eq := hm
      stop_eq := hstop
      alarms := eq_nil_of_rules (plain_alarmVetoes ctx) halarm
      news := hplain (by decide) hnews
      passedLocal := ⟨be, hbe,
        { absolute := absoluteStops_eq_nil_of_rules habs
          data := eq_nil_of_rules (plain_dataVetoes cfg intent ctx) hdata
          spread := hplain (by decide) hspread
          cooldown := hplain (by decide) hcool
          divergence := hplain (by decide) hdiv
          stops := eq_nil_of_rules (plain_stopVetoes cfg intent ctx m stop) hstops
          rewardRisk := eq_nil_of_rules (plain_rewardRiskVetoes cfg intent m stop) hrr
          cost := hplain (by decide) hcost
          loss := eq_nil_of_rules (plain_lossVetoes cfg ctx) hloss
          frequency := eq_nil_of_rules (plain_frequencyVetoes cfg ctx) hfreq
          sizing := eq_nil_of_rules (plain_sizingVetoes cfg ctx _) hsize }⟩
      passedBook := ⟨annual, hannual,
        { annual := eq_nil_of_rules (plain_annualCostVetoes cfg intent ctx m hannual) hyear
          stress := hplain (by decide) hstress
          portfolio := eq_nil_of_rules (plain_portfolioVetoes cfg intent ctx m _) hport }⟩ }

theorem passedButLifecycle_of_only (h : evaluateEntry cfg intent ctx = .ok d)
    (honly : d.OnlyLifecycle) : ∃ m stop, PassedButLifecycle cfg intent ctx m stop := by
  rw [evaluateEntry] at h
  cases hm : market intent ctx with
  | error rule =>
      simp only [hm, Except.ok.injEq] at h
      subst h
      exact absurd (honly ⟨rule, .block⟩ (by simp [refused])) (market_error_ne hm)
  | ok m =>
      cases hstop : intent.stopLoss with
      | none =>
          simp only [hm, hstop, Except.ok.injEq] at h
          subst h
          exact absurd (honly ⟨.noStop, .block⟩ (by simp [refused])) (by decide)
      | some stop =>
          simp only [hm, hstop, evaluatePriced] at h
          cases hbe : breakEven intent ctx m stop with
          | error e => simp [hbe, bind, Except.bind] at h
          | ok be =>
              cases hannual : annualCostVetoes cfg intent ctx m with
              | error e => simp [hbe, hannual, bind, Except.bind] at h
              | ok annual =>
                  simp only [hbe, hannual, bind, Except.bind, pure, Except.pure,
                    Except.ok.injEq] at h
                  subst h
                  exact ⟨m, stop, passedButLifecycle_of_priced hm hstop hbe hannual honly⟩

theorem PassedButLifecycle.only {cfg : RiskConfig} {intent : IntentFields} {ctx : RiskContext}
    {m : Market} {stop : Dec} (h : PassedButLifecycle cfg intent ctx m stop) :
    ∃ d, evaluateEntry cfg intent ctx = .ok d ∧ d.OnlyLifecycle := by
  obtain ⟨be, hbe, hlocal⟩ := h.passedLocal
  obtain ⟨annual, hannual, hbook⟩ := h.passedBook
  simp only [evaluateEntry, h.market_eq, h.stop_eq, evaluatePriced, hbe, hannual, bind,
    Except.bind, pure, Except.pure]
  refine ⟨_, rfl, ?_⟩
  intro v hv
  simp only [pricedVerdict, pricedVetoes, standingVetoes, hlocal.absolute, h.alarms, hlocal.data,
    hlocal.spread, h.news, hlocal.cooldown, hlocal.divergence, hlocal.stops, hlocal.rewardRisk,
    hlocal.cost, hlocal.loss, hlocal.frequency, hbook.annual, hlocal.sizing, hbook.stress,
    hbook.portfolio, List.nil_append, List.append_nil] at hv
  obtain ⟨-, rfl⟩ := mem_vetoIf.1 hv
  rfl

end Sentinel
