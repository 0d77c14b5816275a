import Sentinel.Risk.Sizing

/-!
# Sizes on the lot grid

What a feasible size keeps of the budget it was computed from, and how sizes
compare between two calls.
-/

namespace Sentinel

/-! ## The size a budget buys -/

def Instrument.lotsFor (inst : Instrument) (maxLots intended : Dec) : Dec :=
  let lots := inst.roundLotsDown (min intended maxLots)
  if lots < inst.minLot then 0 else lots

theorem Instrument.lotsFor_nonneg (inst : Instrument) (maxLots intended : Dec) :
    0 ≤ inst.lotsFor maxLots intended := by
  rw [lotsFor]
  split_ifs
  · exact le_rfl
  · exact inst.roundLotsDown_nonneg _

theorem Instrument.lotsFor_mono (inst : Instrument) (maxLots : Dec) {intended more : Dec}
    (h : intended ≤ more) : inst.lotsFor maxLots intended ≤ inst.lotsFor maxLots more := by
  by_cases hbelow : inst.roundLotsDown (min intended maxLots) < inst.minLot
  · rw [lotsFor, if_pos hbelow]
    exact inst.lotsFor_nonneg maxLots more
  · have hround : inst.roundLotsDown (min intended maxLots) ≤
        inst.roundLotsDown (min more maxLots) :=
      inst.roundLotsDown_mono (min_le_min_right maxLots h)
    rw [lotsFor, lotsFor, if_neg hbelow, if_neg (not_lt.2 ((not_lt.1 hbelow).trans hround))]
    exact hround

section Sizing

variable (equity riskPct entryPrice stopPrice : Dec) (inst : Instrument)
    (rate riskMultiplier : Dec)

def lossPerLot : Dec :=
  |entryPrice - stopPrice| / inst.pip * (inst.pipValueQuote 1 * rate)

def riskBudget : Dec := equity * (riskPct * riskMultiplier) / 100

structure Sizable : Prop where
  stop_pos : 0 < |entryPrice - stopPrice|
  equity_pos : 0 < equity
  risk_pos : 0 < riskPct * riskMultiplier
  pipValue_pos : 0 < inst.pipValueQuote 1 * rate

variable {equity riskPct entryPrice stopPrice inst rate riskMultiplier}

theorem Sizable.lossPerLot_pos
    (h : Sizable equity riskPct entryPrice stopPrice inst rate riskMultiplier) :
    0 < lossPerLot entryPrice stopPrice inst rate :=
  mul_pos (div_pos h.stop_pos inst.pip_pos) h.pipValue_pos

theorem Sizable.riskBudget_pos
    (h : Sizable equity riskPct entryPrice stopPrice inst rate riskMultiplier) :
    0 < riskBudget equity riskPct riskMultiplier :=
  div_pos (mul_pos h.equity_pos h.risk_pos) (by norm_num)

/-- A size that passed the checks: what each field of the result is, from the
size `intended` by the budget. -/
structure Sized (riskPct entryPrice stopPrice : Dec) (inst : Instrument)
    (rate riskMultiplier maxLots maxRoundingErrorPct intended : Dec) (s : SizingResult) :
    Prop where
  lots_eq : s.lots = inst.lotsFor maxLots intended
  intendedLots_eq : s.intendedLots = intended
  requiredMinEquity_eq : s.requiredMinEquity =
    inst.lotStep / (maxRoundingErrorPct / 100) * (inst.pipValueQuote 1 * rate) *
      (|entryPrice - stopPrice| / inst.pip) * 100 / (riskPct * riskMultiplier)
  feasible_iff : s.feasible ↔
    inst.minLot ≤ inst.roundLotsDown (min intended maxLots) ∧
      s.roundingErrorPct ≤ maxRoundingErrorPct
  bought : inst.minLot ≤ inst.roundLotsDown (min intended maxLots) →
    s.roundingErrorPct = |min intended maxLots - s.lots| / min intended maxLots * 100 ∧
      s.riskAmount = s.lots * lossPerLot entryPrice stopPrice inst rate

theorem sizePosition_of_sizable (maxLots maxRoundingErrorPct : Dec)
    (h : Sizable equity riskPct entryPrice stopPrice inst rate riskMultiplier) :
    Sized riskPct entryPrice stopPrice inst rate riskMultiplier maxLots maxRoundingErrorPct
      (riskBudget equity riskPct riskMultiplier / lossPerLot entryPrice stopPrice inst rate)
      (sizePosition equity riskPct entryPrice stopPrice inst (some rate) riskMultiplier maxLots
        maxRoundingErrorPct) := by
  rw [sizePosition]
  simp only [if_neg (not_le.2 h.stop_pos), if_neg (not_le.2 h.equity_pos),
    if_neg (not_le.2 h.risk_pos), dif_neg (not_le.2 h.pipValue_pos)]
  by_cases hbelow : inst.roundLotsDown (min (riskBudget equity riskPct riskMultiplier /
      lossPerLot entryPrice stopPrice inst rate) maxLots) < inst.minLot
  · have hbelow' := hbelow
    rw [riskBudget, lossPerLot] at hbelow'
    rw [if_pos hbelow']
    refine ⟨?_, rfl, rfl, ?_, fun hmin => absurd hbelow (not_lt.2 hmin)⟩
    · rw [Instrument.lotsFor, if_pos hbelow]
    · exact iff_of_false Bool.false_ne_true fun hmin => absurd hbelow (not_lt.2 hmin.1)
  · have hbought := hbelow
    rw [riskBudget, lossPerLot] at hbought
    rw [if_neg hbought]
    have hcapped : 0 < min (riskBudget equity riskPct riskMultiplier /
        lossPerLot entryPrice stopPrice inst rate) maxLots :=
      inst.minLot_pos.trans_le (inst.minLot_le_of_le_roundLotsDown (not_lt.1 hbelow))
    refine ⟨?_, rfl, rfl, ?_, fun _ => ⟨if_pos hcapped, ?_⟩⟩
    · rw [Instrument.lotsFor, if_neg hbelow]
      rfl
    · simp only [Bool.not_eq_true', decide_eq_false_iff_not, not_lt]
      exact (and_iff_right (not_lt.1 hbelow)).symm
    · exact mul_assoc _ _ _

theorem sizePosition_refused (maxLots maxRoundingErrorPct : Dec)
    (h : ¬ Sizable equity riskPct entryPrice stopPrice inst rate riskMultiplier) :
    (sizePosition equity riskPct entryPrice stopPrice inst (some rate) riskMultiplier maxLots
        maxRoundingErrorPct).lots = 0 ∧
      (sizePosition equity riskPct entryPrice stopPrice inst (some rate) riskMultiplier maxLots
        maxRoundingErrorPct).feasible = false := by
  rw [sizePosition]
  by_cases hstop : |entryPrice - stopPrice| ≤ 0
  · simp [hstop]
  by_cases hequity : equity ≤ 0
  · simp [hstop, hequity]
  by_cases hrisk : riskPct * riskMultiplier ≤ 0
  · simp [hstop, hequity, hrisk]
  by_cases hpip : inst.pipValueQuote 1 * rate ≤ 0
  · simp [hstop, hequity, hrisk, hpip]
  exact absurd ⟨not_le.1 hstop, not_le.1 hequity, not_le.1 hrisk, not_le.1 hpip⟩ h

theorem sizable_of_feasible {maxLots maxRoundingErrorPct : Dec}
    (h : (sizePosition equity riskPct entryPrice stopPrice inst (some rate) riskMultiplier maxLots
      maxRoundingErrorPct).feasible) :
    Sizable equity riskPct entryPrice stopPrice inst rate riskMultiplier := by
  by_contra hnot
  rw [(sizePosition_refused maxLots maxRoundingErrorPct hnot).2] at h
  exact absurd h Bool.false_ne_true

/-! ## What a feasible size keeps -/

variable (equity riskPct entryPrice stopPrice inst rate riskMultiplier)

structure SizeWithin (maxLots maxRoundingErrorPct : Dec) (s : SizingResult) : Prop where
  onLotGrid : inst.OnLotGrid s.lots
  minLot_le : inst.minLot ≤ s.lots
  lots_le : s.lots ≤ maxLots
  riskAmount_eq : s.riskAmount = s.lots * lossPerLot entryPrice stopPrice inst rate
  riskAmount_le : s.riskAmount ≤ riskBudget equity riskPct riskMultiplier
  roundingErrorPct_le : s.roundingErrorPct ≤ maxRoundingErrorPct
  shortfall_le :
    min (riskBudget equity riskPct riskMultiplier)
        (maxLots * lossPerLot entryPrice stopPrice inst rate) - s.riskAmount ≤
      s.roundingErrorPct / 100 * min (riskBudget equity riskPct riskMultiplier)
        (maxLots * lossPerLot entryPrice stopPrice inst rate)

variable {equity riskPct entryPrice stopPrice inst rate riskMultiplier}

theorem sizeWithin_of_feasible {maxLots maxRoundingErrorPct : Dec}
    (h : (sizePosition equity riskPct entryPrice stopPrice inst (some rate) riskMultiplier maxLots
      maxRoundingErrorPct).feasible) :
    SizeWithin equity riskPct entryPrice stopPrice inst rate riskMultiplier maxLots
      maxRoundingErrorPct
      (sizePosition equity riskPct entryPrice stopPrice inst (some rate) riskMultiplier maxLots
        maxRoundingErrorPct) := by
  have hsizable := sizable_of_feasible h
  have hsized := sizePosition_of_sizable maxLots maxRoundingErrorPct hsizable
  have hloss := hsizable.lossPerLot_pos
  generalize sizePosition equity riskPct entryPrice stopPrice inst (some rate) riskMultiplier
    maxLots maxRoundingErrorPct = s at h hsized ⊢
  obtain ⟨hmin, herror⟩ := hsized.feasible_iff.1 h
  obtain ⟨herror_eq, hrisk⟩ := hsized.bought hmin
  have hlots : s.lots = inst.roundLotsDown (min (riskBudget equity riskPct riskMultiplier /
      lossPerLot entryPrice stopPrice inst rate) maxLots) := by
    rw [hsized.lots_eq, Instrument.lotsFor, if_neg (not_lt.2 hmin)]
  have hcapped_pos := inst.minLot_pos.trans_le (inst.minLot_le_of_le_roundLotsDown hmin)
  have hround := inst.roundLotsDown_le hcapped_pos.le
  rw [← hlots] at hround
  -- the budget within the cap is the loss of the capped size
  have hcapped : min (riskBudget equity riskPct riskMultiplier)
      (maxLots * lossPerLot entryPrice stopPrice inst rate) =
        min (riskBudget equity riskPct riskMultiplier /
          lossPerLot entryPrice stopPrice inst rate) maxLots *
            lossPerLot entryPrice stopPrice inst rate := by
    rw [min_mul_of_nonneg _ _ hloss.le, div_mul_cancel₀ _ hloss.ne']
  refine ⟨?_, ?_, hround.trans (min_le_right _ _), hrisk, ?_, herror, ?_⟩
  · rw [hlots]
    exact inst.roundLotsDown_onLotGrid _
  · rw [hlots]
    exact hmin
  · calc s.riskAmount = s.lots * lossPerLot entryPrice stopPrice inst rate := hrisk
      _ ≤ riskBudget equity riskPct riskMultiplier /
            lossPerLot entryPrice stopPrice inst rate *
              lossPerLot entryPrice stopPrice inst rate :=
          mul_le_mul_of_nonneg_right (hround.trans (min_le_left _ _)) hloss.le
      _ = riskBudget equity riskPct riskMultiplier := div_mul_cancel₀ _ hloss.ne'
  · rw [hcapped, herror_eq, hrisk, abs_of_nonneg (sub_nonneg.2 hround)]
    generalize min (riskBudget equity riskPct riskMultiplier /
      lossPerLot entryPrice stopPrice inst rate) maxLots = capped at hcapped_pos
    rw [mul_div_cancel_right₀ _ (by norm_num : (100 : Dec) ≠ 0), ← mul_assoc,
      div_mul_cancel₀ _ hcapped_pos.ne', sub_mul]

/-! ## Two sizes compared -/

theorem sizePosition_lots_le {equity' riskPct' entryPrice' stopPrice' riskMultiplier' : Dec}
    (maxLots maxRoundingErrorPct : Dec)
    (hbudget : Sizable equity riskPct entryPrice stopPrice inst rate riskMultiplier →
      Sizable equity' riskPct' entryPrice' stopPrice' inst rate riskMultiplier' ∧
        riskBudget equity riskPct riskMultiplier ≤ riskBudget equity' riskPct' riskMultiplier')
    (hstop : |entryPrice' - stopPrice'| ≤ |entryPrice - stopPrice|) :
    (sizePosition equity riskPct entryPrice stopPrice inst (some rate) riskMultiplier maxLots
        maxRoundingErrorPct).lots ≤
      (sizePosition equity' riskPct' entryPrice' stopPrice' inst (some rate) riskMultiplier'
        maxLots maxRoundingErrorPct).lots := by
  by_cases h : Sizable equity riskPct entryPrice stopPrice inst rate riskMultiplier
  · obtain ⟨h', hmore⟩ := hbudget h
    rw [(sizePosition_of_sizable maxLots maxRoundingErrorPct h).lots_eq,
      (sizePosition_of_sizable maxLots maxRoundingErrorPct h').lots_eq]
    apply inst.lotsFor_mono
    have hless : lossPerLot entryPrice' stopPrice' inst rate ≤
        lossPerLot entryPrice stopPrice inst rate :=
      mul_le_mul_of_nonneg_right
        (div_le_div_of_nonneg_right hstop inst.pip_pos.le) h.pipValue_pos.le
    exact div_le_div₀ h'.riskBudget_pos.le hmore h'.lossPerLot_pos hless
  · rw [(sizePosition_refused maxLots maxRoundingErrorPct h).1]
    exact SizingResult.lots_nonneg _

structure SizesMonotone (inst : Instrument) (quoteToAccount : Option Dec)
    (maxLots maxRoundingErrorPct : Dec) : Prop where
  equity : ∀ equity equity' riskPct entryPrice stopPrice riskMultiplier, equity ≤ equity' →
    (sizePosition equity riskPct entryPrice stopPrice inst quoteToAccount riskMultiplier maxLots
        maxRoundingErrorPct).lots ≤
      (sizePosition equity' riskPct entryPrice stopPrice inst quoteToAccount riskMultiplier
        maxLots maxRoundingErrorPct).lots
  riskPct : ∀ equity riskPct riskPct' entryPrice stopPrice riskMultiplier,
    0 ≤ riskMultiplier → riskPct ≤ riskPct' →
    (sizePosition equity riskPct entryPrice stopPrice inst quoteToAccount riskMultiplier maxLots
        maxRoundingErrorPct).lots ≤
      (sizePosition equity riskPct' entryPrice stopPrice inst quoteToAccount riskMultiplier
        maxLots maxRoundingErrorPct).lots
  riskMultiplier : ∀ equity riskPct entryPrice stopPrice riskMultiplier riskMultiplier',
    0 ≤ riskPct → riskMultiplier ≤ riskMultiplier' →
    (sizePosition equity riskPct entryPrice stopPrice inst quoteToAccount riskMultiplier maxLots
        maxRoundingErrorPct).lots ≤
      (sizePosition equity riskPct entryPrice stopPrice inst quoteToAccount riskMultiplier'
        maxLots maxRoundingErrorPct).lots
  stop : ∀ equity riskPct entryPrice stopPrice entryPrice' stopPrice' riskMultiplier,
    entryPrice ≠ stopPrice → |entryPrice - stopPrice| ≤ |entryPrice' - stopPrice'| →
    (sizePosition equity riskPct entryPrice' stopPrice' inst quoteToAccount riskMultiplier
        maxLots maxRoundingErrorPct).lots ≤
      (sizePosition equity riskPct entryPrice stopPrice inst quoteToAccount riskMultiplier
        maxLots maxRoundingErrorPct).lots

theorem sizesMonotone (inst : Instrument) (quoteToAccount : Option Dec)
    (maxLots maxRoundingErrorPct : Dec) :
    SizesMonotone inst quoteToAccount maxLots maxRoundingErrorPct := by
  rcases quoteToAccount with - | rate
  · refine ⟨?_, ?_, ?_, ?_⟩ <;> intros <;> exact le_rfl
  refine ⟨?_, ?_, ?_, ?_⟩
  · intro equity equity' riskPct entryPrice stopPrice riskMultiplier hle
    apply sizePosition_lots_le _ _ _ le_rfl
    intro h
    refine ⟨⟨h.stop_pos, h.equity_pos.trans_le hle, h.risk_pos, h.pipValue_pos⟩, ?_⟩
    exact div_le_div_of_nonneg_right (mul_le_mul_of_nonneg_right hle h.risk_pos.le)
      (by norm_num)
  · intro equity riskPct riskPct' entryPrice stopPrice riskMultiplier hmult hle
    apply sizePosition_lots_le _ _ _ le_rfl
    intro h
    have hrisk : riskPct * riskMultiplier ≤ riskPct' * riskMultiplier :=
      mul_le_mul_of_nonneg_right hle hmult
    refine ⟨⟨h.stop_pos, h.equity_pos, h.risk_pos.trans_le hrisk, h.pipValue_pos⟩, ?_⟩
    exact div_le_div_of_nonneg_right (mul_le_mul_of_nonneg_left hrisk h.equity_pos.le)
      (by norm_num)
  · intro equity riskPct entryPrice stopPrice riskMultiplier riskMultiplier' hpct hle
    apply sizePosition_lots_le _ _ _ le_rfl
    intro h
    have hrisk : riskPct * riskMultiplier ≤ riskPct * riskMultiplier' :=
      mul_le_mul_of_nonneg_left hle hpct
    refine ⟨⟨h.stop_pos, h.equity_pos, h.risk_pos.trans_le hrisk, h.pipValue_pos⟩, ?_⟩
    exact div_le_div_of_nonneg_right (mul_le_mul_of_nonneg_left hrisk h.equity_pos.le)
      (by norm_num)
  · intro equity riskPct entryPrice stopPrice entryPrice' stopPrice' riskMultiplier hne hle
    apply sizePosition_lots_le _ _ _ hle
    intro h
    exact ⟨⟨abs_pos.2 (sub_ne_zero.2 hne), h.equity_pos, h.risk_pos, h.pipValue_pos⟩, le_rfl⟩

/-- What `size_position` promises of every call, and of any two. -/
theorem sizePosition_sound (inst : Instrument) (quoteToAccount : Option Dec)
    (maxLots maxRoundingErrorPct : Dec) :
    (∀ equity riskPct entryPrice stopPrice riskMultiplier,
      (sizePosition equity riskPct entryPrice stopPrice inst quoteToAccount riskMultiplier
        maxLots maxRoundingErrorPct).feasible →
      ∃ rate, quoteToAccount = some rate ∧
        SizeWithin equity riskPct entryPrice stopPrice inst rate riskMultiplier maxLots
          maxRoundingErrorPct
          (sizePosition equity riskPct entryPrice stopPrice inst quoteToAccount riskMultiplier
            maxLots maxRoundingErrorPct)) ∧
      SizesMonotone inst quoteToAccount maxLots maxRoundingErrorPct := by
  refine ⟨?_, sizesMonotone inst quoteToAccount maxLots maxRoundingErrorPct⟩
  intro equity riskPct entryPrice stopPrice riskMultiplier h
  rcases quoteToAccount with - | rate
  · exact absurd h Bool.false_ne_true
  · exact ⟨rate, rfl, sizeWithin_of_feasible h⟩

def standardLot : Instrument where
  symbol := "EUR_USD"
  base := "EUR"
  quote := "USD"

/-- A stop at the entry is refused with no lots, a longer one is not; and of two
negative risks the larger buys less. -/
theorem sizes_not_monotone :
    ¬ (∀ entryPrice stopPrice entryPrice' stopPrice' : Dec,
        |entryPrice - stopPrice| ≤ |entryPrice' - stopPrice'| →
        (sizePosition 10000 1 entryPrice' stopPrice' standardLot (some 1)).lots ≤
          (sizePosition 10000 1 entryPrice stopPrice standardLot (some 1)).lots) ∧
      ¬ (∀ riskPct riskPct' : Dec, riskPct ≤ riskPct' →
        (sizePosition 10000 riskPct (11 / 10) 1 standardLot (some 1) (-1)).lots ≤
          (sizePosition 10000 riskPct' (11 / 10) 1 standardLot (some 1) (-1)).lots) := by
  constructor
  · intro hmono
    have hlots := hmono 1 1 1 (99 / 100) (by norm_num)
    revert hlots
    decide +kernel
  · intro hmono
    have hlots := hmono (-2) (-1) (by norm_num)
    revert hlots
    decide +kernel

end Sizing

end Sentinel
