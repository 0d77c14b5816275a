import Sentinel.Core.Config

/-!
# Position sizing

Risk-based sizing in the account currency, and the drawdown ladder that scales
its budget.  A result carries the signs of its amounts, so a position can be
built from it.
-/

namespace Sentinel

/-- `SizingResult.notes`. -/
inductive SizingNote where
  | noConversion
  | noStopDistance
  | noEquity
  | zeroBudget
  | zeroPipValue
  | belowMinLot
  | granularity
  | capped
  deriving DecidableEq

structure SizingResult where
  lots : Dec := 0
  riskAmount : Dec := 0
  riskPct : Dec := 0
  intendedLots : Dec := 0
  roundingErrorPct : Dec := 0
  pipValueAccount : Dec := 0
  stopPips : Dec := 0
  requiredMinEquity : Dec := 0
  notes : List SizingNote := []
  feasible : Bool := true
  lots_nonneg : 0 ≤ lots := by exact le_rfl
  riskAmount_nonneg : 0 ≤ riskAmount := by exact le_rfl

/-- Risk-based sizing.  `riskMultiplier` scales the budget, never the stop. -/
def sizePosition (equity riskPct entryPrice stopPrice : Dec) (inst : Instrument)
    (quoteToAccount : Option Dec) (riskMultiplier : Dec := 1) (maxLots : Dec := 100)
    (maxRoundingErrorPct : Dec := lotGranularityTolerance * 100) : SizingResult :=
  match quoteToAccount with
  | none => { notes := [.noConversion], feasible := false }
  | some rate =>
      let stopDistance := |entryPrice - stopPrice|
      if stopDistance ≤ 0 then { notes := [.noStopDistance], feasible := false }
      else if equity ≤ 0 then { notes := [.noEquity], feasible := false }
      else
        let stopPips := stopDistance / inst.pip
        let effectiveRiskPct := riskPct * riskMultiplier
        if effectiveRiskPct ≤ 0 then
          { stopPips, notes := [.zeroBudget], feasible := false }
        else
          let riskBudget := equity * effectiveRiskPct / 100
          let pipValuePerLot := inst.pipValueQuote 1 * rate
          if hpip : pipValuePerLot ≤ 0 then
            { stopPips, notes := [.zeroPipValue], feasible := false }
          else
            let intended := riskBudget / (stopPips * pipValuePerLot)
            let capped := min intended maxLots
            let lots := inst.roundLotsDown capped
            let minLotsNeeded := inst.lotStep / (maxRoundingErrorPct / 100)
            let requiredMinEquity :=
              minLotsNeeded * pipValuePerLot * stopPips * 100 / effectiveRiskPct
            if lots < inst.minLot then
              { intendedLots := intended, roundingErrorPct := 100
                pipValueAccount := pipValuePerLot, stopPips, requiredMinEquity
                notes := [.belowMinLot], feasible := false }
            else
              let actualRisk := lots * stopPips * pipValuePerLot
              let roundingErrorPct :=
                if 0 < capped then |capped - lots| / capped * 100 else 0
              let coarse := decide (maxRoundingErrorPct < roundingErrorPct)
              { lots, riskAmount := actualRisk, riskPct := actualRisk / equity * 100
                intendedLots := intended, roundingErrorPct
                pipValueAccount := pipValuePerLot, stopPips, requiredMinEquity
                notes :=
                  (if coarse then [.granularity] else []) ++
                    (if capped < intended then [.capped] else [])
                feasible := !coarse
                lots_nonneg := inst.roundLotsDown_nonneg capped
                riskAmount_nonneg :=
                  mul_nonneg (mul_nonneg (inst.roundLotsDown_nonneg capped)
                    (div_nonneg (abs_nonneg _) inst.pip_pos.le)) (not_le.1 hpip).le }

structure FeasibleSize (equity entryPrice stopPrice : Dec) (inst : Instrument)
    (rate maxLots : Dec) (s : SizingResult) : Prop where
  equity_pos : 0 < equity
  entry_ne_stop : entryPrice ≠ stopPrice
  minLot_le : inst.minLot ≤ s.lots
  onLotGrid : inst.OnLotGrid s.lots
  lots_le : s.lots ≤ maxLots
  riskAmount_eq : s.riskAmount =
    s.lots * (|entryPrice - stopPrice| / inst.pip) * (inst.pipValueQuote 1 * rate)
  riskPct_eq : s.riskPct = s.riskAmount / equity * 100

theorem feasibleSize_of_feasible {equity riskPct entryPrice stopPrice : Dec}
    {inst : Instrument} {rate riskMultiplier maxLots maxRoundingErrorPct : Dec}
    (h : (sizePosition equity riskPct entryPrice stopPrice inst (some rate)
      riskMultiplier maxLots maxRoundingErrorPct).feasible) :
    FeasibleSize equity entryPrice stopPrice inst rate maxLots
      (sizePosition equity riskPct entryPrice stopPrice inst (some rate)
        riskMultiplier maxLots maxRoundingErrorPct) := by
  unfold sizePosition at h ⊢
  simp only at h ⊢
  by_cases hstop : |entryPrice - stopPrice| ≤ 0
  · simp [hstop] at h
  by_cases hequity : equity ≤ 0
  · simp [hstop, hequity] at h
  by_cases hrisk : riskPct * riskMultiplier ≤ 0
  · simp [hstop, hequity, hrisk] at h
  by_cases hpip : inst.pipValueQuote 1 * rate ≤ 0
  · simp [hstop, hequity, hrisk, hpip] at h
  simp only [if_neg hstop, if_neg hequity, if_neg hrisk, dif_neg hpip] at h ⊢
  split at h
  case isTrue hmin => simp at h
  case isFalse hmin =>
  rw [if_neg hmin]
  have hcapped := inst.minLot_pos.le.trans
    (inst.minLot_le_of_le_roundLotsDown (not_lt.1 hmin))
  exact
    { equity_pos := not_le.1 hequity
      entry_ne_stop := by
        rintro rfl
        simp at hstop
      minLot_le := not_lt.1 hmin
      onLotGrid := inst.roundLotsDown_onLotGrid _
      lots_le := (inst.roundLotsDown_le hcapped).trans (min_le_right _ _)
      riskAmount_eq := rfl
      riskPct_eq := rfl }

/-! ## The drawdown ladder -/

variable (drawdownPct : Dec) (ladder : List LadderRow)

def targetRung : ℕ :=
  (ladder.zipIdx 1).foldl
    (fun target row => if row.1.drawdownPct ≤ drawdownPct then row.2 else target) 0

/-- `ladder_rung`: tightening is immediate, loosening waits for the band. -/
def ladderRung (currentRung : ℕ) (hysteresisPct : Dec) : ℕ :=
  let target := targetRung drawdownPct ladder
  if currentRung ≤ target then target
  else
    match ladder[currentRung - 1]? with
    | none => target
    | some row =>
        if drawdownPct ≤ row.drawdownPct - hysteresisPct then target else currentRung

def ladderMultiplier (enabled : Bool) (currentRung : ℕ) (hysteresisPct : Dec) : Dec :=
  if !enabled || ladder.isEmpty then 1
  else
    match ladderRung drawdownPct ladder currentRung hysteresisPct with
    | 0 => 1
    | rung + 1 =>
        ((ladder[min (rung + 1) ladder.length - 1]?).map LadderRow.riskMultiplier).getD 1

end Sentinel
