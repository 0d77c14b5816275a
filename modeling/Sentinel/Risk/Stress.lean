import Sentinel.Core.Types
import Sentinel.Support.Dict

/-!
# Gap stress

What the book loses if a currency jumps through every stop, and the largest
new position whose loss still fits a budget.
-/

namespace Sentinel

/-- `scenario_gap`: the larger of the two legs' gaps, within `[0, 1]`. -/
def scenarioGap (inst : Instrument) (scenarios : Dict String Dec) : Dec :=
  let fallback := scenarios.getD "*" (3 / 100)
  let worst := max (scenarios.getD inst.base fallback) (scenarios.getD inst.quote fallback)
  max 0 (min 1 worst)

/-- `position_notional`, `none` when the position cannot be priced. -/
def positionNotional (inst : Instrument) (lots mid : Dec) (conversion : Option Dec) :
    Option Dec :=
  match conversion with
  | none => none
  | some rate => if rate ≤ 0 ∨ mid ≤ 0 then none else some (inst.units lots * mid * rate)

def positionStress (instruments : Dict String Instrument) (mids conversions : Dict String Dec)
    (accountCurrency : String) (scenarios : Dict String Dec) (p : Position) :
    String ⊕ Dec :=
  match instruments.get? p.instrument with
  | none => .inl p.instrument
  | some inst =>
      let conv := if inst.quote = accountCurrency then some 1 else conversions.get? inst.quote
      match positionNotional inst p.lots (mids.getD p.instrument p.entryPrice) conv with
      | none => .inl p.instrument
      | some notional => .inr (notional * scenarioGap inst scenarios)

/-- `book_stress_loss`, with the instruments that could not be priced. -/
def bookStressLoss (positions : List Position) (instruments : Dict String Instrument)
    (mids conversions : Dict String Dec) (accountCurrency : String)
    (scenarios : Dict String Dec) : Dec × List String :=
  let rounds := positions.map
    (positionStress instruments mids conversions accountCurrency scenarios)
  ((rounds.filterMap Sum.getRight?).sum, rounds.filterMap Sum.getLeft?)

/-- `max_lots_within`: the largest size whose stress loss fits `budget`. -/
def maxLotsWithin (budget : Dec) (inst : Instrument) (mid conversion : Dec)
    (scenarios : Dict String Dec) : Dec :=
  match positionNotional inst 1 mid (some conversion) with
  | none => 0
  | some oneLot =>
      if oneLot ≤ 0 then 0
      else
        let perLot := oneLot * scenarioGap inst scenarios
        if perLot ≤ 0 then 1000000000
        else max 0 (budget / perLot)

theorem scenarioGap_nonneg (inst : Instrument) (scenarios : Dict String Dec) :
    0 ≤ scenarioGap inst scenarios :=
  le_max_left _ _

theorem stress_le_of_le_maxLotsWithin {budget lots mid conversion : Dec}
    {inst : Instrument} {scenarios : Dict String Dec} (hlots : 0 < lots)
    (hgap : 0 < scenarioGap inst scenarios)
    (hle : lots ≤ maxLotsWithin budget inst mid conversion scenarios) :
    inst.units lots * mid * conversion * scenarioGap inst scenarios ≤ budget := by
  unfold maxLotsWithin positionNotional at hle
  simp only at hle
  by_cases hunpriced : conversion ≤ 0 ∨ mid ≤ 0
  · simp only [if_pos hunpriced] at hle
    exact absurd hlots (not_lt.2 hle)
  · simp only [if_neg hunpriced] at hle
    push Not at hunpriced
    have honeLot : 0 < inst.units 1 * mid * conversion :=
      mul_pos (mul_pos (inst.units_pos one_pos) hunpriced.2) hunpriced.1
    have hperLot : 0 < inst.units 1 * mid * conversion * scenarioGap inst scenarios :=
      mul_pos honeLot hgap
    rw [if_neg (not_le.2 honeLot), if_neg (not_le.2 hperLot)] at hle
    have hbudget : lots ≤
        budget / (inst.units 1 * mid * conversion * scenarioGap inst scenarios) := by
      rcases le_max_iff.1 hle with hzero | hfits
      · exact absurd hlots (not_lt.2 hzero)
      · exact hfits
    have hscaled := (le_div_iff₀ hperLot).1 hbudget
    calc inst.units lots * mid * conversion * scenarioGap inst scenarios
        = lots * (inst.units 1 * mid * conversion * scenarioGap inst scenarios) := by
          simp only [Instrument.units]
          ring
      _ ≤ budget := hscaled

theorem stress_eq_zero {inst : Instrument} {scenarios : Dict String Dec}
    (hgap : ¬0 < scenarioGap inst scenarios) (lots mid conversion : Dec) :
    inst.units lots * mid * conversion * scenarioGap inst scenarios = 0 := by
  have hzero : scenarioGap inst scenarios = 0 :=
    le_antisymm (not_lt.1 hgap) (scenarioGap_nonneg inst scenarios)
  rw [hzero, mul_zero]

end Sentinel
