import Mathlib.Data.Rat.Floor
import Mathlib.Tactic.FieldSimp
import Mathlib.Tactic.Linarith
import Mathlib.Tactic.Positivity
import Mathlib.Tactic.Ring

/-!
# Money, instruments and cost arithmetic

`Decimal` amounts and prices are exact rationals here: the twenty-eight digit
rounding of the Python type is not modelled, and neither is the binary
rounding of its floats.  A contract specification carries the checks of
`Instrument.__post_init__` as fields, so every later module may divide by a
pip or a lot step without asking.
-/

namespace Sentinel

/-- `Decimal`, without its rounding. -/
abbrev Dec := ℚ

/-- `value or fallback` on a `Decimal`. -/
def orElse (value fallback : Dec) : Dec := if value = 0 then fallback else value

/-- The `ValueError` the cost helpers raise. -/
structure ValueError where
  message : String
  deriving DecidableEq

/-- `ROUND_HALF_EVEN` to an integer. -/
def roundHalfEven (q : Dec) : ℤ :=
  let down := ⌊q⌋
  let rest := q - down
  if rest < 1 / 2 then down
  else if 1 / 2 < rest then down + 1
  else if down % 2 = 0 then down
  else down + 1

/-- Snap `value` to the grid `exp`, a positive step. -/
def quantize (value exp : Dec) : Dec :=
  roundHalfEven (value / exp) * exp

@[simp] theorem roundHalfEven_intCast (n : ℤ) : roundHalfEven (n : Dec) = n := by
  simp [roundHalfEven]

theorem abs_sub_roundHalfEven_le (q : Dec) : |q - roundHalfEven q| ≤ 1 / 2 := by
  have hfloor := Int.floor_le q
  have hlt := Int.lt_floor_add_one q
  rw [abs_le, roundHalfEven]
  split_ifs <;> push_cast <;> constructor <;> linarith

theorem roundHalfEven_eq_of_abs_lt {q : Dec} {k : ℤ} (h : |q - k| < 1 / 2) :
    roundHalfEven q = k := by
  have hnear := abs_le.1 (abs_sub_roundHalfEven_le q)
  rw [abs_lt] at h
  have hlow : (k : Dec) < roundHalfEven q + 1 := by linarith
  have hhigh : (roundHalfEven q : Dec) < k + 1 := by linarith
  apply le_antisymm
  · exact Int.lt_add_one_iff.1 (by exact_mod_cast hhigh)
  · exact Int.lt_add_one_iff.1 (by exact_mod_cast hlow)

theorem roundHalfEven_eq_iff (q : Dec) (k : ℤ) :
    roundHalfEven q = k ↔ |q - k| < 1 / 2 ∨ (|q - k| = 1 / 2 ∧ k % 2 = 0) := by
  constructor
  · rintro rfl
    rcases (abs_sub_roundHalfEven_le q).lt_or_eq with hlt | heq
    · exact Or.inl hlt
    · refine Or.inr ⟨heq, ?_⟩
      have hfloor := Int.floor_le q
      have hlt := Int.lt_floor_add_one q
      rw [roundHalfEven] at heq ⊢
      split_ifs at heq ⊢ with hdown hup heven
      · rw [abs_of_nonneg (by linarith)] at heq
        linarith
      · rw [Int.cast_add, Int.cast_one, abs_of_neg (by linarith)] at heq
        linarith
      · exact heven
      · omega
  · rintro (hnear | ⟨htie, heven⟩)
    · exact roundHalfEven_eq_of_abs_lt hnear
    · rcases (abs_eq (by norm_num)).mp htie with habove | hbelow
      · have hfloor : ⌊q⌋ = k := by
          rw [Int.floor_eq_iff]
          constructor
          · linarith
          · linarith
        rw [roundHalfEven, hfloor, habove]
        norm_num
        omega
      · have hfloor : ⌊q⌋ = k - 1 := by
          rw [Int.floor_eq_iff]
          push_cast
          constructor
          · linarith
          · linarith
        have hrest : q - ((k - 1 : ℤ) : Dec) = 1 / 2 := by
          push_cast
          linarith
        rw [roundHalfEven, hfloor, hrest]
        norm_num
        omega

theorem roundHalfEven_mono {a b : Dec} (h : a ≤ b) : roundHalfEven a ≤ roundHalfEven b := by
  rcases h.eq_or_lt with rfl | hlt
  · exact le_rfl
  · have ha := (abs_le.1 (abs_sub_roundHalfEven_le a)).1
    have hb := (abs_le.1 (abs_sub_roundHalfEven_le b)).2
    have hless : (roundHalfEven a : Dec) < roundHalfEven b + 1 := by linarith
    exact Int.lt_add_one_iff.1 (by exact_mod_cast hless)

theorem quantize_mono {a b exp : Dec} (hexp : 0 < exp) (h : a ≤ b) :
    quantize a exp ≤ quantize b exp := by
  have hdiv : a / exp ≤ b / exp := div_le_div_of_nonneg_right h hexp.le
  exact mul_le_mul_of_nonneg_right (by exact_mod_cast roundHalfEven_mono hdiv) hexp.le

theorem quantize_mul_self (n : ℤ) {exp : Dec} (hexp : 0 < exp) :
    quantize (n * exp) exp = n * exp := by
  rw [quantize, mul_div_cancel_right₀ _ hexp.ne', roundHalfEven_intCast]

-- The defaults below are checked by name: a contract built from them is then the same
-- term in every module.
theorem defaultPip_pos : (0 : Dec) < 1 / 10000 := by norm_num

theorem defaultTick_pos : (0 : Dec) < 1 / 100000 := by norm_num

theorem defaultSize_pos : (0 : Dec) < 100000 := by norm_num

theorem defaultLot_pos : (0 : Dec) < 1 / 100 := by norm_num

theorem defaultMaxLot_pos : (0 : Dec) < 100 := by norm_num

theorem defaultLot_le : (1 / 100 : Dec) ≤ 1 / 100 := le_rfl

theorem defaultTick_le : (1 / 100000 : Dec) ≤ 1 / 10000 := by norm_num

/-- Contract specification. -/
structure Instrument where
  symbol : String
  base : String
  quote : String
  pip : Dec := 1 / 10000
  tick : Dec := 1 / 100000
  contractSize : Dec := 100000
  minLot : Dec := 1 / 100
  lotStep : Dec := 1 / 100
  maxLot : Dec := 100
  marginRate : Dec := 33 / 1000
  pip_pos : 0 < pip := by first | with_reducible exact defaultPip_pos | norm_num
  tick_pos : 0 < tick := by first | with_reducible exact defaultTick_pos | norm_num
  contractSize_pos : 0 < contractSize := by first | with_reducible exact defaultSize_pos | norm_num
  minLot_pos : 0 < minLot := by first | with_reducible exact defaultLot_pos | norm_num
  lotStep_pos : 0 < lotStep := by first | with_reducible exact defaultLot_pos | norm_num
  maxLot_pos : 0 < maxLot := by first | with_reducible exact defaultMaxLot_pos | norm_num
  lotStep_le_minLot : lotStep ≤ minLot := by first | with_reducible exact defaultLot_le | norm_num
  tick_le_pip : tick ≤ pip := by first | with_reducible exact defaultTick_le | norm_num

namespace Instrument

variable (inst : Instrument)

def roundPrice (price : Dec) : Dec :=
  quantize price inst.tick

def units (lots : Dec) : Dec :=
  lots * inst.contractSize

/-- Value of one pip of `lots`, in the quote currency. -/
def pipValueQuote (lots : Dec) : Dec :=
  inst.units lots * inst.pip

def roundLotsDown (lots : Dec) : Dec :=
  if lots ≤ 0 then 0
  else quantize (⌊lots / inst.lotStep⌋ * inst.lotStep) inst.lotStep

/-- `lots` is a whole number of lot steps. -/
def OnLotGrid (lots : Dec) : Prop :=
  ∃ n : ℤ, lots = n * inst.lotStep

variable {lots : Dec}

theorem roundLotsDown_of_pos (h : 0 < lots) :
    inst.roundLotsDown lots = ⌊lots / inst.lotStep⌋ * inst.lotStep := by
  rw [roundLotsDown, if_neg (not_le.2 h), quantize_mul_self _ inst.lotStep_pos]

theorem roundLotsDown_of_nonpos (h : lots ≤ 0) : inst.roundLotsDown lots = 0 := by
  rw [roundLotsDown, if_pos h]

theorem roundLotsDown_onLotGrid (lots : Dec) : inst.OnLotGrid (inst.roundLotsDown lots) := by
  rcases le_or_gt lots 0 with h | h
  · exact ⟨0, by simp [roundLotsDown_of_nonpos inst h]⟩
  · exact ⟨_, roundLotsDown_of_pos inst h⟩

theorem roundLotsDown_le (h : 0 ≤ lots) : inst.roundLotsDown lots ≤ lots := by
  rcases h.eq_or_lt with rfl | hpos
  · rw [roundLotsDown_of_nonpos inst le_rfl]
  · rw [roundLotsDown_of_pos inst hpos]
    calc (⌊lots / inst.lotStep⌋ : Dec) * inst.lotStep
        ≤ lots / inst.lotStep * inst.lotStep :=
          mul_le_mul_of_nonneg_right (Int.floor_le _) inst.lotStep_pos.le
      _ = lots := div_mul_cancel₀ _ inst.lotStep_pos.ne'

theorem roundLotsDown_nonneg (lots : Dec) : 0 ≤ inst.roundLotsDown lots := by
  rcases le_or_gt lots 0 with h | h
  · rw [roundLotsDown_of_nonpos inst h]
  · rw [roundLotsDown_of_pos inst h]
    have hsteps : 0 ≤ ⌊lots / inst.lotStep⌋ :=
      Int.floor_nonneg.2 (div_pos h inst.lotStep_pos).le
    exact mul_nonneg (by exact_mod_cast hsteps) inst.lotStep_pos.le

theorem roundLotsDown_mono {lots more : Dec} (h : lots ≤ more) :
    inst.roundLotsDown lots ≤ inst.roundLotsDown more := by
  rcases le_or_gt lots 0 with hle | hpos
  · rw [roundLotsDown_of_nonpos inst hle]
    exact roundLotsDown_nonneg inst more
  · rw [roundLotsDown_of_pos inst hpos, roundLotsDown_of_pos inst (hpos.trans_le h)]
    have hsteps : ⌊lots / inst.lotStep⌋ ≤ ⌊more / inst.lotStep⌋ :=
      Int.floor_le_floor (div_le_div_of_nonneg_right h inst.lotStep_pos.le)
    exact mul_le_mul_of_nonneg_right (by exact_mod_cast hsteps) inst.lotStep_pos.le

theorem sub_roundLotsDown_lt (h : 0 < lots) : lots - inst.roundLotsDown lots < inst.lotStep := by
  have hlt : lots / inst.lotStep < ⌊lots / inst.lotStep⌋ + 1 := Int.lt_floor_add_one _
  rw [div_lt_iff₀ inst.lotStep_pos] at hlt
  rw [roundLotsDown_of_pos inst h]
  linarith

theorem minLot_le_of_le_roundLotsDown
    (h : inst.minLot ≤ inst.roundLotsDown lots) : inst.minLot ≤ lots := by
  rcases le_or_gt lots 0 with hle | hpos
  · rw [roundLotsDown_of_nonpos inst hle] at h
    exact absurd inst.minLot_pos (not_lt.2 h)
  · exact h.trans (roundLotsDown_le inst hpos.le)

@[simp] theorem units_pos (h : 0 < lots) : 0 < inst.units lots :=
  mul_pos h inst.contractSize_pos

theorem pipValueQuote_pos (h : 0 < lots) : 0 < inst.pipValueQuote lots :=
  mul_pos (inst.units_pos h) inst.pip_pos

end Instrument

structure CostModel where
  spreadPips : Dec := 6 / 10
  commissionPerLotRoundTurn : Dec := 7
  swapLongPerLotPerDay : Dec := 0
  swapShortPerLotPerDay : Dec := 0
  newsSpreadMultiplier : Dec := 4
  slippagePipsMedian : Dec := 1 / 10
  deriving DecidableEq

def CostModel.roundTripPips (model : CostModel) (lots pipValAccount : Dec)
    (duringNews : Bool) : Except ValueError Dec :=
  if pipValAccount ≤ 0 then .error ⟨"pip value must be positive"⟩
  else
    let spread := model.spreadPips * (if duringNews then model.newsSpreadMultiplier else 1)
    let commissionPips := model.commissionPerLotRoundTurn * lots / pipValAccount
    .ok (spread + commissionPips + model.slippagePipsMedian * 2)

/-- Minimum accuracy required to break even on a target `T`, a stop `S` and a
round-trip cost `c`, all in pips. -/
def breakEvenWinRate (T S c : Dec) : Except ValueError Dec :=
  if T ≤ 0 ∨ S ≤ 0 then .error ⟨"target and stop must both be positive"⟩
  else if T + S = 0 then .error ⟨"degenerate target/stop"⟩
  else .ok ((S + c) / (T + S))

def annualCostPctOfEquity (roundTripCostBp leverage : Dec) (tradesPerYear : ℤ) :
    Except ValueError Dec :=
  if tradesPerYear < 0 ∨ leverage < 0 then
    .error ⟨"leverage and trade count must be non-negative"⟩
  else if roundTripCostBp < 0 then
    .error ⟨"round_trip_cost_bp must be non-negative"⟩
  else .ok (roundTripCostBp * leverage * tradesPerYear / 100)

theorem breakEvenWinRate_ok_iff (T S c : Dec) :
    (∃ rate, breakEvenWinRate T S c = .ok rate) ↔ 0 < T ∧ 0 < S := by
  unfold breakEvenWinRate
  by_cases h : T ≤ 0 ∨ S ≤ 0
  · simp only [if_pos h]
    constructor
    · rintro ⟨rate, hrate⟩
      cases hrate
    · rintro ⟨hT, hS⟩
      rcases h with h | h
      · exact absurd hT (not_lt.2 h)
      · exact absurd hS (not_lt.2 h)
  · rw [if_neg h]
    push Not at h
    have hsum : T + S ≠ 0 := (add_pos h.1 h.2).ne'
    simp [hsum, h]

theorem annualCostPctOfEquity_ok {bp leverage : Dec} {n : ℤ}
    (hn : 0 ≤ n) (hleverage : 0 ≤ leverage) (hbp : 0 ≤ bp) :
    annualCostPctOfEquity bp leverage n = .ok (bp * leverage * n / 100) := by
  rw [annualCostPctOfEquity, if_neg, if_neg (not_lt.2 hbp)]
  rintro (h | h)
  · omega
  · exact absurd hleverage (not_le.2 h)

def lotGranularityTolerance : Dec := 20 / 100

end Sentinel
