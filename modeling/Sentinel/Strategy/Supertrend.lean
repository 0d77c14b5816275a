import Mathlib.Tactic.Linarith
import Mathlib.Tactic.NormNum
import Sentinel.Strategy.Indicators

/-!
# The ratchet of the supertrend

The line is one of two bands, each of which gives ground only when the close before was
beyond it.  With exact arithmetic a close is on its side of the line unless it leaps over
the band that was kept and stays short of the row's own band on the other side of it.
-/

namespace Sentinel

open Float64 Causal Series

/-- A bar whose high and low enclose the other prices. -/
structure Ohlc.WellFormed (b : Ohlc ℚ) : Prop where
  low_le_open : b.low ≤ b.openPrice
  open_le_high : b.openPrice ≤ b.high
  low_le_close : b.low ≤ b.close
  close_le_high : b.close ≤ b.high

def Ohlc.exact (b : Ohlc ℚ) : Ohlc (Option ℚ) :=
  ⟨some b.openPrice, some b.high, some b.low, some b.close⟩

namespace Indicators

/-! ## The range of exact bars -/

theorem exists_trueRange (bars : ℕ → Ohlc ℚ) (i : ℕ) :
    ∃ x, trueRange (fun j => (bars j).exact) i = some x := by
  have hlarger : ∀ (x : ℚ) (y : Option ℚ), ∃ z, larger (some x) y = some z := by
    intro x y
    rcases y with _ | y
    · exact ⟨x, rfl⟩
    · by_cases h : x < y
      · exact ⟨y, by simp [larger, isNan, lt, h]⟩
      · exact ⟨x, by simp [larger, isNan, lt, h]⟩
  have habs : ∀ x : ℚ, ∃ z, Float64.abs (some x) = some z := by
    intro x
    by_cases h : x < 0
    · exact ⟨-x, by simp [Float64.abs, lt, ofRat, h]; rfl⟩
    · exact ⟨x, by simp [Float64.abs, lt, ofRat, h]⟩
  obtain ⟨width, hwidth⟩ := habs ((bars i).high - (bars i).low)
  obtain ⟨upward, hupward⟩ := hlarger width
    (Float64.abs (some (bars i).high - shift 1 (fun j => some (bars j).close) i))
  obtain ⟨range, hrange⟩ := hlarger upward
    (Float64.abs (some (bars i).low - shift 1 (fun j => some (bars j).close) i))
  refine ⟨range, ?_⟩
  rw [← hrange, ← hupward, ← hwidth]
  rfl

theorem exists_ewm {s : ℕ → Option ℚ} (hs : ∀ i, ∃ x, s i = some x) (alpha : ℚ) (i : ℕ) :
    ∃ w, scan Ewm.first (Ewm.step (some alpha)) s i = ⟨some w, some 1, i + 1⟩ := by
  induction i with
  | zero =>
    obtain ⟨x, hx⟩ := hs 0
    refine ⟨x, ?_⟩
    rw [scan, hx]
    rfl
  | succ i ih =>
    obtain ⟨w, hw⟩ := ih
    obtain ⟨x, hx⟩ := hs (i + 1)
    have hone : (1 : ℚ) * (1 - alpha) + alpha ≠ 0 := by
      rw [one_mul, sub_add_cancel]
      exact one_ne_zero
    rw [scan, hw, hx]
    by_cases heq : eq (some w) (some x) = true
    · refine ⟨w, ?_⟩
      simp only [Ewm.step, isNan, isFinite, heq, if_true]
      rfl
    · refine ⟨(1 * (1 - alpha) * w + alpha * x) / (1 * (1 - alpha) + alpha), ?_⟩
      have hdiv : (some (1 * (1 - alpha) * w + alpha * x) : Option ℚ) /
          some (1 * (1 - alpha) + alpha) =
            some ((1 * (1 - alpha) * w + alpha * x) / (1 * (1 - alpha) + alpha)) := if_neg hone
      rw [← hdiv]
      simp only [Ewm.step, isNan, isFinite, heq]
      rfl

theorem exists_atr (bars : ℕ → Ohlc ℚ) (window i : ℕ) :
    ∃ a, atr (fun j => (bars j).exact) window i =
      if max window 1 ≤ i + 1 then some a else none := by
  obtain ⟨a, ha⟩ := exists_ewm (exists_trueRange bars) (1 / window) i
  refine ⟨a, ?_⟩
  simp only [atr, wilder, ewm, ofRat, ha]
  rfl

/-! ## One row of the ratchet -/

def Trend.running (upper lower close : ℚ) (rising : Bool) : Trend (Option ℚ) :=
  { started := true
    upper := some upper
    lower := some lower
    direction := some (if rising then 1 else -1)
    line := some (if rising then lower else upper)
    close := some close }

def Trend.Held (t : Trend (Option ℚ)) : Prop :=
  (t.direction = some 1 → le t.line t.close = true) ∧
    (t.direction = some (-1) → le t.close t.line = true)

def Trend.Ratchets (prev t : Trend (Option ℚ)) : Prop :=
  (prev.direction = some 1 → t.direction = some 1 → le prev.line t.line = true) ∧
    (prev.direction = some (-1) → t.direction = some (-1) → le t.line prev.line = true)

def Trend.Overleaps (multiplier : ℚ) (prev : Trend (Option ℚ)) (b : Ohlc ℚ) (a : ℚ) : Prop :=
  let hl2 := (b.high + b.low) / 2
  (le prev.close prev.upper = true ∧ lt prev.upper (some b.close) = true ∧
      b.close < hl2 - multiplier * a) ∨
    (le prev.lower prev.close = true ∧ lt (some b.close) prev.lower = true ∧
      hl2 + multiplier * a < b.close)

instance (multiplier : ℚ) (prev : Trend (Option ℚ)) (b : Ohlc ℚ) (a : ℚ) :
    Decidable (prev.Overleaps multiplier b a) := by
  delta Trend.Overleaps
  infer_instance

theorem held_running (upper lower close : ℚ) (rising : Bool) :
    (Trend.running upper lower close rising).Held ↔
      if rising then lower ≤ close else close ≤ upper := by
  have hne : (1 : ℚ) ≠ -1 := by norm_num
  rcases rising with _ | _
  · simp [Trend.running, Trend.Held, le, hne.symm]
  · simp [Trend.running, Trend.Held, le, hne]

theorem ratchets_running (upper lower close upper' lower' close' : ℚ) (rising rising' : Bool) :
    (Trend.running upper lower close rising).Ratchets
        (Trend.running upper' lower' close' rising') ↔
      rising = rising' → if rising then lower ≤ lower' else upper' ≤ upper := by
  have hne : (1 : ℚ) ≠ -1 := by norm_num
  rcases rising with _ | _
  · rcases rising' with _ | _
    · simp [Trend.running, Trend.Ratchets, le, hne.symm]
    · simp [Trend.running, Trend.Ratchets, hne, hne.symm]
  · rcases rising' with _ | _
    · simp [Trend.running, Trend.Ratchets, hne, hne.symm]
    · simp [Trend.running, Trend.Ratchets, le, hne]

theorem middle_exact (b : Ohlc ℚ) :
    (b.exact.high + b.exact.low) / ofRat 2 = some ((b.high + b.low) / 2) := by
  have htwo : (2 : ℚ) ≠ 0 := two_ne_zero
  change (if (2 : ℚ) = 0 then none else some ((b.high + b.low) / 2)) = _
  rw [if_neg htwo]

theorem step_first {multiplier : ℚ} {prev : Trend (Option ℚ)} (h : prev.started = false)
    (b : Ohlc ℚ) (a : ℚ) :
    let basicUp := (b.high + b.low) / 2 + multiplier * a
    let basicLow := (b.high + b.low) / 2 - multiplier * a
    Trend.step (some multiplier) prev (b.exact, some a) =
      Trend.running basicUp basicLow b.close (decide (basicLow ≤ b.close)) := by
  intro basicUp basicLow
  have hup : (some ((b.high + b.low) / 2) + some multiplier * some a : Option ℚ) =
      some basicUp := rfl
  have hlow : (some ((b.high + b.low) / 2) - some multiplier * some a : Option ℚ) = some basicLow :=
    rfl
  simp only [Trend.step, middle_exact, hup, hlow, h]
  by_cases hrising : basicLow ≤ b.close
  · simp [isFinite, le, Ohlc.exact, Trend.running, ofRat, hrising]
  · simp [isFinite, le, Ohlc.exact, Trend.running, ofRat, hrising]

theorem step_running (multiplier upper lower close : ℚ) (rising : Bool) (b : Ohlc ℚ) (a : ℚ) :
    let basicUp := (b.high + b.low) / 2 + multiplier * a
    let basicLow := (b.high + b.low) / 2 - multiplier * a
    let upper' := if basicUp < upper ∨ upper < close then basicUp else upper
    let lower' := if lower < basicLow ∨ close < lower then basicLow else lower
    Trend.step (some multiplier) (Trend.running upper lower close rising) (b.exact, some a) =
      Trend.running upper' lower' b.close
        (if rising then decide (lower' ≤ b.close) else decide (upper' < b.close)) := by
  intro basicUp basicLow upper' lower'
  have hup : (some ((b.high + b.low) / 2) + some multiplier * some a : Option ℚ) =
      some basicUp := rfl
  have hlow : (some ((b.high + b.low) / 2) - some multiplier * some a : Option ℚ) = some basicLow :=
    rfl
  have hupper : (if lt (some basicUp) (some upper) || lt (some upper) (some close) then
      some basicUp else some upper) = some upper' := by
    simp only [lt, Option.any_some, Bool.or_eq_true, decide_eq_true_eq, upper']
    split_ifs
    all_goals simp
  have hlower : (if lt (some lower) (some basicLow) || lt (some close) (some lower) then
      some basicLow else some lower) = some lower' := by
    simp only [lt, Option.any_some, Bool.or_eq_true, decide_eq_true_eq, lower']
    split_ifs
    all_goals simp
  simp only [Trend.step, middle_exact, hup, hlow, Trend.running, hupper, hlower]
  rcases rising with _ | _
  · by_cases hcross : upper' < b.close
    · simp [isFinite, Ohlc.exact, ofRat, lt, hcross]
    · simp [isFinite, Ohlc.exact, ofRat, lt, hcross]
  · by_cases hcross : lower' ≤ b.close
    · simp [isFinite, Ohlc.exact, ofRat, lt, hcross]
    · simp [isFinite, Ohlc.exact, ofRat, lt, hcross]

theorem held_step_iff {multiplier a : ℚ} (hwidth : 0 < multiplier * a)
    (upper lower close : ℚ) (rising : Bool) (b : Ohlc ℚ) :
    (Trend.step (some multiplier) (Trend.running upper lower close rising)
        (b.exact, some a)).Held ↔
      ¬ Trend.Overleaps multiplier (Trend.running upper lower close rising) b a := by
  rw [step_running, held_running]
  simp only [Trend.Overleaps, Trend.running, le, lt, Option.any_some, decide_eq_true_eq]
  generalize (b.high + b.low) / 2 = middle
  rcases rising with _ | _
  · simp only [Bool.false_eq_true, if_false, decide_eq_true_eq]
    split_ifs
    all_goals grind
  · simp only [if_true, decide_eq_true_eq]
    split_ifs
    all_goals grind

theorem ratchets_step {multiplier : ℚ} {upper lower close : ℚ} {rising : Bool}
    (h : (Trend.running upper lower close rising).Held) (b : Ohlc ℚ) (a : ℚ) :
    (Trend.running upper lower close rising).Ratchets
      (Trend.step (some multiplier) (Trend.running upper lower close rising)
        (b.exact, some a)) := by
  rw [held_running] at h
  rw [step_running, ratchets_running]
  rintro -
  rcases rising with _ | _
  · simp only [Bool.false_eq_true, if_false] at h ⊢
    split_ifs
    all_goals grind
  · simp only [if_true] at h ⊢
    split_ifs
    all_goals grind

/-! ## Every row -/

section Series

variable (bars : ℕ → Ohlc ℚ) (window : ℕ) (multiplier : ℚ)

def rangeAt (i : ℕ) : Option ℚ := atr (fun j => (bars j).exact) window i

def trendAt (i : ℕ) : Trend (Option ℚ) :=
  supertrend (fun j => (bars j).exact) window (some multiplier) i

def LeapsAt (i : ℕ) : Prop :=
  ∃ a, rangeAt bars window (i + 1) = some a ∧
    (trendAt bars window multiplier i).Overleaps multiplier (bars (i + 1)) a

theorem trendAt_succ (i : ℕ) : trendAt bars window multiplier (i + 1) =
    Trend.step (some multiplier) (trendAt bars window multiplier i)
      ((bars (i + 1)).exact, rangeAt bars window (i + 1)) := rfl

theorem trendAt_of_none {i : ℕ} (h : rangeAt bars window i = none) :
    trendAt bars window multiplier i = { Trend.idle with close := some (bars i).close } := by
  induction i with
  | zero =>
    change Trend.step (some multiplier) Trend.idle ((bars 0).exact, rangeAt bars window 0) = _
    rw [h]
    rfl
  | succ i ih =>
    obtain ⟨a, ha⟩ := exists_atr bars window i
    obtain ⟨a', ha'⟩ := exists_atr bars window (i + 1)
    have hbefore : rangeAt bars window i = none := by
      have hfew : ¬ max window 1 ≤ i + 1 + 1 := by
        intro hmany
        rw [rangeAt, ha', if_pos hmany] at h
        exact Option.some_ne_none a' h
      rw [rangeAt, ha, if_neg (fun hmany => hfew (hmany.trans (Nat.le_succ _)))]
    rw [trendAt_succ, ih hbefore, h]
    rfl

theorem trendAt_of_some {i : ℕ} {a : ℚ} (h : rangeAt bars window i = some a) :
    ∃ upper lower rising,
      trendAt bars window multiplier i = Trend.running upper lower (bars i).close rising := by
  induction i generalizing a with
  | zero =>
    change ∃ upper lower rising, Trend.step (some multiplier) Trend.idle
      ((bars 0).exact, rangeAt bars window 0) = _
    rw [h]
    exact ⟨_, _, _, step_first rfl (bars 0) a⟩
  | succ i ih =>
    rw [trendAt_succ, h]
    rcases hbefore : rangeAt bars window i with _ | a'
    · have hidle := trendAt_of_none bars window multiplier hbefore
      have hstarted : (trendAt bars window multiplier i).started = false := by rw [hidle]; rfl
      exact ⟨_, _, _, step_first hstarted (bars (i + 1)) a⟩
    · obtain ⟨upper, lower, rising, hrow⟩ := ih hbefore
      rw [hrow]
      exact ⟨_, _, _, step_running multiplier upper lower (bars i).close rising (bars (i + 1)) a⟩

variable {bars window multiplier}

theorem held_of_idle (close : Option ℚ) : ({ Trend.idle with close } : Trend (Option ℚ)).Held :=
  ⟨fun h => absurd h (by simp [Trend.idle, nan]), fun h => absurd h (by simp [Trend.idle, nan])⟩

theorem held_first {prev : Trend (Option ℚ)} (h : prev.started = false) {a : ℚ}
    (hwidth : 0 < multiplier * a) (b : Ohlc ℚ) :
    (Trend.step (some multiplier) prev (b.exact, some a)).Held := by
  rw [step_first h, held_running]
  by_cases hrising : (b.high + b.low) / 2 - multiplier * a ≤ b.close
  · simp [hrising]
  · simp only [hrising, decide_false, Bool.false_eq_true, if_false]
    linarith

theorem held_succ (hpos : 0 < multiplier) {i : ℕ}
    (hrange : ∀ a, rangeAt bars window (i + 1) = some a → 0 < a) :
    ((trendAt bars window multiplier (i + 1)).Held ↔ ¬ LeapsAt bars window multiplier i) ∧
      ((trendAt bars window multiplier i).Held →
        (trendAt bars window multiplier i).Ratchets (trendAt bars window multiplier (i + 1))) := by
  rcases hrow : rangeAt bars window (i + 1) with _ | a
  · have hidle := trendAt_of_none bars window multiplier hrow
    have hno : ¬ LeapsAt bars window multiplier i := by
      rintro ⟨a, ha, -⟩
      rw [hrow] at ha
      cases ha
    rw [hidle]
    refine ⟨iff_of_true (held_of_idle _) hno, fun _ => ⟨fun _ h => ?_, fun _ h => ?_⟩⟩
    all_goals simp [Trend.idle, nan] at h
  · have hwidth := mul_pos hpos (hrange a hrow)
    have hleaps : LeapsAt bars window multiplier i ↔
        (trendAt bars window multiplier i).Overleaps multiplier (bars (i + 1)) a := by
      simp only [LeapsAt, hrow, Option.some.injEq, exists_eq_left']
    rw [trendAt_succ, hrow, hleaps]
    rcases hbefore : rangeAt bars window i with _ | a'
    · have hidle := trendAt_of_none bars window multiplier hbefore
      rw [hidle]
      refine ⟨iff_of_true (held_first rfl hwidth _) ?_, fun _ => ⟨fun h => ?_, fun h => ?_⟩⟩
      · simp [Trend.Overleaps, Trend.idle, nan, lt, le]
      all_goals simp [Trend.idle, nan] at h
    · obtain ⟨upper, lower, rising, hrunning⟩ := trendAt_of_some bars window multiplier hbefore
      rw [hrunning]
      exact ⟨held_step_iff hwidth _ _ _ _ _, fun h => ratchets_step h _ _⟩

theorem held_zero (hpos : 0 < multiplier) (hrange : ∀ a, rangeAt bars window 0 = some a → 0 < a) :
    (trendAt bars window multiplier 0).Held := by
  rcases hrow : rangeAt bars window 0 with _ | a
  · rw [trendAt_of_none bars window multiplier hrow]
    exact held_of_idle _
  · change (Trend.step (some multiplier) Trend.idle ((bars 0).exact, rangeAt bars window 0)).Held
    rw [hrow]
    exact held_first rfl (mul_pos hpos (hrange a hrow)) _

/-- Over the rows up to `n`: every close is on its side of the line and the line keeps its
ground while the direction stays. -/
def Sound (bars : ℕ → Ohlc ℚ) (window : ℕ) (multiplier : ℚ) (n : ℕ) : Prop :=
  (∀ i ≤ n, (trendAt bars window multiplier i).Held) ∧
    ∀ i < n, (trendAt bars window multiplier i).Ratchets (trendAt bars window multiplier (i + 1))

/-- The supertrend is sound exactly over the rows none of which leaps over a band. -/
theorem supertrend_sound_iff (bars : ℕ → Ohlc ℚ) (window : ℕ) {multiplier : ℚ}
    (hpos : 0 < multiplier) {n : ℕ}
    (hrange : ∀ i ≤ n, ∀ a, rangeAt bars window i = some a → 0 < a) :
    Sound bars window multiplier n ↔ ∀ i < n, ¬ LeapsAt bars window multiplier i := by
  have hsucc : ∀ i < n, _ := fun i hi => held_succ hpos (hrange (i + 1) hi)
  constructor
  · rintro ⟨hheld, -⟩ i hi
    exact (hsucc i hi).1.mp (hheld (i + 1) hi)
  · intro hno
    have hheld : ∀ i ≤ n, (trendAt bars window multiplier i).Held := by
      intro i hi
      rcases i with _ | i
      · exact held_zero hpos (hrange 0 hi)
      · exact (hsucc i hi).1.mpr (hno i hi)
    exact ⟨hheld, fun i hi => (hsucc i hi).2 (hheld i hi.le)⟩

end Series

/-! ## A turn, and a wide bar -/

def turningBars (i : ℕ) : Ohlc ℚ :=
  let close : ℚ := 100 + 3 * (min (i - 10) 10 - (i - 20 : ℕ) : ℤ)
  ⟨close, close + 1, close - 1, close⟩

theorem range_turningBars : ∀ i ≤ 30, ∀ a, rangeAt turningBars 10 i = some a → 0 < a := by
  have hpositive : ∀ i ≤ 30, (rangeAt turningBars 10 i).all fun a => decide (0 < a) := by
    decide +kernel
  intro i hi a ha
  have hrow := hpositive i hi
  rw [ha] at hrow
  simpa using hrow

/-- The direction turns down on the way back, and no row leaps over a band. -/
theorem supertrend_sound_iff_turningBars :
    Sound turningBars 10 1 30 ∧
      ∃ i ≤ 30, (trendAt turningBars 10 1 i).direction = some (-1) := by
  refine ⟨(supertrend_sound_iff turningBars 10 one_pos range_turningBars).mpr ?_,
    by decide +kernel⟩
  have hno : ∀ i < 30, (rangeAt turningBars 10 (i + 1)).all fun a =>
      !decide ((trendAt turningBars 10 1 i).Overleaps 1 (turningBars (i + 1)) a) := by
    decide +kernel
  rintro i hi ⟨a, ha, hleaps⟩
  have hrow := hno i hi
  rw [ha, Option.all_some, decide_eq_true hleaps] at hrow
  cases hrow

def wideBars (i : ℕ) : Ohlc ℚ := if i < 10 then ⟨100, 101, 99, 100⟩ else ⟨100, 200, 100, 110⟩

theorem range_wideBars : ∀ i ≤ 10, ∀ a, rangeAt wideBars 10 i = some a → 0 < a := by
  have hpositive : ∀ i ≤ 10, (rangeAt wideBars 10 i).all fun a => decide (0 < a) := by
    decide +kernel
  intro i hi a ha
  have hrow := hpositive i hi
  rw [ha] at hrow
  simpa using hrow

/-- The wide bar turns the direction down and closes above the line. -/
theorem not_sound_wideBars :
    ¬ ∀ (bars : ℕ → Ohlc ℚ) (window : ℕ) (multiplier : ℚ) (n : ℕ), 0 < multiplier →
      (∀ i ≤ n, (bars i).WellFormed) →
      (∀ i ≤ n, ∀ a, rangeAt bars window i = some a → 0 < a) → Sound bars window multiplier n := by
  intro hall
  have hdown : (trendAt wideBars 10 3 10).direction = some (-1) ∧
      le (trendAt wideBars 10 3 10).close (trendAt wideBars 10 3 10).line = false := by
    decide +kernel
  have hbars : ∀ i ≤ 10, (wideBars i).WellFormed := by
    intro i _
    rw [wideBars]
    split_ifs
    all_goals constructor
    all_goals norm_num
  have hheld := ((hall wideBars 10 3 10 (by norm_num) hbars range_wideBars).1 10 le_rfl).2 hdown.1
  rw [hdown.2] at hheld
  cases hheld

end Indicators

end Sentinel
