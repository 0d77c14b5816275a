import Sentinel.Brokers.SymbolNames
import Sentinel.Core.CivilDates
import Sentinel.Core.Types
import Sentinel.Strategy.Causality

/-!
# Execution signals

A strategy that arms a setup on the bars of a higher timeframe, which it builds
from its own, and enters on the closes of its own bars.  Its columns are computed
once for a whole frame: the higher-timeframe bars by period number, one forward
pass over the rows, the range of the trading day before and the time to the
evening's flat.

The wall clock in New York and the trading day, which starts at 17:00 there.
Where the clocks go back an hour of the wall clock happens twice; the trading
day never goes back.
-/

namespace Sentinel

namespace TzRules

/-- `us_dst_bounds_utc`: the first and the last instant of a year's summer time. -/
def usDstBoundsUtc (year : ℤ) : ℤ × ℤ :=
  (nthWeekday year 3 6 2 * dayNs + 7 * hourNs, nthWeekday year 11 6 1 * dayNs + 6 * hourNs)

end TzRules

namespace NewYork

open TzRules

def fxRolloverNyMinute : ℤ := 17 * 60

variable (tsNs : ℤ)

def summer (tsNs : ℤ) : Prop :=
  let bounds := usDstBoundsUtc (CivilDate.ofDay (dayOf tsNs)).year
  bounds.1 ≤ tsNs ∧ tsNs < bounds.2

instance (tsNs : ℤ) : Decidable (summer tsNs) := inferInstanceAs (Decidable (_ ∧ _))

def localNs : ℤ := tsNs + (if summer tsNs then -4 else -5) * hourNs

def nyMinute : ℤ := localNs tsNs % dayNs / minuteNs

def nyDay : ℤ := dayOf (localNs tsNs)

def nyWeekday : ℤ := weekdayOf (nyDay tsNs)

def fxDay : ℤ := dayOf (localNs tsNs + (1440 - fxRolloverNyMinute) * minuteNs)

theorem summer_end_lt {day year : ℤ} (h : year < (CivilDate.ofDay day).year) :
    nthWeekday year 11 6 1 < day := by
  have hone : (1 : ℤ) ≤ 11 ∧ (11 : ℤ) ≤ 12 := by decide
  have hstart : CivilDate.toDay ⟨year, 11, 1⟩ = CivilDate.monthStart (year * 12 + 10) := by
    rw [CivilDate.toDay_eq _ hone.1 hone.2, add_sub_cancel_right]
    congr 1
    simp only [CivilDate.number]
    omega
  have hlong := CivilDate.monthStart_succ (year * 12 + 10)
  have hlength := CivilDate.monthLength_pos ((year * 12 + 10) / 12) ((year * 12 + 10) % 12 + 1)
  obtain ⟨-, -, hlower, -, -⟩ := CivilDate.ofDay_month day
  have hyear := CivilDate.year_ofDay day
  have hmono := CivilDate.monthStart_mono
    (show year * 12 + 10 + 1 ≤ (CivilDate.ofDay day).number by omega)
  simp only [nthWeekday]
  omega

theorem switch_le {t t' : ℤ} (h : t ≤ t') (hsummer : summer t) (hsummer' : ¬ summer t') :
    (usDstBoundsUtc (CivilDate.ofDay (dayOf t)).year).2 ≤ t' := by
  have hmono : dayOf t ≤ dayOf t' := Int.ediv_le_ediv (by decide) h
  obtain ⟨hstart, hend⟩ := hsummer
  rcases eq_or_lt_of_le (CivilDate.year_ofDay_mono hmono) with hyear | hyear
  · by_contra hbefore
    refine hsummer' ⟨?_, ?_⟩
    · rw [← hyear]
      exact hstart.trans h
    · rw [← hyear]
      exact not_le.mp hbefore
  · have hlast := summer_end_lt hyear
    have hle : dayOf t' * dayNs ≤ t' := Int.ediv_mul_le t' (by decide)
    have hmul : (nthWeekday (CivilDate.ofDay (dayOf t)).year 11 6 1 + 1) * dayNs ≤
        dayOf t' * dayNs := Int.mul_le_mul_of_nonneg_right hlast (by decide)
    rw [add_mul] at hmul
    have hunits : dayNs = 24 * hourNs ∧ 0 < hourNs := by decide
    simp only [usDstBoundsUtc]
    omega

theorem monotone_localHour : Monotone fun t => localNs t / hourNs := by
  intro t t' h
  have hunits : dayNs = 24 * hourNs ∧ 0 < hourNs := by decide
  obtain ⟨hday, hhour⟩ := hunits
  by_cases hsummer : summer t
  · by_cases hsummer' : summer t'
    · refine Int.ediv_le_ediv hhour ?_
      simp only [localNs, if_pos hsummer, if_pos hsummer']
      omega
    · -- the switch back lies between them, at the full hour
      have hswitch := switch_le h hsummer hsummer'
      have hend := hsummer.2
      simp only [usDstBoundsUtc] at hend hswitch
      obtain ⟨day, hdayEq⟩ : ∃ day, day = nthWeekday (CivilDate.ofDay (dayOf t)).year 11 6 1 :=
        ⟨_, rfl⟩
      rw [← hdayEq] at hend hswitch
      have hhours : day * dayNs = day * 24 * hourNs := by rw [hday, mul_assoc]
      have hbefore : localNs t / hourNs ≤ day * 24 + 1 := by
        refine Int.lt_add_one_iff.mp ((Int.ediv_lt_iff_lt_mul hhour).mpr ?_)
        simp only [localNs, if_pos hsummer, add_mul]
        omega
      have hafter : day * 24 + 1 ≤ localNs t' / hourNs := by
        refine (Int.le_ediv_iff_mul_le hhour).mpr ?_
        simp only [localNs, if_neg hsummer', add_mul]
        omega
      exact hbefore.trans hafter
  · refine Int.ediv_le_ediv hhour ?_
    simp only [localNs, if_neg hsummer]
    split_ifs
    · omega
    · omega

theorem fxDay_eq (t : ℤ) : fxDay t = (localNs t / hourNs + 7) / 24 := by
  have hunits : dayNs = hourNs * 24 ∧ hourNs = 60 * minuteNs ∧ 0 < hourNs := by decide
  obtain ⟨hday, hhour, hpos⟩ := hunits
  have hshift : localNs t + (1440 - fxRolloverNyMinute) * minuteNs = localNs t + 7 * hourNs := by
    simp only [fxRolloverNyMinute]
    omega
  rw [fxDay, dayOf, hshift, hday, ← Int.ediv_ediv_of_nonneg hpos.le,
    Int.add_mul_ediv_right _ _ hpos.ne']

theorem sinceRoll_eq (t : ℤ) :
    (nyMinute t - fxRolloverNyMinute) % 1440 =
      (localNs t / hourNs + 7) % 24 * 60 + localNs t % hourNs / minuteNs := by
  have hday : dayNs = 86400000000000 := by decide
  have hhour : hourNs = 3600000000000 := by decide
  have hminute : minuteNs = 60000000000 := by decide
  rw [nyMinute, fxRolloverNyMinute, hday, hhour, hminute]
  omega

theorem monotone_fxDay : Monotone fxDay := by
  intro t t' h
  have hhour := monotone_localHour h
  simp only at hhour
  rw [fxDay_eq, fxDay_eq]
  omega

end NewYork

end Sentinel

namespace Sentinel

open Float64 Causal Series

variable {F : Type} [Float64 F]

structure SignalTerms (F : Type) where
  strategy : String
  instrument : String
  side : Side
  strength : F
  horizonBars : ℤ
  timeframe : String
  features : List (String × F)

structure StrategySignal (F : Type) extends SignalTerms F where
  stopPrice : F
  targetPrice : F

/-- `max(a, b)` of the interpreter. -/
def pyMax (a b : F) : F := if lt a b then b else a

/-- `min(a, b)` of the interpreter. -/
def pyMin (a b : F) : F := if lt b a then b else a

/-- `np.clip(strength, 0.0, 1.0)`. -/
def clipStrength (x : F) : F :=
  if lt x (ofRat 0) then ofRat 0 else if lt (ofRat 1) x then ofRat 1 else x

def SignalTerms.kept (s : SignalTerms F) : SignalTerms F :=
  { s with
    strength := clipStrength s.strength
    features := s.features.filter fun kv => isFinite kv.2 }

def usablePrice (x : F) : Bool := isFinite x && !le x (ofRat 0)

def sideSign (side : Side) : F :=
  match side with
  | .buy => ofRat 1
  | .sell => ofRat (-1)

/-- `level_signal`: a signal of levels that are on their sides and far enough apart. -/
def levelSignal (s : SignalTerms F) (close stopPrice targetPrice minRewardRisk : F) :
    Option (StrategySignal F) :=
  if !usablePrice close || !usablePrice stopPrice || !usablePrice targetPrice then none
  else
    let risk := (close - stopPrice) * sideSign s.side
    let reward := (targetPrice - close) * sideSign s.side
    if le risk (ofRat 0) || le reward (ofRat 0) then none
    else if lt (reward / risk) minRewardRisk then none
    else some { s.kept with stopPrice, targetPrice }

/-- `atr_signal`: the levels are multiples of the range away. -/
def atrSignal (s : SignalTerms F) (close atrValue stopAtr targetAtr : F) :
    Option (StrategySignal F) :=
  if !usablePrice atrValue || !usablePrice close then none
  else
    let stopPrice := close - sideSign s.side * stopAtr * atrValue
    let targetPrice := close + sideSign s.side * targetAtr * atrValue
    if le stopPrice (ofRat 0) then none else some { s.kept with stopPrice, targetPrice }

/-! ## Parameters -/

namespace ExecutionSignals

inductive HtfAnchor where
  | fxDay
  | utc
  deriving DecidableEq

inductive ExecutionMode where
  | onBreak
  | ltf
  deriving DecidableEq

inductive TriggerWindow where
  | firstBar
  | period
  deriving DecidableEq

inductive StopModel where
  | priorBar
  | signalBar
  | setupBar
  deriving DecidableEq

inductive SessionChoice where
  | rthOvernight
  | rth
  | full
  deriving DecidableEq

inductive PdhlInside where
  | allow
  | block
  deriving DecidableEq

/-- The timeframes in seconds, the session times in minutes of the New York day. -/
structure Params where
  signalSec : ℕ := 3600
  execSec : ℕ := 900
  tradeInsideBars : Bool := true
  tradeFailures : Bool := false
  htfAnchor : HtfAnchor := .fxDay
  minBucketCoverage : ℚ := 3 / 4
  atrWindow : ℕ := 14
  executionMode : ExecutionMode := .onBreak
  triggerWindow : TriggerWindow := .firstBar
  allowLong : Bool := true
  allowShort : Bool := true
  stopModel : StopModel := .priorBar
  minStopPips : ℚ := 10
  minStopPct : ℚ := 1 / 10
  minStopAtr : ℚ := 0
  maxStopPips : ℚ := 0
  rMultiple : ℚ := 3
  session : SessionChoice := .rthOvernight
  rthOpenNy : ℤ := 570
  flatNy : ℤ := 959
  reopenNy : ℤ := 1080
  minBarsBeforeFlat : ℤ := 2
  pdhlFilter : Bool := false
  pdhlInside : PdhlInside := .allow
  biasExpiryBars : ℕ := 0
  ltfExpiryBars : ℕ := 4
  ltfMatchDirection : Bool := true

def requiredHistory : ℕ := 300

namespace Params

variable (p : Params)

def ratio : ℕ := p.signalSec / p.execSec

def warmup : ℕ :=
  max requiredHistory (p.ratio * (p.atrWindow + 3) + 2 * (86400 / p.execSec))

/-- `signal_periods`: the number of the period an instant falls in. -/
def signalPeriod (tsNs : ℤ) : ℤ :=
  let htfMin : ℤ := (p.signalSec / 60 : ℕ)
  match p.htfAnchor with
  | .fxDay =>
      let sinceRoll := (NewYork.nyMinute tsNs - NewYork.fxRolloverNyMinute) % 1440
      NewYork.fxDay tsNs * (1440 / htfMin) + sinceRoll / htfMin
  | .utc => tsNs / minuteNs / htfMin

/-! ## The bars of the signal timeframe -/

def firstNumber (xs : List F) : F := (xs.find? fun x => !isNan x).getD nan

variable (f : Frame F)

def periodRows (k : ℤ) : Frame F := f.filter fun r => p.signalPeriod r.tsNs = k

def signalBar (k : ℤ) : Ohlc F :=
  let bars := p.periodRows f k
  { openPrice := firstNumber (bars.map fun r => r.openPrice)
    high := largest (bars.map fun r => r.high)
    low := smallest (bars.map fun r => r.low)
    close := firstNumber (bars.map fun r => r.close).reverse }

def covered (k : ℤ) : Bool :=
  let bars := p.periodRows f k
  !bars.isEmpty && decide (p.minBucketCoverage * p.ratio ≤ bars.length)

/-- What the completed bar `k` is, after the bar before it: an inside bar, a failed
high, a failed low, both, or nothing. -/
def setupCode (k : ℤ) : ℤ :=
  let sig := p.signalBar f k
  let mom := p.signalBar f (k - 1)
  let ok := p.covered f k && p.covered f (k - 1)
  let zero : F := ofRat 0
  let inside := ok && lt sig.high mom.high && lt mom.low sig.low && p.tradeInsideBars
  let failHigh := ok && lt mom.high sig.high && le sig.close mom.high &&
    lt zero (sig.high - maximum sig.openPrice sig.close) && p.tradeFailures
  let failLow := ok && lt sig.low mom.low && le mom.low sig.close &&
    lt zero (minimum sig.openPrice sig.close - sig.low) && p.tradeFailures
  if inside then 1
  else if failHigh && failLow then 4
  else if failHigh then 2
  else if failLow then 3
  else 0

def signalAtr (k : ℤ) : F :=
  let table := sortedKeys (f.map fun r => p.signalPeriod r.tsNs)
  if k ∈ table then
    Indicators.atr (rows (table.map (p.signalBar f)) Ohlc.missing) p.atrWindow (table.idxOf k)
  else nan

/-! ## The forward pass -/

structure RunRow (F : Type) extends Ohlc F where
  nyMinute : ℤ
  period : ℤ
  code : ℤ
  sigHigh : F
  sigLow : F

/-- What the pass says of a row. -/
structure Entry (F : Type) where
  entry : ℤ := 0
  code : ℤ := 0
  sigHigh : F
  sigLow : F
  setupHigh : F
  setupLow : F

structure RunState (F : Type) where
  armed : Bool := false
  sigHigh : F
  sigLow : F
  sigCode : ℤ := 0
  bias : ℤ := 0
  biasLeft : ℕ := 0
  biasHigh : F
  biasLow : F
  biasCode : ℤ := 0
  ltfHigh : F
  ltfLow : F
  ltfLeft : ℕ := 0
  previous : Option (RunRow F) := none
  said : Entry F

def Entry.blank : Entry F :=
  { sigHigh := nan, sigLow := nan, setupHigh := nan, setupLow := nan }

def RunState.idle : RunState F :=
  { sigHigh := nan, sigLow := nan, biasHigh := nan, biasLow := nan, ltfHigh := nan, ltfLow := nan
    said := Entry.blank }

def inWindow (m : ℤ) : Bool :=
  let inDay := decide (p.rthOpenNy ≤ m) && decide (m < p.flatNy)
  let overnight := decide (p.reopenNy ≤ m) || decide (m < p.rthOpenNy)
  match p.session with
  | .rth => inDay
  | .rthOvernight => inDay || overnight
  | .full => true

variable (row : RunRow F) (s : RunState F)

def tick : RunState F :=
  { s with
    biasLeft := s.biasLeft - 1
    bias := if s.biasLeft = 1 then 0 else s.bias
    ltfLeft := s.ltfLeft - 1
    ltfHigh := if s.ltfLeft = 1 then nan else s.ltfHigh
    ltfLow := if s.ltfLeft = 1 then nan else s.ltfLow }

def rearm : RunState F :=
  if s.previous.all fun prev => row.period ≠ prev.period then
    if row.code ≠ 0 ∧ p.inWindow row.nyMinute then
      { s with armed := true, sigHigh := row.sigHigh, sigLow := row.sigLow, sigCode := row.code }
    else { s with armed := false }
  else s

def broken : ℤ :=
  if lt s.sigHigh row.close && p.allowLong then 1
  else if lt row.close s.sigLow && p.allowShort then -1
  else 0

def executeBreak : RunState F :=
  if !s.armed then s
  else
    let d := p.broken row s
    { s with
      said :=
        if d ≠ 0 then ⟨d, s.sigCode, s.sigHigh, s.sigLow, s.sigHigh, s.sigLow⟩ else s.said
      armed := decide (d = 0) && decide (p.triggerWindow ≠ .firstBar) }

def takeBias : RunState F :=
  if s.armed && decide (s.bias = 0) then
    let d := p.broken row s
    if d ≠ 0 then
      { s with
        bias := d
        biasLeft := if p.biasExpiryBars = 0 then p.ratio else p.biasExpiryBars
        biasHigh := s.sigHigh
        biasLow := s.sigLow
        biasCode := s.sigCode
        armed := false }
    else s
  else s

def enterTrigger : RunState F :=
  if decide (s.bias ≠ 0) && isFinite s.ltfHigh &&
      ((decide (s.bias = 1) && lt s.ltfHigh row.close) ||
        (decide (s.bias = -1) && lt row.close s.ltfLow)) then
    { s with
      said := ⟨s.bias, s.biasCode, s.biasHigh, s.biasLow, s.ltfHigh, s.ltfLow⟩
      bias := 0
      biasLeft := 0
      ltfHigh := nan
      ltfLow := nan }
  else s

def armTrigger : RunState F :=
  match s.previous with
  | none => s
  | some prev =>
      let zero : F := ofRat 0
      let top := if lt row.openPrice row.close then row.close else row.openPrice
      let bottom := if lt row.close row.openPrice then row.close else row.openPrice
      let upFail := lt prev.high row.high && le row.close prev.high && lt zero (row.high - top)
      let downFail := lt row.low prev.low && le prev.low row.close && lt zero (bottom - row.low)
      let inside := lt row.high prev.high && lt prev.low row.low
      let arm :=
        if p.ltfMatchDirection then inside || (if s.bias = 1 then downFail else upFail)
        else inside || upFail || downFail
      if decide (s.bias ≠ 0) && arm then
        { s with ltfHigh := row.high, ltfLow := row.low, ltfLeft := p.ltfExpiryBars }
      else s

def execute : RunState F :=
  match p.executionMode with
  | .onBreak => p.executeBreak row s
  | .ltf => p.armTrigger row (enterTrigger row (p.takeBias row s))

def flatten : RunState F :=
  if s.previous.any fun prev => p.flatNy ≤ row.nyMinute ∧ prev.nyMinute < p.flatNy then
    { s with armed := false, bias := 0, biasLeft := 0, ltfHigh := nan, ltfLow := nan, ltfLeft := 0 }
  else s

def runStep (row : RunRow F) : RunState F :=
  let window := p.inWindow row.nyMinute
  let s := { s with said := Entry.blank }
  let s := p.rearm row (if window then tick s else s)
  let s := p.flatten row (if window then p.execute row s else s)
  { s with previous := some row }

def runRow (bar : Ohlc F) (tsNs : ℤ) : RunRow F :=
  let k := p.signalPeriod tsNs - 1
  { bar with
    nyMinute := NewYork.nyMinute tsNs
    period := p.signalPeriod tsNs
    code := p.setupCode f k
    sigHigh := if (p.periodRows f k).isEmpty then nan else (p.signalBar f k).high
    sigLow := if (p.periodRows f k).isEmpty then nan else (p.signalBar f k).low }

def run : ℕ → RunState F :=
  scan (p.runStep RunState.idle) p.runStep fun i => p.runRow f (f.bars i) (f.stamps i)

/-- `_bars_to_flat`; nothing where the next flat time is at a weekend. -/
def barsToFlat (tsNs : ℤ) : Option ℤ :=
  let closes := tsNs + p.execSec * 10 ^ 9
  let closeMin := NewYork.nyMinute closes
  let day := NewYork.nyDay closes + if p.flatNy < closeMin then 1 else 0
  let minutes := (day - NewYork.nyDay closes) * 1440 + p.flatNy - closeMin
  if 5 ≤ weekdayOf day then none else some (minutes * 60 / p.execSec)

/-! ## The columns -/

/-- `np.median`. -/
def median (xs : List ℤ) : ℚ :=
  let sorted := xs.insertionSort (· ≤ ·)
  let n := sorted.length
  if n % 2 = 1 then sorted.getD (n / 2) 0
  else (sorted.getD (n / 2 - 1) 0 + sorted.getD (n / 2) 0 : ℚ) / 2

def spacings : List ℤ :=
  List.zipWith (fun r r' => r'.tsNs - r.tsNs) f f.tail

/-- The bars are those of the declared timeframe. -/
def ExecOk (f : Frame F) : Prop :=
  3 ≤ f.length ∧ |median (spacings f) / 10 ^ 9 - p.execSec| ≤ 1

instance (f : Frame F) : Decidable (p.ExecOk f) := inferInstanceAs (Decidable (_ ∧ _))

structure Features (F : Type) where
  execOk : Bool := false
  entry : ℤ := 0
  sigCode : Option ℤ := none
  sigHigh : F
  sigLow : F
  setupHigh : F
  setupLow : F
  priorHigh : F
  priorLow : F
  htfAtr : F
  pdh : F
  pdl : F
  barsToFlat : Option ℤ := none
  nyMinute : Option ℤ := none

def Features.blank : Features F :=
  { sigHigh := nan, sigLow := nan, setupHigh := nan, setupLow := nan, priorHigh := nan
    priorLow := nan, htfAtr := nan, pdh := nan, pdl := nan }

/-- `indicators`, at a row. -/
def indicators (i : ℕ) : Features F :=
  if p.ExecOk f then
    let said := (p.run f i).said
    let tsNs := f.stamps i
    { execOk := true
      entry := said.entry
      sigCode := some said.code
      sigHigh := said.sigHigh
      sigLow := said.sigLow
      setupHigh := said.setupHigh
      setupLow := said.setupLow
      priorHigh := shift 1 (fun j => (f.bars j).high) i
      priorLow := shift 1 (fun j => (f.bars j).low) i
      htfAtr := p.signalAtr f (p.signalPeriod tsNs - 1)
      pdh := Indicators.previousExtreme NewYork.fxDay f (fun b => b.high) largest i
      pdl := Indicators.previousExtreme NewYork.fxDay f (fun b => b.low) smallest i
      barsToFlat := p.barsToFlat tsNs
      nyMinute := some (NewYork.nyMinute tsNs) }
  else Features.blank

/-! ## The signal -/

def fiat : List String :=
  ["USD", "EUR", "GBP", "JPY", "CHF", "CAD", "AUD", "NZD", "SEK", "NOK", "DKK", "SGD", "HKD",
    "ZAR", "MXN", "TRY", "PLN", "CZK", "HUF", "CNH", "ILS"]

def pipHint (letters : Letters) (instrument : String) : Option ℚ :=
  let name := (letters.upperText instrument.toList).map fun c => if c = '/' then '_' else c
  match (name.splitOn '_').map String.ofList with
  | [base, quote] =>
      if base ∈ fiat ∧ quote ∈ fiat then
        some (if quote = "JPY" ∨ quote = "HUF" then 1 / 100 else 1 / 10000)
      else none
  | _ => none

def passesPriorDay (feat : Features F) (close : F) : Bool :=
  if p.pdhlFilter && isFinite feat.pdh && isFinite feat.pdl then
    !(lt feat.pdh close && decide (feat.entry ≠ 1)) &&
      !(lt close feat.pdl && decide (feat.entry ≠ -1)) &&
      !(le feat.pdl close && le close feat.pdh && decide (p.pdhlInside = .block))
  else true

def rawStop (feat : Features F) : F :=
  let long := decide (feat.entry = 1)
  match p.stopModel with
  | .priorBar => if long then feat.priorLow else feat.priorHigh
  | .signalBar => if long then feat.sigLow else feat.sigHigh
  | .setupBar => if long then feat.setupLow else feat.setupHigh

def stopFloor (pip : Option ℚ) (feat : Features F) (close : F) : F :=
  let zero : F := ofRat 0
  let floor := pip.elim zero fun size => pyMax zero (ofRat p.minStopPips * ofRat size)
  let floor :=
    if decide (0 < p.minStopAtr) && isFinite feat.htfAtr && lt zero feat.htfAtr then
      pyMax floor (ofRat p.minStopAtr * feat.htfAtr)
    else floor
  if 0 < p.minStopPct then pyMax floor (close * ofRat p.minStopPct / ofRat 100) else floor

def stopPrice (feat : Features F) (close floor : F) : F :=
  let raw := p.rawStop feat
  if feat.entry = 1 then
    if isFinite raw then pyMin raw (close - floor) else close - floor
  else if isFinite raw then pyMax raw (close + floor)
  else close + floor

/-- The signal of a row's columns, with `barsLeft` bars to the flat. -/
def signalOf (pip : Option ℚ) (instrument : String) (feat : Features F) (close : F)
    (barsLeft : ℤ) : Option (StrategySignal F) :=
  let zero : F := ofRat 0
  let d := feat.entry
  let floor := p.stopFloor pip feat close
  let raw := p.rawStop feat
  let stop := p.stopPrice feat close floor
  let risk := Float64.abs (close - stop)
  if le floor zero then none
  else if le risk zero || le stop zero then none
  else if decide (p.maxStopPips ≠ 0) &&
      pip.any fun size => lt (ofRat p.maxStopPips * ofRat size) risk then none
  else
    let sigCode := feat.sigCode.getD 0
    let ranged := isFinite feat.htfAtr && lt zero feat.htfAtr
    levelSignal
      { strategy := "execution_signals"
        instrument
        side := if d = 1 then .buy else .sell
        strength := ofRat (if sigCode = 1 then 2 / 5 else 7 / 20)
        horizonBars := barsLeft
        timeframe := "M15"
        features :=
          [("sig_code", ofRat sigCode),
            ("bars_to_flat", ofRat barsLeft),
            ("r_multiple", ofRat p.rMultiple),
            ("ny_minute", feat.nyMinute.elim nan fun m => ofRat m),
            ("sig_range_atr",
              if ranged then (feat.sigHigh - feat.sigLow) / feat.htfAtr else nan),
            ("stop_pips", pip.elim nan fun size => risk / ofRat size),
            ("stop_widened",
              ofRat (if !isFinite raw || lt (Float64.abs (close - raw)) risk then 1 else 0))] }
      close stop (close + ofRat d * risk * ofRat p.rMultiple) (ofRat (6 / 5))

/-- `generate`, of the prepared columns of the instrument's frame. -/
def generate (letters : Letters) (f : Frame F) (instrument : String) (i : ℕ) :
    Option (StrategySignal F) :=
  if i < p.warmup ∨ f.length ≤ i then none
  else
    let feat := p.indicators f i
    let close := (f.bars i).close
    if !feat.execOk || decide (feat.entry = 0) then none
    else
      feat.barsToFlat.bind fun barsLeft =>
        if barsLeft < p.minBarsBeforeFlat then none
        else if !isFinite close || !isFinite feat.sigHigh || !isFinite feat.sigLow ||
            le close (ofRat 0) then none
        else if !p.passesPriorDay feat close then none
        else p.signalOf (pipHint letters instrument) instrument feat close barsLeft

end Params

end ExecutionSignals

end Sentinel
