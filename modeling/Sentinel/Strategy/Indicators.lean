import Sentinel.Strategy.Series

/-!
# The indicators

Those of the strategies' toolkit, each a series of the bars it is given.  The
ones that group rows by day or session also read the instants of the rows.
-/

namespace Sentinel

namespace Indicators

open Float64 Causal Series

variable {F : Type} [Float64 F]

/-! ## Averages, range and momentum -/

variable (series : ℕ → F)

def sma (window : ℕ) : ℕ → F := rolling window mean series

def ema (span : ℕ) : ℕ → F := ewm (ofRat (2 / (span + 1))) span series

/-- `alpha = 1.0 / window`. -/
def wilder (window : ℕ) (series : ℕ → F) : ℕ → F := ewm (ofRat (1 / window)) window series

variable (bars : ℕ → Ohlc F)

variable (i : ℕ)

def trueRange : F :=
  let high := (bars i).high
  let low := (bars i).low
  let prevClose := shift 1 (fun j => (bars j).close) i
  larger (larger (Float64.abs (high - low)) (Float64.abs (high - prevClose)))
    (Float64.abs (low - prevClose))

def atr (window : ℕ) : ℕ → F := wilder window (trueRange bars)

/-- `clip(lower=0)`. -/
def clipBelow (x : F) : F := if lt x (ofRat 0) then ofRat 0 else x

/-- `clip(upper=0)`. -/
def clipAbove (x : F) : F := if lt (ofRat 0) x then ofRat 0 else x

def rsiOf (gain loss : F) : F :=
  let zero : F := ofRat 0
  if isNan gain || isNan loss then nan
  else if eq gain zero && eq loss zero then ofRat 50
  else if eq gain zero && lt zero loss then ofRat 0
  else if eq loss zero && lt zero gain then ofRat 100
  else ofRat 100 - ofRat 100 / (ofRat 1 + gain / zeroToNan loss)

def rsi (window : ℕ) (i : ℕ) : F :=
  rsiOf (wilder window (fun j => clipBelow (diff series j)) i)
    (wilder window (fun j => -clipAbove (diff series j)) i)

def donchianUpper (window : ℕ) : ℕ → F :=
  shift 1 (rolling window largest fun j => (bars j).high)

def donchianLower (window : ℕ) : ℕ → F :=
  shift 1 (rolling window smallest fun j => (bars j).low)

def zscore (window : ℕ) (i : ℕ) : F :=
  (series i - rolling window mean series i) / zeroToNan (rolling window std series i)

def plusDm : F :=
  let up := diff (fun j => (bars j).high) i
  let down := -diff (fun j => (bars j).low) i
  if lt down up && lt (ofRat 0) up then up else ofRat 0

def minusDm : F :=
  let up := diff (fun j => (bars j).high) i
  let down := -diff (fun j => (bars j).low) i
  if lt up down && lt (ofRat 0) down then down else ofRat 0

/-- `plus_di` and `minus_di`. -/
def directional (window : ℕ) (dm : ℕ → F) (i : ℕ) : F :=
  ofRat 100 * wilder window dm i / zeroToNan (atr bars window i)

def dx (window : ℕ) (i : ℕ) : F :=
  let plusDi := directional bars window (plusDm bars) i
  let minusDi := directional bars window (minusDm bars) i
  Float64.abs (plusDi - minusDi) / zeroToNan (plusDi + minusDi) * ofRat 100

def adx (window : ℕ) : ℕ → F := wilder window (dx bars window)

def realisedVol (window : ℕ) : ℕ → F :=
  rolling window std (diff fun j => log (series j))

/-! ## Bands -/

inductive Band where
  | mid
  | upper
  | lower

/-- A line `k` widths from the middle. -/
def Band.line (b : Band) (mid width k : F) : F :=
  match b with
  | .mid => mid
  | .upper => mid + k * width
  | .lower => mid - k * width

def bollinger (b : Band) (series : ℕ → F) (window : ℕ) (k : F) (i : ℕ) : F :=
  b.line (rolling window mean series i) (rolling window std series i) k

def keltner (b : Band) (bars : ℕ → Ohlc F) (window atrWindow : ℕ) (k : F) (i : ℕ) : F :=
  b.line (ema (fun j => (bars j).close) window i) (atr bars atrWindow i) k

def squeezeRatio (window atrWindow : ℕ) (bbK kcK : F) (i : ℕ) : F :=
  let close := fun j => (bars j).close
  (bollinger .upper close window bbK i - bollinger .lower close window bbK i) /
    zeroToNan (keltner .upper bars window atrWindow kcK i -
      keltner .lower bars window atrWindow kcK i)

/-! ## Recursions -/

def absChange : F := Float64.abs (series i - series (i - 1))

def smoothing (erWindow : ℕ) (fast slow : ℚ) (i : ℕ) : F :=
  let fastSc : F := ofRat (2 / (fast + 1))
  let slowSc : F := ofRat (2 / (slow + 1))
  let volatility := rolling erWindow total (absChange series) i
  let er :=
    if isFinite volatility && lt (ofRat 0) volatility then
      Float64.abs (series i - series (i - erWindow)) / volatility
    else ofRat 0
  (er * (fastSc - slowSc) + slowSc) * (er * (fastSc - slowSc) + slowSc)

/-- The average `k` rows after its first one. -/
def kamaFrom (series : ℕ → F) (erWindow : ℕ) (fast slow : ℚ) : ℕ → F
  | 0 => series erWindow
  | k + 1 =>
      let prev := kamaFrom series erWindow fast slow k
      let t := erWindow + (k + 1)
      prev + smoothing series erWindow fast slow t * (series t - prev)

/-- `kama` of a series of `n` rows. -/
def kama (n : ℕ) (series : ℕ → F) (erWindow : ℕ) (fast slow : ℚ) (i : ℕ) : F :=
  if n ≤ erWindow then nan
  else if i < erWindow then nan
  else kamaFrom series erWindow fast slow (i - erWindow)

structure Trend (F : Type) where
  started : Bool
  upper : F
  lower : F
  direction : F
  line : F
  close : F

def Trend.idle : Trend F := ⟨false, nan, nan, nan, nan, nan⟩

def Trend.step (multiplier : F) (prev : Trend F) (row : Ohlc F × F) : Trend F :=
  let close := row.1.close
  let hl2 := (row.1.high + row.1.low) / ofRat 2
  let basicUp := hl2 + multiplier * row.2
  let basicLow := hl2 - multiplier * row.2
  let up : F := ofRat 1
  let down : F := ofRat (-1)
  if !isFinite row.2 then { Trend.idle with started := prev.started, close }
  else if !prev.started then
    let rising := le basicLow close
    { started := true
      upper := basicUp
      lower := basicLow
      direction := if rising then up else down
      line := if rising then basicLow else basicUp
      close }
  else
    let upper := if lt basicUp prev.upper || lt prev.upper prev.close then basicUp else prev.upper
    let lower := if lt prev.lower basicLow || lt prev.close prev.lower then basicLow else prev.lower
    let rising :=
      if lt (ofRat 0) prev.direction then !lt close lower else lt upper close
    { started := true
      upper
      lower
      direction := if rising then up else down
      line := if rising then lower else upper
      close }

/-- `supertrend`, with its two results. -/
def supertrend (atrWindow : ℕ) (multiplier : F) : ℕ → Trend F :=
  scan (Trend.idle.step multiplier) (Trend.step multiplier) fun j =>
    (bars j, atr bars atrWindow j)

/-! ## The cloud -/

inductive CloudLine where
  | tenkan
  | kijun
  | spanA
  | spanB
  | cloudTop
  | cloudBottom

def midChannel (window : ℕ) (i : ℕ) : F :=
  (rolling window largest (fun j => (bars j).high) i +
    rolling window smallest (fun j => (bars j).low) i) / ofRat 2

def ichimoku (tenkan kijun senkouB displacement : ℕ) (line : CloudLine) (i : ℕ) : F :=
  let conv := midChannel bars tenkan
  let base := midChannel bars kijun
  let spanA := shift displacement fun j => (conv j + base j) / ofRat 2
  let spanB := shift displacement (midChannel bars senkouB)
  match line with
  | .tenkan => conv i
  | .kijun => base i
  | .spanA => spanA i
  | .spanB => spanB i
  | .cloudTop => larger (spanA i) (spanB i)
  | .cloudBottom => smaller (spanA i) (spanB i)

def rollingPercentile (window : ℕ) : ℕ → F := rolling window rankPct series

/-! ## Two series -/

/-- The rows, of `n`, on which both series are numbers. -/
def joinedRows (n : ℕ) (a b : ℕ → F) : List ℕ :=
  (List.range n).filter fun j => !isNan (a j) && !isNan (b j)

def pctChange (s : ℕ → F) (i : ℕ) : F := s i / shift 1 s i - ofRat 1

/-- `corr` of the pairs of a window. -/
def corr (xs ys : List F) : F :=
  let n : ℚ := xs.length
  let products := List.zipWith (· * ·) xs ys
  (mean products - mean xs * mean ys) * ofRat (n / (n - 1)) / sqrt (variance xs * variance ys)

/-- `rolling(w).corr(other)`. -/
def rollingPair (w : ℕ) (s t : ℕ → F) (i : ℕ) : F :=
  let xs := trailing w s i
  let ys := trailing w t i
  if xs.length = w ∧ xs.all isFinite ∧ ys.all isFinite then corr xs ys else nan

/-- `rolling_corr` of two series of `n` rows: over the rows they share, read
back at the rows of the first. -/
def rollingCorr (n : ℕ) (a b : ℕ → F) (window : ℕ) (i : ℕ) : F :=
  let joined := joinedRows n a b
  let at' := rows joined 0
  if i ∈ joined then
    rollingPair window (pctChange fun k => a (at' k)) (pctChange fun k => b (at' k))
      (joined.idxOf i)
  else nan

/-! ## Days and sessions -/

def groupExtreme (key : ℤ → ℤ) (f : Frame F) (value : Ohlc F → F) (pick : List F → F) (k : ℤ) :
    F :=
  pick ((f.filter fun r => key r.tsNs = k).map fun r => value r.toOhlc)

/-- The key before, among those that have rows: `shift(1)` over the table of
groups, read at a key. -/
def previousKey (keys : List ℤ) (key : ℤ) : Option ℤ :=
  let table := sortedKeys keys
  match table.idxOf key with
  | 0 => none
  | k + 1 => table[k]?

def previousExtreme (key : ℤ → ℤ) (f : Frame F) (value : Ohlc F → F) (pick : List F → F)
    (i : ℕ) : F :=
  match previousKey (f.map fun r => key r.tsNs) (key (f.stamps i)) with
  | none => nan
  | some k => groupExtreme key f value pick k

/-- `previous_day_extremes`. -/
def previousDayHigh (f : Frame F) : ℕ → F := previousExtreme dayOf f (fun b => b.high) largest

def previousDayLow (f : Frame F) : ℕ → F := previousExtreme dayOf f (fun b => b.low) smallest

inductive SessionName where
  | london
  | overlap
  | newyork
  | asia
  deriving DecidableEq

def sessionOf (tsNs : ℤ) : SessionName :=
  let h := hourOf tsNs
  if 7 ≤ h ∧ h < 12 then .london
  else if 12 ≤ h ∧ h < 16 then .overlap
  else if 16 ≤ h ∧ h < 21 then .newyork
  else .asia

def sessionKey (tsNs : ℤ) : ℤ × SessionName := (dayOf tsNs, sessionOf tsNs)

inductive RangeKey where
  | day (day : ℤ)
  | session (day : ℤ) (name : SessionName)
  | row (i : ℕ)
  deriving DecidableEq

def rangeKey (session : Option SessionName) (stamps : ℕ → ℤ) (i : ℕ) : RangeKey :=
  match session with
  | none => .day (dayOf (stamps i))
  | some name =>
      if sessionOf (stamps i) = name then
        .session (sessionKey (stamps i)).1 (sessionKey (stamps i)).2
      else .row i

inductive RangeLine where
  | high
  | low
  | barsSinceOpen

def rangeSide (key : ℕ → RangeKey) (bars : ℕ) (pick : F → F → F) (side : ℕ → F) : ℕ → F :=
  forwardFill key <| cumExtreme pick key fun i => if cumCount key i < bars then side i else nan

def openingRange (line : RangeLine) (df : ℕ → Ohlc F) (stamps : ℕ → ℤ) (bars : ℕ)
    (session : Option SessionName) (i : ℕ) : F :=
  let key := rangeKey session stamps
  let value :=
    match line with
    | .high => rangeSide key bars larger (fun j => (df j).high) i
    | .low => rangeSide key bars smaller (fun j => (df j).low) i
    | .barsSinceOpen => ofRat (cumCount key i)
  match session with
  | none => value
  | some name => if sessionOf (stamps i) = name then value else nan

/-! ## Two bars -/

def insideBar : Bool :=
  lt (bars i).high (shift 1 (fun j => (bars j).high) i) &&
    lt (shift 1 (fun j => (bars j).low) i) (bars i).low

def engulfing : F :=
  let o := (bars i).openPrice
  let c := (bars i).close
  let po := shift 1 (fun j => (bars j).openPrice) i
  let pc := shift 1 (fun j => (bars j).close) i
  let around := le (minimum o c) (minimum po pc) && le (maximum po pc) (maximum o c)
  if isNan o || isNan po then nan
  else if lt c o && lt po pc && around then ofRat (-1)
  else if lt o c && lt pc po && around then ofRat 1
  else ofRat 0

/-! ## What the range reads -/

section Reading

variable {i : ℕ} {bars bars' : ℕ → Ohlc F}

theorem trueRange_agree (h : AgreeTo i bars bars') :
    AgreeTo i (trueRange bars) (trueRange bars') := by
  intro j hj
  have hprev := shift_agree (h.map fun b => b.close) 1 j hj
  rw [trueRange, trueRange, h j hj, hprev]

theorem atr_agree (h : AgreeTo i bars bars') (window : ℕ) :
    AgreeTo i (atr bars window) (atr bars' window) :=
  ewm_agree (trueRange_agree h) _ _

end Reading

end Indicators

end Sentinel
