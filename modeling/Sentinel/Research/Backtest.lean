import Sentinel.Brokers.PaperLedger
import Sentinel.Research.Alignment
import Sentinel.Risk.Engine
import Sentinel.Strategy.Indicators

/-!
# The backtester with the rules engine

The loop of `run_backtest`: one round marks the open of a bar, enters the
signals of the bar before at it, replays the bar through the simulated venue,
applies the exits and the protection, and asks the strategy for the signals of
the next bar.  A round is a program over the state of the loop that may raise.
The strategy, the filters and the random generator of the venue are parameters;
what the generator draws depends on the calls that were made before.
-/

namespace Sentinel

open Float64 Causal

/-! ## What a run is given -/

structure RawSignal (F : Type) where
  instrument : String
  side : Option Side
  strength : F
  stopPrice : Option Dec := none
  targetPrice : Option Dec := none
  horizonBars : ℤ := 0
  decisionNs : ℤ := 0
  features : List (String × F) := []

abbrev View (F : Type) := Dict String (Frame F)

structure RulesStrategy (F P : Type) where
  name : String
  timeframe : String
  requiredHistory : ℕ
  prepare : View F → Except String P
  generate : P → View F → String → ℕ → Except String (Option (RawSignal F))

structure BacktestConfig where
  startingEquity : Dec := 10000
  accountCurrency : String := "USD"
  costMultiplier : Dec := 1
  warmupBars : Option ℕ := none
  applyProtection : Bool := true
  maxBars : Option ℕ := none
  sessionWindowsUtc : Option (List (ℤ × ℤ)) := none
  tradeDays : Option (List ℤ) := none
  weekendFlat : Bool := true
  fridayCloseUtcHour : Option ℤ := none
  applyTimeStop : Bool := true
  forwardReturnBars : ℤ := 8

structure FrictionProfile extends SimProfile where
  baseSpreadPips : Dict String Dec := .empty
  defaultSpreadPips : Dec := 6 / 10
  asiaSpreadMultiple : Dec := 26 / 10
  londonSpreadMultiple : Dec := 1
  rolloverSpreadMultiple : Dec := 6

/-- The arguments of `run_backtest` but the data, and what it takes from
outside. -/
structure Backtest (F P : Type) where
  strategy : RulesStrategy F P
  instruments : Dict String Instrument
  risk : RiskConfig := {}
  protect : ProtectConfig := {}
  config : BacktestConfig := {}
  frictions : FrictionProfile := {}
  conversions : List (String × Dec) := []
  signalFilter : Option (RawSignal F → Bool) := none
  sizeScaler : Option (RawSignal F → Dec) := none
  metaGate : Option (RawSignal F → List (String × F) → Bool) := none
  /-- `client_order_id`, of the instrument, the side, the bar and the number -/
  clientOrderId : String → Side → ℤ → ℕ → String
  /-- what an order and an exit draw after the calls so far -/
  orderDraws : List PaperBroker.Call → PaperBroker.Draws
  exitSlippage : List PaperBroker.Call → Dec

/-! ## The state of the loop -/

inductive VetoCount where
  | noBar
  | outOfSession
  | rule (rule : VetoRule)
  | sizeAfterScaling
  | broker (reason : Option String)
  | metaFilter
  | metaLabel
  deriving DecidableEq

structure PositionMarks where
  breakevenMoved : Bool := false
  partialTaken : Bool := false

structure Raised (F : Type) where
  symbol : String
  index : ℕ
  tsNs : ℤ
  signal : RawSignal F
  side : Side
  horizonBars : ℕ
  features : List (String × F)

structure LoopState (F : Type) where
  venue : PaperBroker
  calls : List PaperBroker.Call := []
  /-- by the client order id of the position -/
  marks : Dict String PositionMarks := .empty
  vetoCounts : Dict VetoCount ℕ := .empty
  signalsGenerated : ℕ := 0
  ordersSubmitted : ℕ := 0
  ordersRejected : ℕ := 0
  generationErrors : List String := []
  seq : ℕ := 0
  peakEquity : Dec
  dayKey : Option ℤ := none
  dayStartEquity : Dec
  tradesToday : ℕ := 0
  tradesWeek : ℕ := 0
  tradesYear : ℕ := 0
  weekKey : Option ℤ := none
  yearKey : Option ℤ := none
  lastEntryNs : Option ℤ := none
  pending : List (RawSignal F) := []
  holdLimit : Dict String ℤ := .empty

inductive BacktestError where
  | value (e : ValueError)
  | paper (e : PaperError)
  | unknownSymbol (symbol : String)
  | prepare (message : String)

abbrev LoopM (F : Type) := EStateM BacktestError (LoopState F)

/-- The frames on one clock, up to the last bar of the run, and what was
computed from them before the loop. -/
structure Prepared (F P : Type) where
  symbols : List String
  clock : List ℤ
  view : View F
  warmup : ℕ
  barNs : ℤ
  indicators : P

variable {F P : Type} [Float64 F]

namespace Prepared

variable (x : Prepared F P)

def length (x : Prepared F P) : ℕ := x.clock.length

/-- `ts_ns[i]`. -/
def tsNs (i : ℕ) : ℤ := x.clock.getD i 0

/-- `data[sym]`. -/
def frame (symbol : String) : Frame F := x.view.getD symbol []

/-- `data[sym].iloc[i]`. -/
def bar (symbol : String) (i : ℕ) : Ohlc F := (x.frame symbol).bars i

/-- `present[sym][i]`. -/
def present (symbol : String) (i : ℕ) : Bool :=
  !isNan (x.bar symbol i).openPrice

def endNs (i : ℕ) : ℤ :=
  if i + 1 < x.length then x.tsNs i + max 1 (x.tsNs (i + 1) - x.tsNs i)
  else x.tsNs i + x.barNs

/-- `atr_cache[sym].iloc[i]`, `none` when it is not a number. -/
def atr (x : Prepared F P) (symbol : String) (i : ℕ) : Option Dec :=
  let a := Indicators.atr (x.frame symbol).bars 14 i
  if isFinite a then some (toRat a) else none

end Prepared

namespace Backtest

variable (bt : Backtest F P) (x : Prepared F P)

def setup : PaperSetup where
  instruments := bt.instruments.restrict fun symbol => symbol ∈ x.symbols
  profile :=
    { bt.frictions.toSimProfile with
      costMultiplier := bt.frictions.costMultiplier * bt.config.costMultiplier }
  currency := bt.config.accountCurrency

/-! ## Calls of the venue -/

def call {α : Type} (c : PaperBroker.Call) (p : PaperM α) : LoopM F α := do
  let s ← get
  match p.run s.venue with
  | .ok a b =>
      set { s with venue := b, calls := s.calls ++ [c] }
      pure a
  | .error e b =>
      set { s with venue := b, calls := s.calls ++ [c] }
      throw (.paper e)

/-- A call inside `try`: nothing when it raises. -/
def attempt {α : Type} (c : PaperBroker.Call) (p : PaperM α) : LoopM F (Option α) := do
  let s ← get
  match p.run s.venue with
  | .ok a b =>
      set { s with venue := b, calls := s.calls ++ [c] }
      pure (some a)
  | .error _ b =>
      set { s with venue := b, calls := s.calls ++ [c] }
      pure none

def account : LoopM F AccountState := call .account (PaperBroker.account (bt.setup x))

def closePosition (symbol : String) (lots : Option Dec) (reason : String) :
    LoopM F SubmitResult := do
  let s ← get
  let slip := bt.exitSlippage s.calls
  call (.closePosition symbol lots reason slip)
    (PaperBroker.closePosition (bt.setup x) symbol lots reason slip)

def sessionMultiple (tsNs : ℤ) : Dec :=
  let minute := tsNs % dayNs / minuteNs
  if 20 * 60 + 45 ≤ minute ∧ minute ≤ 21 * 60 + 15 then bt.frictions.rolloverSpreadMultiple
  else if 7 * 60 ≤ minute ∧ minute < 16 * 60 then bt.frictions.londonSpreadMultiple
  else if 21 * 60 ≤ minute ∨ minute < 6 * 60 then bt.frictions.asiaSpreadMultiple
  else 14 / 10

def normalSpread (symbol : String) : Dec :=
  bt.frictions.baseSpreadPips.getD symbol bt.frictions.defaultSpreadPips

/-- `_spread_price`; the harness opens no news window. -/
def spreadPrice (inst : Instrument) (tsNs : ℤ) : Dec :=
  bt.normalSpread inst.symbol *
    (bt.sessionMultiple tsNs * (bt.setup x).profile.costMultiplier) * inst.pip

def spreadOut (symbol : String) (inst : Instrument) (price half : Dec) :
    Except BacktestError Quote :=
  let bid := inst.roundPrice (price - half)
  let ask := inst.roundPrice (price + half)
  if h : bid ≤ ask then .ok { instrument := symbol, bid, ask, bid_le_ask := h }
  else .error (.value ⟨"crossed quote on " ++ symbol⟩)

def feed (symbol : String) (price : F) (tsNs : ℤ) : LoopM F Unit := do
  match (bt.setup x).instruments.get? symbol with
  | none => throw (.unknownSymbol symbol)
  | some inst =>
      match spreadOut symbol inst (toRat price) (bt.spreadPrice x inst tsNs / 2) with
      | .error e => throw e
      | .ok q =>
          let s ← get
          let slip := bt.exitSlippage s.calls
          call (.onQuote q tsNs slip) (PaperBroker.onQuote (bt.setup x) q tsNs slip)

/-- `on_bar_prices`: the adverse extreme of the open position first. -/
def onBarPrices (symbol : String) (b : Ohlc F) (startNs endNs : ℤ) : LoopM F Unit := do
  let s ← get
  let lowFirst := (s.venue.positions.get? symbol).all fun pos => pos.side = .buy
  let first := if lowFirst then b.low else b.high
  let second := if lowFirst then b.high else b.low
  bt.feed x symbol b.openPrice startNs
  bt.feed x symbol first (startNs + (endNs - startNs) / 3)
  bt.feed x symbol second (startNs + 2 * (endNs - startNs) / 3)
  bt.feed x symbol b.close endNs

/-! ## Entries at the open -/

def inSession (tsNs : ℤ) : Bool :=
  (bt.config.tradeDays.all fun days => weekdayOf (dayOf tsNs) ∈ days) &&
    bt.config.sessionWindowsUtc.all fun windows =>
      windows.any fun w => w.1 ≤ hourOf tsNs ∧ hourOf tsNs < w.2

/-- `broker.positions()`, with the marks. -/
def positions (s : LoopState F) : List Position :=
  s.venue.positions.items.map fun item =>
    let marks := s.marks.getD item.2.clientOrderId {}
    { item.2.toPosition item.1 with
      breakevenMoved := marks.breakevenMoved
      scaledOut := marks.partialTaken }

def count (s : LoopState F) (key : VetoCount) (n : ℕ) : LoopState F :=
  { s with vetoCounts := s.vetoCounts.addTo key n }

/-- `conversion_rate` into the currency of the account. -/
def rateOf (s : LoopState F) (inst : Instrument) : Except BacktestError Dec :=
  match s.venue.conversionRate inst.quote bt.config.accountCurrency with
  | some rate => .ok rate
  | none => .error (.paper (.conversionMissing inst.quote bt.config.accountCurrency))

def contracts : List (String × Instrument) :=
  x.symbols.filterMap fun symbol => (bt.instruments.get? symbol).map fun inst => (symbol, inst)

def costModel (symbol : String) : CostModel where
  spreadPips := bt.normalSpread symbol
  commissionPerLotRoundTurn := bt.frictions.commissionPerLotRoundTurn

def riskContext (acct : AccountState) (nowNs : ℤ) (s : LoopState F) :
    Except BacktestError RiskContext := do
  let rates ← (bt.contracts x).mapM fun c => do
    let rate ← bt.rateOf s c.2
    pure (c.2.quote, rate)
  pure
    { nowNs
      account := acct
      positions := positions s
      instruments := Dict.ofEntries (bt.contracts x)
      quotes := s.venue.quotes.restrict fun symbol => symbol ∈ x.symbols
      conversions := Dict.ofEntries rates
      equityPeak := s.peakEquity
      dayPnl := acct.equity - s.dayStartEquity
      dayStartEquity := s.dayStartEquity
      tradesToday := s.tradesToday
      tradesThisWeek := s.tradesWeek
      tradesThisYear := s.tradesYear
      lastEntryNs := s.lastEntryNs
      normalSpreadPips :=
        Dict.ofEntries (x.symbols.map fun symbol => (symbol, bt.normalSpread symbol))
      costModels := Dict.ofEntries (x.symbols.map fun symbol => (symbol, bt.costModel symbol))
      strategyLifecycles := Dict.ofEntries [(bt.strategy.name, .accepted)] }

variable (sig : RawSignal F)

def intentFields (side : Side) (stop : Dec) (inst : Instrument) (seq : ℕ) :
    IntentFields where
  clientOrderId := bt.clientOrderId sig.instrument side sig.decisionNs seq
  strategy := bt.strategy.name
  instrument := sig.instrument
  side
  lots := 1 / 100
  stopLoss := some (inst.roundPrice stop)
  takeProfit := (sig.targetPrice.filter fun target => target ≠ 0).map inst.roundPrice
  decisionNs := sig.decisionNs

def tfSeconds : ℤ :=
  match bt.strategy.timeframe with
  | "M1" => 60
  | "M5" => 300
  | "M15" => 900
  | "M30" => 1800
  | "H1" => 3600
  | "H4" => 14400
  | "D1" => 86400
  | "W1" => 604800
  | _ => x.barNs / 10 ^ 9

def entered (nowNs : ℤ) (s : LoopState F) : LoopState F :=
  { s with
    tradesToday := s.tradesToday + 1
    tradesWeek := s.tradesWeek + 1
    tradesYear := s.tradesYear + 1
    lastEntryNs := some nowNs
    holdLimit :=
      if sig.horizonBars ≠ 0 ∧ bt.tfSeconds x ≠ 0 then
        s.holdLimit.set sig.instrument (sig.horizonBars * bt.tfSeconds x)
      else s.holdLimit }

def submit (acct : AccountState) (sig : RawSignal F) (intent : OrderIntent) (nowNs : ℤ) :
    LoopM F AccountState := do
  let s ← get
  let draws := bt.orderDraws s.calls
  let res ← call (.submit intent 5000 draws) (PaperBroker.submit (bt.setup x) intent 5000 draws)
  modify fun s => { s with ordersSubmitted := s.ordersSubmitted + 1 }
  if res.state = .filled ∨ res.state = .partlyFilled then
    modify (bt.entered x sig nowNs)
    bt.account x
  else if res.state = .rejected then
    modify fun s => count { s with ordersRejected := s.ordersRejected + 1 }
      (.broker res.rejectReason) 1
    pure acct
  else pure acct

def judge (acct : AccountState) (sig : RawSignal F) (inst : Instrument) (intent : OrderIntent)
    (ctx : RiskContext) (nowNs : ℤ) : LoopM F AccountState :=
  match evaluateEntry bt.risk intent.toIntentFields ctx with
  | .error e => throw (.value e)
  | .ok decision =>
      if !decision.approved then do
        modify fun s => decision.vetoes.foldl (fun s v => count s (.rule v.rule) 1) s
        pure acct
      else
        let lots := (bt.sizeScaler.map fun scale =>
          inst.roundLotsDown (decision.approvedLots * scale sig)).getD decision.approvedLots
        if h : lots < inst.minLot then do
          modify fun s => count s .sizeAfterScaling 1
          pure acct
        else
          bt.submit x acct sig
            (intent.sized lots decision.riskAmount decision.riskPct decision.expectedCostPips
              (inst.minLot_pos.trans_le (not_lt.1 h))) nowNs

variable (i : ℕ)

/-- A signal of the bar before, at the open of bar `i`. -/
def enter (acct : AccountState) (sig : RawSignal F) : LoopM F AccountState := do
  match sig.side, sig.stopPrice with
  | some side, some stop =>
      if sig.instrument ∉ x.symbols then throw (.unknownSymbol sig.instrument)
      else if !x.present sig.instrument i then
        modify fun s => count s .noBar 1
        pure acct
      else
        let s ← get
        match bt.instruments.get? sig.instrument, s.venue.quotes.get? sig.instrument with
        | some inst, some _ =>
            match bt.riskContext x acct (x.tsNs i) s with
            | .error e => throw e
            | .ok ctx =>
                modify fun s => { s with seq := s.seq + 1 }
                match OrderIntent.ofFields (bt.intentFields sig side stop inst (s.seq + 1)) with
                | .error _ => pure acct
                | .ok intent => bt.judge x acct sig inst intent ctx (x.tsNs i)
        | _, _ => pure acct
  | _, _ => pure acct

def openBar : LoopM F Unit := do
  call (.setTime (x.tsNs i)) (PaperBroker.setTime (x.tsNs i))
  x.symbols.forM fun symbol =>
    if x.present symbol i then bt.feed x symbol (x.bar symbol i).openPrice (x.tsNs i) else pure ()
  let acct ← bt.account x
  let s ← get
  if x.warmup ≤ i then
    if bt.inSession (x.tsNs i) then
      let _ ← s.pending.foldlM (bt.enter x i) acct
    else if s.pending ≠ [] then modify fun s => count s .outOfSession s.pending.length
  modify fun s => { s with pending := [] }

/-! ## The bar, the exits and the protection -/

def isoWeek (day : ℤ) : ℤ :=
  let thursday := day - weekdayOf day + 3
  let year := (CivilDate.ofDay thursday).year
  (thursday - CivilDate.toDay ⟨year, 1, 1⟩) / 7 + 1

def dayOfYear (day : ℤ) : ℤ :=
  day - CivilDate.toDay ⟨(CivilDate.ofDay day).year, 1, 1⟩ + 1

def rolled (day : ℤ) (equity : Dec) (s : LoopState F) : LoopState F :=
  let s :=
    if s.dayKey ≠ some (dayOfYear day) then
      { s with dayKey := some (dayOfYear day), dayStartEquity := equity, tradesToday := 0 }
    else s
  let s :=
    if s.weekKey ≠ some (isoWeek day) then
      { s with weekKey := some (isoWeek day), tradesWeek := 0 }
    else s
  let year := (CivilDate.ofDay day).year
  if s.yearKey ≠ some year then { s with yearKey := some year, tradesYear := 0 } else s

def replayBar : LoopM F Dec := do
  x.symbols.forM fun symbol =>
    if x.present symbol i then bt.onBarPrices x symbol (x.bar symbol i) (x.tsNs i) (x.endNs i)
    else pure ()
  let acct ← bt.account x
  modify fun s => { s with peakEquity := max s.peakEquity acct.balance }
  modify (rolled (dayOf (x.tsNs i)) acct.equity)
  pure acct.equity

def leave (symbol reason : String) : LoopM F Unit := do
  let _ ← bt.closePosition x symbol none reason
  modify fun s => { s with holdLimit := s.holdLimit.erase symbol }

def nyOffset (nowNs : ℤ) : ℤ := (TzRules.utcOffsetHours "America/New_York" nowNs).getD 0

variable (pos : Position)

def timeExit : LoopM F Unit := do
  let s ← get
  let flat :=
    if bt.config.weekendFlat then weekendFlat (x.endNs i) bt.config.fridayCloseUtcHour nyOffset
    else none
  let limit :=
    if bt.protect.maxHoldSec ≠ 0 then bt.protect.maxHoldSec
    else s.holdLimit.getD pos.instrument 0
  if flat.isSome then bt.leave x pos.instrument "weekend_flat"
  else if bt.config.applyTimeStop ∧ 0 < limit ∧ (timeStop pos (x.endNs i) limit).isSome then
    bt.leave x pos.instrument "time_stop"

def withMark (f : PositionMarks → PositionMarks) (s : LoopState F) : LoopState F :=
  let id := pos.clientOrderId.getD ""
  { s with marks := s.marks.set id (f (s.marks.getD id {})) }

def follow (act : ProtectInstruction) : LoopM F Unit := do
  match act.action with
  | .moveStop stop =>
      let moved ← attempt (.modifyPosition pos.instrument (some stop) none)
        (PaperBroker.modifyPosition (bt.setup x) pos.instrument (some stop) none)
      if moved.isSome ∧ act.rule = .breakeven then
        modify (withMark pos fun m => { m with breakevenMoved := true })
  | .partialClose lots =>
      if lots ≠ 0 then
        let _ ← bt.closePosition x pos.instrument (some lots) "partial_take"
        modify (withMark pos fun m => { m with partialTaken := true })
  | .close =>
      -- the first twenty-four characters of the reason
      let _ ← bt.closePosition x pos.instrument none "give-back stop: peaked a"

def protectPosition : LoopM F Unit := do
  let s ← get
  match s.venue.quotes.get? pos.instrument with
  | none => pure ()
  | some q =>
      match bt.instruments.get? pos.instrument with
      | none => throw (.unknownSymbol pos.instrument)
      | some inst =>
          match bt.rateOf s inst with
          | .error e => throw e
          | .ok rate =>
              (evaluateProtection bt.protect pos q inst (x.atr pos.instrument i) rate none).forM
                (bt.follow x pos)

def manageBar : LoopM F Unit := do
  let s ← get
  (positions s).forM (bt.timeExit x i)
  if bt.config.applyProtection then
    let s ← get
    (positions s).forM (bt.protectPosition x i)

/-! ## The signals of the next bar -/

/-- `bar_context_features`, of the rows up to the bar. -/
def barContext (f : Frame F) (i : ℕ) : List (String × F) :=
  let seen := f.take (i + 1)
  let stamp := (f.stamps) i
  let closes := seen.map fun r => r.close
  let rets := (List.zipWith (fun a b => log b - log a) (closes.drop (closes.length - 260))
    (closes.drop (closes.length - 260)).tail)
  let vols := ((List.range rets.length).map (Series.rolling 20 Series.std (rows rets nan))).filter
    fun v => !isNan v
  let recent : Frame F := (f.drop (i - 200)).take (i + 1 - (i - 200))
  let close := closes.getLast?.getD nan
  let a := Indicators.atr recent.bars 14 (recent.length - 1)
  let d := Indicators.adx recent.bars 14 (recent.length - 1)
  if f.length ≤ i then []
  else
    [("hour_utc", ofRat (hourOf stamp)), ("dow", ofRat (weekdayOf (dayOf stamp)))] ++
      (if 60 ≤ closes.length ∧ 40 < rets.length then
        (vols.getLast?.map fun last =>
          ("vol_pctile", ofRat (vols.countP fun v => le v last) / ofRat vols.length)).toList
      else []) ++
      (if !isNan a && lt (ofRat 0) close then [("atr_pct", a / close * ofRat 100)] else []) ++
      (if !isNan d then [("adx", d)] else [])

def signalFeatures (context : List (String × F)) : List (String × F) :=
  ("strength", sig.strength) ::
    ((sig.features.filter fun f => !isNan f.2).map fun f => ("sig_" ++ f.1, f.2)) ++ context

def horizon : ℕ :=
  let own : ℤ := if sig.horizonBars ≠ 0 then sig.horizonBars else 10 ^ 9
  (max 1 (min bt.config.forwardReturnBars own)).toNat

def passes (context : List (String × F)) : Option VetoCount :=
  if bt.signalFilter.any fun keep => !keep sig then some .metaFilter
  else if bt.metaGate.any fun gate => !gate sig context then some .metaLabel
  else none

def raiseSignal (symbol : String) : LoopM F (Option (Raised F)) := do
  if !x.present symbol i then pure none
  else
    match bt.strategy.generate x.indicators x.view symbol i with
    | .error message =>
        modify fun s => { s with generationErrors :=
          s.generationErrors ++ [symbol ++ "@" ++ toString i ++ ": " ++ message] }
        pure none
    | .ok none => pure none
    | .ok (some sig) =>
        match sig.side with
        | none => pure none
        | some side =>
            let context := barContext (x.frame symbol) i
            modify fun s => { s with signalsGenerated := s.signalsGenerated + 1 }
            match bt.passes sig context with
            | some veto => modify fun s => count s veto 1
            | none => modify fun s => { s with pending := s.pending ++ [sig] }
            pure (some
              { symbol
                index := i
                tsNs := x.tsNs i
                signal := sig
                side
                horizonBars := bt.horizon sig
                features := signalFeatures sig context })

/-! ## The run -/

/-- What a round adds to the equity curve and to the log of signals. -/
structure BarReport (F : Type) where
  equity : Dec
  raised : List (Raised F) := []

def restOfBar : LoopM F (BarReport F) := do
  let equity ← bt.replayBar x i
  if i < x.warmup then pure { equity }
  else
    bt.manageBar x i
    if i < x.length - 1 then
      let raised ← x.symbols.mapM (bt.raiseSignal x i)
      pure { equity, raised := raised.reduceOption }
    else pure { equity }

def playBar : LoopM F (BarReport F) := do
  bt.openBar x i
  bt.restOfBar x i

/-- The first `n` rounds. -/
def rounds (n : ℕ) : LoopM F (List (BarReport F)) := (List.range n).mapM (bt.playBar x)

def start : LoopState F where
  venue :=
    bt.conversions.foldl (fun b c => b.step (bt.setup x) (.setConversion c.1 c.2))
      (PaperBroker.new (bt.setup x) bt.config.startingEquity (x.tsNs 0 - 1))
  calls := bt.conversions.map fun c => .setConversion c.1 c.2
  peakEquity := bt.config.startingEquity
  dayStartEquity := bt.config.startingEquity

def medianSpacing (clock : List ℤ) : ℤ :=
  let spacings := (List.zipWith (fun a b => b - a) clock clock.tail).insertionSort (· ≤ ·)
  let n := spacings.length
  if n % 2 = 1 then spacings.getD (n / 2) 0
  else (spacings.getD (n / 2 - 1) 0 + spacings.getD (n / 2) 0) / 2

variable (data : View F)

def symbolsOf : List String := data.keys.filter bt.instruments.contains

def framesOf : List (String × Frame F) :=
  (bt.symbolsOf data).map fun symbol => (symbol, data.getD symbol [])

def clockOf : List ℤ := unionClock ((bt.framesOf data).map Prod.snd)

def runClock (union : List ℤ) : List ℤ :=
  match bt.config.maxBars with
  | none => union
  | some bars => if bars = 0 then union else union.take bars

def warmupBars : ℕ := bt.config.warmupBars.getD bt.strategy.requiredHistory

/-- `raise ValueError(message)` under a condition. -/
def refuseIf (c : Prop) [Decidable c] (message : String) : Except BacktestError Unit :=
  if c then .error (.value ⟨message⟩) else .ok ()

/-- The checks and the alignment before the loop. -/
def prepare (data : View F) : Except BacktestError (Prepared F P) := do
  refuseIf (bt.symbolsOf data = [])
    "no instrument in `data` has a matching contract specification"
  let _ ← ((bt.framesOf data).mapM fun p => validateFrame p.1 p.2).mapError .value
  let (aligned, union) ← (alignOnTimestamps (bt.framesOf data) bt.warmupBars).mapError .value
  let clock := bt.runClock union
  refuseIf (clock.length ≤ bt.warmupBars + 10)
    ("need more than " ++ toString (bt.warmupBars + 10) ++ " bars, got " ++ toString clock.length)
  refuseIf (medianSpacing clock < 10 ^ 9) "bar spacing is below one second"
  let view := Dict.ofEntries (aligned.map fun p => (p.1, p.2.take clock.length))
  let indicators ← (bt.strategy.prepare view).mapError .prepare
  pure
    { symbols := bt.symbolsOf data
      clock
      view
      warmup := bt.warmupBars
      barNs := medianSpacing clock
      indicators }

structure SignalEntry (F : Type) extends Raised F where
  fwdRet1 : Option F
  fwdRetH : Option F

/-- The return over `n` bars, when both prices tell one. -/
def forwardReturn (symbol : String) (i n : ℕ) : Option F :=
  let now := (x.bar symbol i).close
  let later := (x.bar symbol (i + n)).close
  if i + n < x.length ∧ isFinite later ∧ lt (ofRat 0) now then some (later / now - ofRat 1)
  else none

def signalEntry (r : Raised F) : SignalEntry F where
  toRaised := r
  fwdRet1 := forwardReturn x r.symbol r.index 1
  fwdRetH := forwardReturn x r.symbol r.index r.horizonBars

structure Result (F : Type) where
  trades : List PaperTrade
  equityCurve : List Dec
  vetoes : Dict VetoCount ℕ
  signalsGenerated : ℕ
  ordersSubmitted : ℕ
  ordersRejected : ℕ
  signalLog : List (SignalEntry F)

/-- `equity_points[-1] = ...`, when there is one. -/
def overwriteLast (points : List Dec) (last : Dec) : List Dec :=
  if points = [] then [] else points.dropLast ++ [last]

def flatten : LoopM F AccountState := do
  let s ← get
  (positions s).forM fun pos => do
    let _ ← bt.closePosition x pos.instrument none "end_of_backtest"
  bt.account x

def resultOf (reports : List (BarReport F)) (lastEquity : Dec) (s : LoopState F) : Result F where
  trades := s.venue.closed
  equityCurve := overwriteLast (reports.map BarReport.equity) lastEquity
  vetoes := s.vetoCounts
  signalsGenerated := s.signalsGenerated
  ordersSubmitted := s.ordersSubmitted
  ordersRejected := s.ordersRejected
  signalLog := (reports.flatMap BarReport.raised).map (signalEntry x)

def runLoop : LoopM F (Result F) := do
  let reports ← bt.rounds x x.length
  let acct ← bt.flatten x
  let s ← get
  pure (resultOf x reports acct.equity s)

/-- `run_backtest` with the rules engine. -/
def runBacktest : Except BacktestError (Result F) := do
  let x ← bt.prepare data
  match (bt.runLoop x).run (bt.start x) with
  | .ok result _ => .ok result
  | .error e _ => .error e

end Backtest

end Sentinel
