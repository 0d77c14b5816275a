import Sentinel.Brokers.ClosedTrades
import Sentinel.Brokers.Paper
import Sentinel.Core.Clock
import Sentinel.Execution.OrderManager

/-!
# The account of the paper broker

The whole simulated venue: its balance, the open positions with the commission
and the financing they carry, the orders, the closed trades and the
transactions.  A method is a program over that state which may raise and does
not undo what it changed.  What the random generator draws (latency, last look
and slippage) is an argument of the method that draws it.
-/

namespace Sentinel

structure SimProfile where
  commissionPerLotRoundTurn : Dec := 7
  partialFillThresholdLots : Dec := 2
  partialFillRatio : Dec := 6 / 10
  swapLongPipsPerDay : Dict String Dec := Dict.empty
  swapShortPipsPerDay : Dict String Dec := Dict.empty
  tripleSwapWeekday : ℤ := 2
  stopOutMarginLevelPct : Dec := 50
  marginCallLevelPct : Dec := 100
  negativeBalanceProtection : Bool := true
  costMultiplier : Dec := 1

/-- What a simulated venue is built with. -/
structure PaperSetup where
  instruments : Dict String Instrument
  profile : SimProfile := {}
  currency : String := "USD"
  accountId : String := "PAPER-001"
  /-- `str` of a `Decimal`, whose trailing zeros are not in its value. -/
  decText : Dec → String := fun q => toString q

structure PaperTrade extends ClosedTrade where
  maxFavourableR : Dec
  maxAdverseR : Dec

/-- The risk that the fills of a position brought, and the trades its closed
portions were recorded as.  No method reads a record: the source keeps neither
with the position, and statements about a position's whole life need both. -/
structure PositionRecord where
  riskOpened : Dec
  portions : List PaperTrade

def PositionRecord.riskClosed (r : PositionRecord) : Dec :=
  (r.portions.map fun trade => trade.initialRisk).sum

structure PaperPosition where
  side : Side
  lots : Dec
  entryPrice : Dec
  openedNs : ℤ
  strategy : String
  stopLoss : Option Dec
  takeProfit : Option Dec
  brokerStopConfirmed : Bool
  clientOrderId : String
  realisedPnl : Dec := 0
  financingPaid : Dec := 0
  commissionPaid : Dec
  initialRisk : Dec
  maxFavourable : Dec := 0
  maxAdverse : Dec := 0
  record : PositionRecord

def PaperPosition.toPosition (p : PaperPosition) (symbol : String) : Position where
  instrument := symbol
  side := p.side
  lots := p.lots
  entryPrice := p.entryPrice
  openedNs := p.openedNs
  strategy := p.strategy
  stopLoss := p.stopLoss
  takeProfit := p.takeProfit
  brokerStopConfirmed := p.brokerStopConfirmed
  clientOrderId := some p.clientOrderId
  initialRisk := max 0 p.initialRisk
  maxFavourable := p.maxFavourable
  maxAdverse := p.maxAdverse
  initialRisk_nonneg := le_max_left _ _

structure PaperFill extends Fill where
  tsNs : ℤ
  commission : Dec

inductive TxnKind where
  | orderReject (reason : String)
  | orderTimeout
  | orderFill (price lots commission slippagePips : Dec) (hidden : Bool)
  | orderCancel
  | positionModify (instrument : String) (stopLoss takeProfit : Option Dec)
  | negativeBalanceReset (balanceBefore : Dec)
  | positionClose (instrument : String) (lots pnl grossPnl : Dec) (reason : String)
  | rollover (multiplier : Dec) (valueDate : ℤ)

def TxnKind.reset : TxnKind → Dec
  | .negativeBalanceReset balanceBefore => -balanceBefore
  | _ => 0

structure PaperTxn where
  id : ℕ
  kind : TxnKind
  clientOrderId : String
  tsNs : ℤ

inductive PaperError where
  | conversionMissing (quoteCcy accountCcy : String)
  | unknownInstrument (symbol : String)
  | zeroDivision
  | refusedStop (message : String)
  | clockBackwards
  deriving DecidableEq

/-- The state of the simulated venue.  `ended` has the records of the
positions that are closed. -/
structure PaperBroker where
  balance : Dec
  quotes : Dict String Quote
  conversions : Dict String Dec
  positions : Dict String PaperPosition
  orders : Dict String Order
  closed : List PaperTrade
  transactions : List PaperTxn
  txnSeq : ℕ
  nowNs : ℤ
  lastRolloverDay : Option ℤ
  peakEquity : Dec
  tradeSeq : ℕ
  ended : List PositionRecord

abbrev PaperM := EStateM PaperError PaperBroker

/-- The texts `V00000001` and `T000001`. -/
def numbered (letter : String) (width n : ℕ) : String :=
  letter ++ String.ofList (List.replicate (width - (Nat.toDigits 10 n).length) '0') ++ toString n

namespace PaperBroker

/-- `PaperBroker(...)`. -/
def new (cfg : PaperSetup) (startingBalance : Dec) (startNs : ℤ) : PaperBroker where
  balance := startingBalance
  quotes := Dict.empty
  conversions := Dict.empty.set (cfg.currency ++ "_" ++ cfg.currency) 1
  positions := Dict.empty
  orders := Dict.empty
  closed := []
  transactions := []
  txnSeq := 0
  nowNs := startNs
  lastRolloverDay := none
  peakEquity := startingBalance
  tradeSeq := 0
  ended := []

def recordTxn (b : PaperBroker) (clientOrderId : String) (kind : TxnKind) : PaperBroker :=
  { b with
    txnSeq := b.txnSeq + 1
    transactions := b.transactions ++ [⟨b.txnSeq + 1, kind, clientOrderId, b.nowNs⟩] }

/-- `conversion_rate`; `none` where it raises. -/
def conversionRate (b : PaperBroker) (quoteCcy accountCcy : String) : Option Dec :=
  if quoteCcy = accountCcy then some 1
  else
    (b.conversions.get? (quoteCcy ++ "_" ++ accountCcy)).or
      ((b.conversions.get? (accountCcy ++ "_" ++ quoteCcy)).bind fun inverse =>
        if inverse ≠ 0 then some (1 / inverse) else none)

variable (cfg : PaperSetup)

def conv (inst : Instrument) : PaperM Dec := do
  let b ← get
  match b.conversionRate inst.quote cfg.currency with
  | some rate => pure rate
  | none => throw (.conversionMissing inst.quote cfg.currency)

/-! ## The account read -/

def mark (b : PaperBroker) (sums : Dec × Dec) (item : String × PaperPosition) :
    Except PaperError (Dec × Dec) :=
  match cfg.instruments.get? item.1 with
  | none => .error (.unknownInstrument item.1)
  | some inst =>
      match b.quotes.get? item.1, b.conversionRate inst.quote cfg.currency with
      | some q, some rate =>
          .ok (sums.1 + (item.2.toPosition item.1).unrealised q inst rate,
            sums.2 + inst.units item.2.lots * q.mid * inst.marginRate * rate)
      | _, _ => .ok sums

def account : PaperM AccountState := do
  let b ← get
  match b.positions.items.foldlM (b.mark cfg) (0, 0) with
  | .error e => throw e
  | .ok (unreal, margin) =>
      let equity := b.balance + unreal
      modify fun b => { b with peakEquity := max b.peakEquity equity }
      pure
        { accountId := cfg.accountId
          currency := cfg.currency
          balance := b.balance
          equity := equity
          marginUsed := margin
          marginAvailable := equity - margin }

/-! ## Closing lots -/

/-- What is attributed to `lots` of a position that are closed. -/
structure Portion where
  delta : Dec
  pricePnl : Dec
  riskShare : Dec
  commissionShare : Dec
  financingShare : Dec

def Portion.netPnl (x : Portion) : Dec :=
  x.pricePnl - x.commissionShare + x.financingShare

def portion (pos : PaperPosition) (inst : Instrument) (exitPrice lots extraCommission rate : Dec) :
    Portion :=
  let delta := (exitPrice - pos.entryPrice) * pos.side.sign
  let fraction := if 0 < pos.lots then lots / pos.lots else 1
  { delta := delta
    pricePnl := delta * inst.units lots * rate
    riskShare := pos.initialRisk * fraction
    commissionShare := pos.commissionPaid * fraction + extraCommission
    financingShare := pos.financingPaid * fraction }

def closedTrade (b : PaperBroker) (symbol : String) (pos : PaperPosition) (inst : Instrument)
    (exitPrice lots : Dec) (tsNs : ℤ) (reason : String) (x : Portion) : PaperTrade where
  tradeId := numbered "T" 6 (b.tradeSeq + 1)
  strategy := pos.strategy
  instrument := symbol
  side := pos.side
  lots := lots
  entryPrice := pos.entryPrice
  exitPrice := exitPrice
  openedNs := pos.openedNs
  closedNs := tsNs
  pnl := x.netPnl
  pnlPips := x.delta / inst.pip
  commission := x.commissionShare
  financing := x.financingShare
  initialRisk := x.riskShare
  rMultiple := if 0 < x.riskShare then x.netPnl / x.riskShare else 0
  exitReason := reason
  maxFavourableR := pos.maxFavourable
  maxAdverseR := pos.maxAdverse

def leftOpen (pos : PaperPosition) (lots extraCommission : Dec) (x : Portion)
    (trade : PaperTrade) : PaperPosition :=
  { pos with
    commissionPaid := pos.commissionPaid - (x.commissionShare - extraCommission)
    financingPaid := pos.financingPaid - x.financingShare
    initialRisk := pos.initialRisk - x.riskShare
    lots := pos.lots - lots
    realisedPnl := pos.realisedPnl + x.netPnl
    record := { pos.record with portions := pos.record.portions ++ [trade] } }

def putBack (b : PaperBroker) (symbol : String) (left : PaperPosition) : PaperBroker :=
  if left.lots ≤ 0 then
    { b with positions := b.positions.erase symbol, ended := b.ended ++ [left.record] }
  else { b with positions := b.positions.set symbol left }

def protectBalance (b : PaperBroker) : PaperBroker :=
  if cfg.profile.negativeBalanceProtection ∧ b.balance < 0 then
    { b.recordTxn "" (.negativeBalanceReset b.balance) with balance := 0 }
  else b

def realise (symbol : String) (pos : PaperPosition) (inst : Instrument) (exitPrice lots : Dec)
    (tsNs : ℤ) (reason : String) (extraCommission : Dec) : PaperM Unit := do
  let rate ← conv cfg inst
  let x := portion pos inst exitPrice lots extraCommission rate
  let b ← get
  let trade := b.closedTrade symbol pos inst exitPrice lots tsNs reason x
  modify fun b =>
    { b with
      balance := b.balance + x.pricePnl
      tradeSeq := b.tradeSeq + 1
      closed := b.closed ++ [trade] }
  modify fun b => b.putBack symbol (leftOpen pos lots extraCommission x trade)
  modify fun b => b.protectBalance cfg
  modify fun b => b.recordTxn pos.clientOrderId
    (.positionClose symbol lots x.netPnl x.pricePnl reason)

/-! ## Fills -/

/-- The risk of `lots` of an order. -/
def riskFor (intent : OrderIntent) (lots : Dec) : Dec :=
  intent.riskAmount * if 0 < intent.lots then lots / intent.lots else 1

/-- The position that `lots` of a fill open. -/
def opened (intent : OrderIntent) (fill : PaperFill) (lots commission : Dec) : PaperPosition where
  side := intent.side
  lots := lots
  entryPrice := fill.price
  openedNs := fill.tsNs
  strategy := intent.strategy
  stopLoss := intent.stopLoss
  takeProfit := intent.takeProfit
  brokerStopConfirmed := intent.stopLoss.isSome
  clientOrderId := intent.clientOrderId
  commissionPaid := commission
  initialRisk := riskFor intent lots
  record := { riskOpened := riskFor intent lots, portions := [] }

def addedTo (pos : PaperPosition) (intent : OrderIntent) (fill : PaperFill) : PaperPosition :=
  { pos with
    entryPrice := (pos.entryPrice * pos.lots + fill.price * fill.lots) / (pos.lots + fill.lots)
    lots := pos.lots + fill.lots
    commissionPaid := pos.commissionPaid + fill.commission
    initialRisk := pos.initialRisk + riskFor intent fill.lots
    stopLoss := intent.stopLoss.or pos.stopLoss
    takeProfit := intent.takeProfit.or pos.takeProfit
    record :=
      { pos.record with riskOpened := pos.record.riskOpened + riskFor intent fill.lots } }

def hold (b : PaperBroker) (symbol : String) (pos : PaperPosition) : PaperBroker :=
  { b with positions := b.positions.set symbol pos }

def closingShare (fill : PaperFill) (closing : Dec) : Dec :=
  if 0 < fill.lots then fill.commission * closing / fill.lots else 0

def fillAgainst (intent : OrderIntent) (inst : Instrument) (fill : PaperFill)
    (pos : PaperPosition) : PaperM Unit := do
  let closing := min pos.lots fill.lots
  let share := closingShare fill closing
  realise cfg intent.instrument pos inst fill.price closing fill.tsNs "opposite_fill" share
  if 0 < fill.lots - closing then
    modify fun b => b.hold intent.instrument
      (opened intent fill (fill.lots - closing) (fill.commission - share))

def applyFill (intent : OrderIntent) (inst : Instrument) (fill : PaperFill) : PaperM Unit := do
  let symbol := intent.instrument
  let b ← get
  match b.positions.get? symbol with
  | none => modify fun b => b.hold symbol (opened intent fill fill.lots fill.commission)
  | some pos =>
      if pos.side = intent.side then
        if pos.lots + fill.lots = 0 then throw .zeroDivision
        else modify fun b => b.hold symbol (addedTo pos intent fill)
      else fillAgainst cfg intent inst fill pos

def fillLots (inst : Instrument) (lots : Dec) : Dec :=
  if cfg.profile.partialFillThresholdLots < lots then
    inst.roundLotsDown (lots * cfg.profile.partialFillRatio)
  else lots

def commissionOn (lots : Dec) : Dec :=
  cfg.profile.commissionPerLotRoundTurn * lots * cfg.profile.costMultiplier

structure Draws where
  latencyMs : Dec
  lastLookRejects : Bool
  slippagePips : Dec

def setOrder (b : PaperBroker) (order : Order) : PaperBroker :=
  { b with orders := b.orders.set order.intent.clientOrderId order }

/-- The fill of `lots` of an order at the quote, the slippage against it. -/
def fillOf (b : PaperBroker) (intent : OrderIntent) (inst : Instrument) (q : Quote)
    (lots slippagePips : Dec) : PaperFill where
  venueOrderId := numbered "V" 8 b.txnSeq
  lots := fillLots cfg inst lots
  price := inst.roundPrice (q.priceFor intent.side + slippagePips * inst.pip * intent.side.sign)
  slippagePips := slippagePips
  tsNs := b.nowNs
  commission := commissionOn cfg (fillLots cfg inst lots)

def withFill (order : Order) (fill : PaperFill) (lots : Dec) (hidden : Bool) : Order :=
  { order with
    venueOrderId := some fill.venueOrderId
    fills := order.fills ++ [fill.toFill]
    state :=
      if hidden then .unknown
      else if cfg.profile.partialFillThresholdLots < lots ∧ fill.lots < lots then .partlyFilled
      else .filled }

def complete (order : Order) (inst : Instrument) (q : Quote) (lots slippagePips : Dec)
    (hidden : Bool) : PaperM Order := do
  modify fun b => { b with txnSeq := b.txnSeq + 1 }
  let b ← get
  let fill := b.fillOf cfg order.intent inst q lots slippagePips
  let done := withFill cfg order fill lots hidden
  modify fun b => b.setOrder done
  modify fun b => { b with balance := b.balance - fill.commission }
  applyFill cfg order.intent inst fill
  modify fun b => b.recordTxn order.intent.clientOrderId
    (.orderFill fill.price fill.lots fill.commission slippagePips hidden)
  pure done

def refusesMargin (intent : OrderIntent) (inst : Instrument) (q : Quote) (lots : Dec) :
    PaperM (Option SubmitResult) := do
  let b ← get
  let opening := (b.positions.get? intent.instrument).all fun pos => pos.side = intent.side
  match opening, b.conversionRate inst.quote cfg.currency with
  | true, some rate =>
      let required := inst.units lots * q.mid * inst.marginRate * rate
      let acct ← account cfg
      if acct.marginAvailable < required then
        modify fun b => b.recordTxn intent.clientOrderId (.orderReject "INSUFFICIENT_MARGIN")
        pure (some { state := .rejected, rejectReason := some "INSUFFICIENT_MARGIN" })
      else pure none
  | _, _ => pure none

def execute (intent : OrderIntent) (inst : Instrument) (q : Quote) (lots timeoutMs : Dec)
    (draws : Draws) : PaperM SubmitResult := do
  let order : Order := { intent := intent, state := .sent, attempts := 1 }
  modify fun b => b.setOrder order
  if timeoutMs < draws.latencyMs then
    modify fun b => b.recordTxn intent.clientOrderId .orderTimeout
    let _ ← complete cfg { order with state := .unknown, lastError := some "timeout" } inst q lots
      draws.slippagePips true
    pure { state := .unknown, rejectReason := some "TIMEOUT" }
  else if draws.lastLookRejects then
    modify fun b => b.setOrder
      { order with state := .rejected, rejectReason := some "LAST_LOOK_REJECT" }
    modify fun b => b.recordTxn intent.clientOrderId (.orderReject "LAST_LOOK")
    pure { state := .rejected, rejectReason := some "LAST_LOOK_REJECT" }
  else
    let done ← complete cfg order inst q lots draws.slippagePips false
    pure { state := done.state, venueOrderId := done.venueOrderId, fills := done.fills }

def submit (intent : OrderIntent) (timeoutMs : Dec) (draws : Draws) : PaperM SubmitResult := do
  let b ← get
  match b.orders.get? intent.clientOrderId with
  | some existing =>
      pure
        { state := existing.state
          venueOrderId := existing.venueOrderId
          fills := existing.fills
          rejectReason := some "DUPLICATE_CLIENT_ORDER_ID" }
  | none =>
      match cfg.instruments.get? intent.instrument, b.quotes.get? intent.instrument with
      | none, _ =>
          pure
            { state := .rejected
              rejectReason := some ("UNKNOWN_INSTRUMENT:" ++ intent.instrument) }
      | some _, none => pure { state := .rejected, rejectReason := some "NO_PRICE" }
      | some inst, some q =>
          let lots := inst.roundLotsDown intent.lots
          if lots < inst.minLot then
            pure
              { state := .rejected
                rejectReason := some ("BELOW_MIN_LOT:" ++ cfg.decText inst.minLot) }
          else if inst.maxLot < lots then
            pure { state := .rejected, rejectReason := some "ABOVE_MAX_LOT" }
          else
            match ← refusesMargin cfg intent inst q lots with
            | some refusal => pure refusal
            | none => execute cfg intent inst q lots timeoutMs draws

/-! ## Quotes: rollover, exits and margin -/

def valueDay (nowNs : ℤ) : ℤ :=
  let offset := (TzRules.utcOffsetHours "America/New_York" nowNs).getD 0
  dayOf (nowNs - (17 - offset) * hourNs)

def book (b : PaperBroker) (symbol : String) (pos : PaperPosition) (amount : Dec) : PaperBroker :=
  { b with balance := b.balance + amount }.hold symbol
    { pos with financingPaid := pos.financingPaid + amount }

def charge (multiplier : Dec) (symbol : String) : PaperM Unit := do
  let b ← get
  match b.positions.get? symbol, cfg.instruments.get? symbol with
  | none, _ => pure ()
  | some _, none => throw (.unknownInstrument symbol)
  | some pos, some inst =>
      let table := match pos.side with
        | .buy => cfg.profile.swapLongPipsPerDay
        | .sell => cfg.profile.swapShortPipsPerDay
      let pips := table.getD symbol (-15 / 100)
      let rate ← conv cfg inst
      let amount := pips * inst.pip * inst.units pos.lots * rate * multiplier
      modify fun b => b.book symbol pos amount

def rollDay (day : ℤ) : PaperM Unit := do
  if weekdayOf day < 5 then
    let multiplier := if weekdayOf day = cfg.profile.tripleSwapWeekday then 3 else 1
    let b ← get
    b.positions.keys.forM (charge cfg multiplier)
    modify fun b => b.recordTxn "" (.rollover multiplier day)

def daysBetween (last day : ℤ) : List ℤ :=
  (List.range (day - last).toNat).map fun n => last + 1 + n

def applyRollover : PaperM Unit := do
  let b ← get
  let day := valueDay b.nowNs
  match b.lastRolloverDay with
  | none => modify fun b => { b with lastRolloverDay := some day }
  | some last =>
      if last < day then
        modify fun b => { b with lastRolloverDay := some day }
        if b.positions.isEmpty then pure ()
        else (daysBetween last day).forM (rollDay cfg)

def hitStop (pos : PaperPosition) (exitPrice : Dec) : Bool :=
  pos.stopLoss.any fun stop => match pos.side with
    | .buy => exitPrice ≤ stop
    | .sell => stop ≤ exitPrice

def hitTarget (pos : PaperPosition) (exitPrice : Dec) : Bool :=
  pos.takeProfit.any fun target => match pos.side with
    | .buy => target ≤ exitPrice
    | .sell => exitPrice ≤ target

def trackExcursions (symbol : String) (pos : PaperPosition) (inst : Instrument) (q : Quote) :
    PaperM PaperPosition := do
  if 0 < pos.initialRisk then
    let rate ← conv cfg inst
    let r := (pos.toPosition symbol).unrealised q inst rate / pos.initialRisk
    let tracked :=
      { pos with maxFavourable := max pos.maxFavourable r, maxAdverse := min pos.maxAdverse r }
    modify fun b => b.hold symbol tracked
    pure tracked
  else pure pos

def checkExits (q : Quote) (tsNs : ℤ) (slippagePips : Dec) : PaperM Unit := do
  let b ← get
  match b.positions.get? q.instrument with
  | none => pure ()
  | some held =>
      match cfg.instruments.get? q.instrument with
      | none => throw (.unknownInstrument q.instrument)
      | some inst =>
          let exitPrice := q.priceFor held.side.opposite
          let pos ← trackExcursions cfg q.instrument held inst q
          if hitStop pos exitPrice then
            let stop := pos.stopLoss.getD 0
            let touched := match pos.side with
              | .buy => min exitPrice stop
              | .sell => max exitPrice stop
            let fillPx := touched + slippagePips * inst.pip * pos.side.opposite.sign
            realise cfg q.instrument pos inst (inst.roundPrice fillPx) pos.lots tsNs "stop_loss" 0
          else if hitTarget pos exitPrice then
            realise cfg q.instrument pos inst (inst.roundPrice (pos.takeProfit.getD 0)) pos.lots
              tsNs "take_profit" 0

structure Marked where
  symbol : String
  pos : PaperPosition
  inst : Instrument
  quote : Quote
  pnl : Dec

def worse (b : PaperBroker) (worst : Option Marked) (item : String × PaperPosition) :
    Except PaperError (Option Marked) :=
  match b.quotes.get? item.1 with
  | none => .ok worst
  | some q =>
      match cfg.instruments.get? item.1 with
      | none => .error (.unknownInstrument item.1)
      | some inst =>
          match b.conversionRate inst.quote cfg.currency with
          | none => .error (.conversionMissing inst.quote cfg.currency)
          | some rate =>
              let pnl := (item.2.toPosition item.1).unrealised q inst rate
              if worst.all fun m => pnl < m.pnl then .ok (some ⟨item.1, item.2, inst, q, pnl⟩)
              else .ok worst

/-- The loop of `_check_margin`: the largest loser is closed until the level
has recovered.  Every round takes a position out of the book, so the number of
open positions bounds the rounds. -/
def closeLosers : ℕ → PaperM Unit
  | 0 => pure ()
  | n + 1 => do
      let b ← get
      match b.positions.items.foldlM (b.worse cfg) none with
      | .error e => throw e
      | .ok none => pure ()
      | .ok (some m) =>
          realise cfg m.symbol m.pos m.inst (m.quote.priceFor m.pos.side.opposite) m.pos.lots
            b.nowNs "margin_stop_out" 0
          let acct ← account cfg
          if acct.marginLevelPct.all fun level => cfg.profile.marginCallLevelPct < level then
            pure ()
          else closeLosers n

def checkMargin : PaperM Unit := do
  let acct ← account cfg
  if acct.marginLevelPct.all fun level => cfg.profile.stopOutMarginLevelPct < level then pure ()
  else
    let b ← get
    closeLosers cfg b.positions.items.length

def onQuote (q : Quote) (tsNs : ℤ) (slippagePips : Dec) : PaperM Unit := do
  modify fun b =>
    { b with quotes := b.quotes.set q.instrument q, nowNs := max b.nowNs tsNs }
  modify fun b =>
    match cfg.instruments.get? q.instrument with
    | some inst =>
        if inst.quote = cfg.currency then
          { b with conversions := b.conversions.set (inst.quote ++ "_" ++ cfg.currency) 1 }
        else b
    | none => b
  applyRollover cfg
  checkExits cfg q tsNs slippagePips
  checkMargin cfg

/-! ## How a close runs -/

section Closing

variable (b : PaperBroker) (symbol : String) (pos : PaperPosition) (inst : Instrument)
  (exitPrice lots : Dec) (tsNs : ℤ) (reason : String) (extraCommission : Dec)

def realised (rate : Dec) : PaperBroker :=
  let x := portion pos inst exitPrice lots extraCommission rate
  let trade := b.closedTrade symbol pos inst exitPrice lots tsNs reason x
  let paid :=
    { b with
      balance := b.balance + x.pricePnl
      tradeSeq := b.tradeSeq + 1
      closed := b.closed ++ [trade] }
  ((paid.putBack symbol (leftOpen pos lots extraCommission x trade)).protectBalance cfg).recordTxn
    pos.clientOrderId (.positionClose symbol lots x.netPnl x.pricePnl reason)

theorem run_conv :
    (conv cfg inst).run b =
      match b.conversionRate inst.quote cfg.currency with
      | some rate => .ok rate b
      | none => .error (.conversionMissing inst.quote cfg.currency) b := by
  have hrun : (conv cfg inst).run b =
      (match b.conversionRate inst.quote cfg.currency with
        | some rate => pure rate
        | none => throw (.conversionMissing inst.quote cfg.currency) : PaperM Dec).run b := rfl
  rw [hrun]
  cases b.conversionRate inst.quote cfg.currency <;> rfl

theorem run_realise :
    (realise cfg symbol pos inst exitPrice lots tsNs reason extraCommission).run b =
      match b.conversionRate inst.quote cfg.currency with
      | some rate =>
          .ok ⟨⟩ (b.realised cfg symbol pos inst exitPrice lots tsNs reason extraCommission rate)
      | none => .error (.conversionMissing inst.quote cfg.currency) b := by
  rw [realise, run_bind, run_conv]
  cases b.conversionRate inst.quote cfg.currency <;> rfl

theorem positions_protectBalance (b : PaperBroker) :
    (b.protectBalance cfg).positions = b.positions := by
  unfold protectBalance
  split_ifs <;> rfl

theorem positions_realised_whole (rate : Dec) :
    (b.realised cfg symbol pos inst exitPrice pos.lots tsNs reason extraCommission
      rate).positions = b.positions.erase symbol := by
  unfold realised
  simp only [recordTxn, positions_protectBalance]
  rw [putBack, if_pos]
  simp [leftOpen]

end Closing

/-! ## The loop of the margin check -/

theorem worse_eq {b : PaperBroker} {worst worst' : Option Marked} {item : String × PaperPosition}
    (h : b.worse cfg worst item = .ok worst') :
    worst' = worst ∨ ∃ m, worst' = some m ∧ (m.symbol, m.pos) = item := by
  unfold worse at h
  cases hquote : b.quotes.get? item.1 with
  | none =>
      rw [hquote] at h
      exact .inl (Except.ok.inj h).symm
  | some q =>
      cases hinst : cfg.instruments.get? item.1 with
      | none =>
          rw [hquote, hinst] at h
          cases h
      | some inst =>
          cases hrate : b.conversionRate inst.quote cfg.currency with
          | none =>
              simp only [hquote, hinst, hrate] at h
              cases h
          | some rate =>
              simp only [hquote, hinst, hrate] at h
              split_ifs at h
              · exact .inr ⟨_, (Except.ok.inj h).symm, rfl⟩
              · exact .inl (Except.ok.inj h).symm

theorem get?_of_worse {b : PaperBroker} {m : Marked}
    (h : b.positions.items.foldlM (b.worse cfg) none = .ok (some m)) :
    b.positions.get? m.symbol = some m.pos := by
  have hmem : ∀ found, some m = some found → (found.symbol, found.pos) ∈ b.positions.items := by
    refine foldlM_ok_induction (I := fun done worst =>
      ∀ found, worst = some found → (found.symbol, found.pos) ∈ done) h (by simp) ?_
    intro done item worst worst' hdone hworse found hfound
    rcases worse_eq cfg hworse with rfl | ⟨m', rfl, hitem⟩
    · exact List.mem_append_left _ (hdone found hfound)
    · rw [← Option.some.inj hfound, hitem]
      exact List.mem_append_right _ (List.mem_singleton_self item)
  exact (Dict.mem_items_iff _ _ _).1 (hmem m rfl)

/-! ## The other calls -/

def setTime (ns : ℤ) : PaperM Unit := do
  let b ← get
  if ns < b.nowNs then throw .clockBackwards
  else modify fun b => { b with nowNs := ns }

def setConversion (quoteCcy : String) (rate : Dec) : PaperM Unit :=
  modify fun b => { b with conversions := b.conversions.set (quoteCcy ++ "_" ++ cfg.currency) rate }

def queryOrder (clientOrderId : String) : PaperM (Option SubmitResult) := do
  let b ← get
  match b.orders.get? clientOrderId with
  | none => pure none
  | some order =>
      if order.state = .unknown ∧ order.fills ≠ [] then
        modify fun b => b.setOrder { order with state := .filled }
      pure (some
        { state := if order.fills ≠ [] then .filled else order.state
          venueOrderId := order.venueOrderId
          fills := order.fills
          rejectReason := order.rejectReason })

def cancel (clientOrderId : String) : PaperM Bool := do
  let b ← get
  match b.orders.get? clientOrderId with
  | none => pure false
  | some order =>
      if order.state.terminal then pure false
      else
        modify fun b => b.setOrder { order with state := .cancelled }
        modify fun b => b.recordTxn clientOrderId .orderCancel
        pure true

def closeLots (inst : Instrument) (pos : PaperPosition) (lots : Option Dec) : Dec :=
  (lots.map fun l => inst.roundLotsDown (min l pos.lots)).getD pos.lots

def closePrice (inst : Instrument) (pos : PaperPosition) (q : Quote) (slippagePips : Dec) : Dec :=
  let away := pos.side.opposite
  inst.roundPrice (q.priceFor away + slippagePips * inst.pip * away.sign)

def closePosition (instrument : String) (lots : Option Dec) (reason : String)
    (slippagePips : Dec) : PaperM SubmitResult := do
  let b ← get
  match b.positions.get? instrument, b.quotes.get? instrument with
  | none, _ => pure { state := .rejected, rejectReason := some "NO_POSITION" }
  | some _, none => pure { state := .rejected, rejectReason := some "NO_PRICE" }
  | some pos, some q =>
      match cfg.instruments.get? instrument with
      | none => throw (.unknownInstrument instrument)
      | some inst =>
          if closeLots inst pos lots ≤ 0 then
            pure { state := .rejected, rejectReason := some "BELOW_MIN_LOT" }
          else
            realise cfg instrument pos inst (closePrice inst pos q slippagePips)
              (closeLots inst pos lots) b.nowNs reason 0
            modify fun b => { b with txnSeq := b.txnSeq + 1 }
            let b ← get
            pure { state := .filled, venueOrderId := some (numbered "V" 8 b.txnSeq) }

def withStops (pos : PaperPosition) (stopLoss takeProfit : Option Dec) : PaperPosition :=
  { pos with
    stopLoss := stopLoss.or pos.stopLoss
    brokerStopConfirmed := pos.brokerStopConfirmed || stopLoss.isSome
    takeProfit := takeProfit.or pos.takeProfit }

def modifyPosition (instrument : String) (stopLoss takeProfit : Option Dec) : PaperM Bool := do
  let b ← get
  match b.positions.get? instrument with
  | none => pure false
  | some pos =>
      match cfg.instruments.get? instrument with
      | none => throw (.unknownInstrument instrument)
      | some inst =>
          let newStop := stopLoss.map inst.roundPrice
          match newStop.bind (Paper.widening (pos.toPosition instrument)) with
          | some message => throw (.refusedStop message)
          | none =>
              modify fun b => b.hold instrument
                (withStops pos newStop (takeProfit.map inst.roundPrice))
              modify fun b => b.recordTxn pos.clientOrderId
                (.positionModify instrument stopLoss takeProfit)
              pure true

inductive Call where
  | setTime (ns : ℤ)
  | setConversion (quoteCcy : String) (rate : Dec)
  | onQuote (q : Quote) (tsNs : ℤ) (slippagePips : Dec)
  | account
  | submit (intent : OrderIntent) (timeoutMs : Dec) (draws : Draws)
  | queryOrder (clientOrderId : String)
  | cancel (clientOrderId : String)
  | closePosition (instrument : String) (lots : Option Dec) (reason : String) (slippagePips : Dec)
  | modifyPosition (instrument : String) (stopLoss takeProfit : Option Dec)

def step (b : PaperBroker) : Call → PaperBroker
  | .setTime ns => finalState (setTime ns) b
  | .setConversion quoteCcy rate => finalState (setConversion cfg quoteCcy rate) b
  | .onQuote q tsNs slippagePips => finalState (onQuote cfg q tsNs slippagePips) b
  | .account => finalState (account cfg) b
  | .submit intent timeoutMs draws => finalState (submit cfg intent timeoutMs draws) b
  | .queryOrder clientOrderId => finalState (queryOrder clientOrderId) b
  | .cancel clientOrderId => finalState (cancel clientOrderId) b
  | .closePosition instrument lots reason slippagePips =>
      finalState (closePosition cfg instrument lots reason slippagePips) b
  | .modifyPosition instrument stopLoss takeProfit =>
      finalState (modifyPosition cfg instrument stopLoss takeProfit) b

end PaperBroker

end Sentinel
