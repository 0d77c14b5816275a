import Sentinel.Agent.Manage

/-!
# Position management on the MetaTrader adapter

The terminal is outside the repository: it lists its tickets, quotes its
symbols and answers a request with a return code.  The adapter sends a stop to
every ticket of the symbol and does not compare it with the one in force.
-/

namespace Sentinel

namespace MetaTrader

/-- An open ticket; `sl` is zero when the terminal holds no stop. -/
structure Ticket where
  symbol : String
  ticket : ℕ
  side : Side
  volume : Dec
  priceOpen : Dec
  sl : Dec := 0
  tp : Dec := 0
  timeMsc : ℤ := 0
  magic : ℤ := 0
  deriving DecidableEq

/-- What `order_send` is given. -/
inductive Request where
  | stops (symbol : String) (position : ℕ) (sl tp : Dec)
  | deal (symbol : String) (position : ℕ) (volume : Dec) (side : Side) (price : Dec)
  deriving DecidableEq

/-- `TRADE_RETCODE_DONE`. -/
def retcodeDone : ℤ := 10009

/-- The calls of the terminal the adapter makes; `none` is the terminal's own
`None`. -/
structure Terminal (σ : Type) where
  positionsGet : σ → Option (List Ticket)
  symbolInfoTick : σ → String → Option Quote
  /-- `order_send`: the return code -/
  orderSend : σ → Request → Option ℤ × σ

structure Adapter (σ : Type) where
  terminal : Terminal σ
  instruments : Dict String Instrument
  /-- `_venue` -/
  venueSymbol : String → String := id
  /-- `_canon` -/
  canon : String → String := id

namespace Adapter

variable {σ : Type} (a : Adapter σ) (v : σ) (instrument : String)

/-- `positions_get(symbol=...) or []`. -/
def tickets : List Ticket :=
  ((a.terminal.positionsGet v).getD []).filter fun t => t.symbol = a.venueSymbol instrument

/-- One round of the loop of `modify_position`. -/
def moveStop (stop : Dec) (answer : Bool × σ) (t : Ticket) : Bool × σ :=
  let (code, v) := a.terminal.orderSend answer.2
    (.stops (a.venueSymbol instrument) t.ticket stop t.tp)
  (answer.1 && decide (code = some retcodeDone), v)

/-- `modify_position(instrument, stop_loss=stop)`. -/
def modifyPosition (stop : Dec) : Except String Bool × σ :=
  let tickets := a.tickets v instrument
  let (ok, after) := tickets.foldl (a.moveStop instrument stop) (true, v)
  (.ok (ok && !tickets.isEmpty), after)

/-- The loop of `close_position`; the first refusal ends it. -/
def closeTickets (instrument : String) (lots : Option Dec) :
    List Ticket → σ → Except String CloseResult × σ
  | [], v => (.ok { state := .filled }, v)
  | t :: ts, v =>
      match a.terminal.symbolInfoTick v (a.venueSymbol instrument) with
      | none => (.error "'NoneType' object has no attribute 'bid'", v)
      | some tick =>
          let volume := ((lots.filter fun l => l ≠ 0).map (min · t.volume)).getD t.volume
          let (code, after) := a.terminal.orderSend v
            (.deal (a.venueSymbol instrument) t.ticket volume t.side.opposite
              (tick.priceFor t.side.opposite))
          if code = some retcodeDone then closeTickets instrument lots ts after
          else
            (.ok { state := .rejected
                   rejectReason := some
                     ("CLOSE_FAILED_" ++ (code.map toString).getD "none") }, after)

def closePosition (lots : Option Dec) : Except String CloseResult × σ :=
  match a.tickets v instrument with
  | [] => (.ok { state := .rejected, rejectReason := some "NO_POSITION" }, v)
  | t :: ts => a.closeTickets instrument lots (t :: ts) v

def position (t : Ticket) : Position where
  instrument := a.canon t.symbol
  side := t.side
  lots := t.volume
  entryPrice := t.priceOpen
  openedNs := t.timeMsc * 1000000
  strategy := toString t.magic
  stopLoss := if t.sl = 0 then none else some t.sl
  takeProfit := if t.tp = 0 then none else some t.tp
  brokerStopConfirmed := decide (t.sl ≠ 0)

/-- `positions`: refuses a book with two tickets on one symbol. -/
def positions (v : σ) : Except String (List Position) :=
  match a.terminal.positionsGet v with
  | none => .error "MT5 position book unavailable"
  | some book =>
      let symbols := book.map Ticket.symbol
      if symbols.Nodup then .ok (book.map a.position)
      else
        let dupes := (symbols.filter fun s => 1 < symbols.count s).dedup.mergeSort
        .error ("multiple tickets on " ++ ", ".intercalate dupes ++
          ": this engine needs a dedicated account with at most one position per symbol")

def broker : ManageVenue σ where
  instruments := a.instruments
  modifyPosition := a.modifyPosition
  closePosition := a.closePosition
  positions := a.positions

end Adapter

/-! ## A terminal that takes every request -/

def Ticket.answer (t : Ticket) : Request → Option Ticket
  | .stops _ position sl tp => some (if t.ticket = position then { t with sl, tp } else t)
  | .deal _ position volume _ _ =>
      if t.ticket ≠ position then some t
      else if t.volume ≤ volume then none
      else some { t with volume := t.volume - volume }

def obliging (quotes : String → Option Quote) : Terminal (List Ticket) where
  positionsGet := some
  symbolInfoTick _ := quotes
  orderSend book request := (some retcodeDone, book.filterMap fun t => t.answer request)

end MetaTrader

def longTicket (sl : Dec) : MetaTrader.Ticket :=
  { symbol := "EUR_USD", ticket := 7, side := .buy, volume := 1, priceOpen := 11 / 10, sl }

def euro : Instrument := { symbol := "EUR_USD", base := "EUR", quote := "USD" }

def obligingMt5 : MetaTrader.Adapter (List MetaTrader.Ticket) where
  terminal := MetaTrader.obliging fun _ => none
  instruments := .ofEntries [("EUR_USD", euro)]

end Sentinel
