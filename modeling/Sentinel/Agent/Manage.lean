import Sentinel.Agent.State
import Sentinel.Risk.Protect

/-!
# Managing open positions

One call of `_manage_positions`: the profit lock over the whole book, and then
for each position the time-based exits and the protection rules.  The venue is
a state `σ` with the methods the agent calls.  Positions are a snapshot: what
the call itself changes at the venue is not read back into them.  Journal
records and the list the call returns for the report are left out.
-/

namespace Sentinel

/-- What `close_position` returns. -/
structure CloseResult where
  state : OrderState
  rejectReason : Option String := none

/-- The methods of `Broker` that position management uses; an exception is its
text. -/
structure ManageVenue (σ : Type) where
  instruments : Dict String Instrument
  /-- `modify_position(instrument, stop_loss=stop)` -/
  modifyPosition : σ → String → Dec → Except String Bool × σ
  /-- `close_position(instrument, lots)` -/
  closePosition : σ → String → Option Dec → Except String CloseResult × σ
  positions : σ → Except String (List Position)

structure ManageInput where
  nowNs : ℤ
  nyOffset : ℤ → ℤ
  /-- `snap.quotes.get` -/
  quote : String → Option Quote
  /-- `ctx.conversion` of a quote currency -/
  conversion : String → Option Dec
  dayPnl : Dec
  dayPnlPct : Dec
  /-- the last value of the ATR on the timeframe of the position's strategy -/
  atr : Position → Option Dec
  /-- `_cost_model` -/
  costModel : String → Option CostModel

/-- The agent and the venue. -/
structure Desk (σ : Type) where
  agent : Agent
  venue : σ

namespace Agent

/-- `_position_meta.setdefault(symbol, {})` and an update of the entry. -/
def updateMeta (a : Agent) (symbol : String) (f : PositionMeta → PositionMeta) : Agent :=
  { a with
    positionMeta := a.positionMeta.set symbol (f ((a.positionMeta.get? symbol).getD .empty)) }

/-- `_track_excursion`: the best and the worst R of the position. -/
def trackExcursion (a : Agent) (p : Position) (quote : Quote) (inst : Instrument)
    (conversion : Dec) : Agent × Position :=
  match p.rMultiple quote inst conversion with
  | none => (a, p)
  | some r =>
      let held := (a.positionMeta.get? p.instrument).getD .empty
      let best := max (max (held.maxFavourable.getD 0) r) p.maxFavourable
      let worst := min (min (held.maxAdverse.getD 0) r) p.maxAdverse
      let changed := best ≠ held.maxFavourable.getD 0 ∨ worst ≠ held.maxAdverse.getD 0
      (a.updateMeta p.instrument fun m =>
          if changed then { m with maxFavourable := some best, maxAdverse := some worst } else m,
        { p with maxFavourable := best, maxAdverse := worst })

def maxHoldSec (a : Agent) (cfg : ProtectConfig) (p : Position) : ℤ :=
  if 0 < cfg.maxHoldSec then cfg.maxHoldSec
  else ((a.positionMeta.get? p.instrument).bind PositionMeta.maxHoldSec).getD 0

end Agent

section Venue

variable {σ : Type} (broker : ManageVenue σ) (cfg : ProtectConfig) (input : ManageInput)

def pricing (p : Position) : Option (Instrument × Quote × Dec) := do
  let inst ← broker.instruments.get? p.instrument
  let quote ← input.quote p.instrument
  let conversion ← input.conversion inst.quote
  if conversion ≤ 0 then none else some (inst, quote, conversion)

/-! ## `_apply_profit_lock` -/

/-- The stop that gives back `perPosition` at most, when it would tighten the
one there is. -/
def profitLockStop (perPosition : Dec) (p : Position) : Option Dec := do
  let (inst, quote, conversion) ← pricing broker input p
  let unreal := p.unrealised quote inst conversion
  let floorValue := unreal - perPosition
  let pipVal := inst.pipValueQuote p.lots * conversion
  if pipVal ≤ 0 then none
  else
    let ref := quote.priceFor p.side.opposite
    let distance := (unreal - floorValue) / pipVal * inst.pip
    let candidate := inst.roundPrice (ref - distance * p.side.sign)
    if ¬tighter p.side p.stopLoss candidate then none
    -- would be a market close
    else if beyond p.side ref candidate then none
    else some candidate

def profitLockOne (perPosition : Dec) (d : Desk σ) (p : Position) : Desk σ :=
  match profitLockStop broker input perPosition p with
  | none => d
  | some candidate =>
      match broker.modifyPosition d.venue p.instrument candidate with
      | (.ok true, venue) =>
          { venue
            agent := d.agent.updateMeta p.instrument fun m =>
              { m with stopLoss := some (some candidate) } }
      | (_, venue) => { d with venue }

def profitLockEngaged (a : Agent) : Bool :=
  decide (0 < cfg.dailyProfitLockPct ∧
    (cfg.dailyProfitLockPct ≤ input.dayPnlPct ∨ a.dayProfitLocked = true))

def giveBackShare (positions : List Position) : Dec :=
  (input.dayPnl - input.dayPnl * cfg.profitLockKeepFraction) /
    (positions.filter fun p => 0 < p.lots).length

variable (d : Desk σ)

def applyProfitLock (positions : List Position) : Desk σ :=
  if profitLockEngaged cfg input d.agent then
    (positions.filter fun p => 0 < p.lots).foldl
      (profitLockOne broker input (giveBackShare cfg input positions))
      { d with agent := { d.agent with dayProfitLocked := true } }
  else d

/-! ## `_close` -/

/-- `_close`, with what it returns. -/
def closeWhole (p : Position) : Desk σ × Bool :=
  match broker.closePosition d.venue p.instrument none with
  | (.error error, venue) =>
      ({ venue
         agent := d.agent.halt ("could not close " ++ p.instrument ++ " (" ++ error ++
           "); a position the agent cannot exit is not a position it may leave unattended") },
        false)
  | (.ok result, venue) =>
      if result.state = .filled ∨ result.state = .partlyFilled then
        -- a book that cannot be read counts as empty
        let remaining :=
          match broker.positions venue with
          | .error _ => []
          | .ok book => book.filter fun q => q.instrument = p.instrument
        if remaining ≠ [] then
          ({ venue
             agent := d.agent.halt (p.instrument ++ " closed only partially; the residual " ++
               "position needs a human before any new risk") },
            false)
        else
          ({ venue
             agent := { d.agent with positionMeta := d.agent.positionMeta.erase p.instrument } },
            true)
      else
        ({ venue
           agent := d.agent.halt (p.instrument ++ " could not be closed (" ++
             result.rejectReason.getD "None" ++ "); the position is still open and the reason " ++
               "needs a human") },
          false)

/-! ## `_manage_positions` -/

def stopMoved (rule : ProtectRule) (stop : Dec) (m : PositionMeta) : PositionMeta :=
  { m with
    -- only the break-even rule sets its flag
    breakevenMoved := if rule = .breakeven then some true else m.breakevenMoved
    stopLoss := some (some stop) }

/-- The entry after a partial take of `lots`. -/
def partialTaken (p : Position) (lots : Dec) (m : PositionMeta) : PositionMeta :=
  { m with
    partialTaken := some true
    initialRisk :=
      if 0 < p.lots - lots ∧ 0 < p.initialRisk then
        some (p.initialRisk * (p.lots - lots) / p.lots)
      else m.initialRisk }

def applyInstruction (p : Position) (d : Desk σ) (i : ProtectInstruction) : Desk σ :=
  let agent := d.agent.updateMeta p.instrument id
  match i.action with
  | .moveStop stop =>
      match broker.modifyPosition d.venue p.instrument stop with
      | (.ok true, venue) =>
          { venue, agent := agent.updateMeta p.instrument (stopMoved i.rule stop) }
      | (_, venue) => { agent, venue }
  | .partialClose lots =>
      if lots = 0 then { d with agent }
      else
        match broker.closePosition d.venue p.instrument (some lots) with
        | (.ok result, venue) =>
            if result.state = .filled ∨ result.state = .partlyFilled then
              { venue, agent := agent.updateMeta p.instrument (partialTaken p lots) }
            else { agent, venue }
        | (.error _, venue) => { agent, venue }
  | .close => (closeWhole broker { d with agent } p).1

def protections (inst : Instrument) (quote : Quote) (conversion : Dec) (p : Position) :
    List ProtectInstruction :=
  evaluateProtection cfg p quote inst (input.atr p) conversion (input.costModel p.instrument)

def timedExit (a : Agent) (p : Position) : Option ProtectInstruction :=
  let weekend :=
    if cfg.weekendFlat then weekendFlat input.nowNs cfg.fridayCloseUtcHour input.nyOffset
    else none
  weekend.or (timeStop p input.nowNs (a.maxHoldSec cfg p))

def manageOne (p : Position) : Desk σ :=
  if (broker.instruments.get? p.instrument).isNone ∨ (input.quote p.instrument).isNone then d
  else if (timedExit cfg input d.agent p).isSome then (closeWhole broker d p).1
  else
    match pricing broker input p with
    | none => d
    | some (inst, quote, conversion) =>
        let tracked := d.agent.trackExcursion p quote inst conversion
        (protections cfg input inst quote conversion tracked.2).foldl
          (applyInstruction broker tracked.2) { d with agent := tracked.1 }

def managePositions (positions : List Position) : Desk σ :=
  positions.foldl (manageOne broker cfg input)
    (applyProfitLock broker cfg input d positions)

end Venue

end Sentinel
