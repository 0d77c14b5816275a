import Sentinel.Agent.Manage

/-!
# The book of the paper broker

The paper broker holds the book itself.  Its `modify_position` raises rather
than loosen a stop, its `close_position` scales what is left of a position, and
a fill opens a position, adds to it, or closes it and opens what is left on the
other side.  The cash account and the ledger of closed trades are left out.
-/

namespace Sentinel

namespace Paper

structure Venue where
  positions : Dict String Position
  quotes : Dict String Quote

variable (instruments : Dict String Instrument)

variable (p : Position)

def widening (stop : Dec) : Option String :=
  p.stopLoss.bind fun held =>
    match p.side with
    | .buy => if stop < held then some "refusing to widen a BUY stop downward" else none
    | .sell => if held < stop then some "refusing to widen a SELL stop upward" else none

variable (v : Venue)

/-- `modify_position(instrument, stop_loss=stop)`. -/
def modifyPosition (instrument : String) (stop : Dec) : Except String Bool × Venue :=
  match v.positions.get? instrument with
  | none => (.ok false, v)
  | some p =>
      match instruments.get? instrument with
      | none => (.error instrument, v)
      | some inst =>
          let newStop := inst.roundPrice stop
          match widening p newStop with
          | some refusal => (.error refusal, v)
          | none =>
              (.ok true,
                { v with
                  positions := v.positions.set instrument
                    { p with stopLoss := some newStop, brokerStopConfirmed := true } })

/-- What `_realise` leaves of a position: the remaining lots carry the
remaining risk. -/
def realise (lots : Dec) : Position :=
  let fraction := if 0 < p.lots then lots / p.lots else 1
  { p with
    lots := p.lots - lots
    initialRisk := max 0 (p.initialRisk - p.initialRisk * fraction)
    initialRisk_nonneg := le_max_left _ _ }

def closePosition (instrument : String) (lots : Option Dec) : Except String CloseResult × Venue :=
  match v.positions.get? instrument with
  | none => (.ok { state := .rejected, rejectReason := some "NO_POSITION" }, v)
  | some p =>
      if (v.quotes.get? instrument).isNone then
        (.ok { state := .rejected, rejectReason := some "NO_PRICE" }, v)
      else
        match instruments.get? instrument with
        | none => (.error instrument, v)
        | some inst =>
            let closeLots := (lots.map fun l => inst.roundLotsDown (min l p.lots)).getD p.lots
            if closeLots ≤ 0 then
              (.ok { state := .rejected, rejectReason := some "BELOW_MIN_LOT" }, v)
            else
              let left := realise p closeLots
              (.ok { state := .filled },
                { v with
                  positions :=
                    if left.lots ≤ 0 then v.positions.erase instrument
                    else v.positions.set instrument left })

/-- The position that `lots` of a fill open. -/
def opened (nowNs : ℤ) (intent : OrderIntent) (fill : Fill) (lots : Dec) : Position where
  instrument := intent.instrument
  side := intent.side
  lots := lots
  entryPrice := fill.price
  openedNs := nowNs
  strategy := intent.strategy
  stopLoss := intent.stopLoss
  takeProfit := intent.takeProfit
  brokerStopConfirmed := intent.stopLoss.isSome
  clientOrderId := some intent.clientOrderId
  initialRisk := max 0 (intent.riskAmount * (lots / intent.lots))
  initialRisk_nonneg := le_max_left _ _

def addedTo (intent : OrderIntent) (fill : Fill) : Position :=
  { p with
    entryPrice := (p.entryPrice * p.lots + fill.price * fill.lots) / (p.lots + fill.lots)
    lots := p.lots + fill.lots
    initialRisk := max 0 (p.initialRisk + intent.riskAmount * (fill.lots / intent.lots))
    initialRisk_nonneg := le_max_left _ _
    stopLoss := intent.stopLoss.or p.stopLoss
    takeProfit := intent.takeProfit.or p.takeProfit }

def applyFill (nowNs : ℤ) (v : Venue) (intent : OrderIntent) (fill : Fill) : Venue :=
  let symbol := intent.instrument
  match v.positions.get? symbol with
  | none => { v with positions := v.positions.set symbol (opened nowNs intent fill fill.lots) }
  | some p =>
      if p.side = intent.side then
        { v with positions := v.positions.set symbol (addedTo p intent fill) }
      else
        let closing := min p.lots fill.lots
        let left := realise p closing
        let rest :=
          if left.lots ≤ 0 then v.positions.erase symbol else v.positions.set symbol left
        if 0 < fill.lots - closing then
          { v with
            positions := rest.set symbol (opened nowNs intent fill (fill.lots - closing)) }
        else { v with positions := rest }

def broker : ManageVenue Venue where
  instruments := instruments
  modifyPosition := modifyPosition instruments
  closePosition := closePosition instruments
  positions v := .ok v.positions.values

def holding (symbol : String) : Option (Side × Option Dec) :=
  (v.positions.get? symbol).map fun p => (p.side, p.stopLoss)

/-! ## What a call leaves alone -/

theorem holding_modifyPosition_of_ne {symbol other : String} (stop : Dec)
    (h : other ≠ symbol) :
    holding (modifyPosition instruments v symbol stop).2 other = holding v other := by
  unfold modifyPosition
  split
  · rfl
  · split
    · rfl
    · simp only
      split
      · rfl
      · simp [holding, Dict.get?_set_of_ne _ h]

theorem holding_closePosition (symbol : String) (lots : Option Dec) :
    let v' := (closePosition instruments v symbol lots).2
    (∀ other, other ≠ symbol → holding v' other = holding v other) ∧
      (holding v' symbol = holding v symbol ∨ holding v' symbol = none) := by
  unfold closePosition
  split
  · exact ⟨fun _ _ => rfl, .inl rfl⟩
  · rename_i p hp
    split_ifs
    · exact ⟨fun _ _ => rfl, .inl rfl⟩
    · split
      · exact ⟨fun _ _ => rfl, .inl rfl⟩
      · simp only
        split_ifs
        · exact ⟨fun _ _ => rfl, .inl rfl⟩
        · exact ⟨fun other h => by simp [holding, Dict.get?_erase_of_ne _ h],
            .inr (by simp [holding])⟩
        · exact ⟨fun other h => by simp [holding, Dict.get?_set_of_ne _ h],
            .inl (by simp [holding, hp, realise])⟩

theorem widening_isSome_iff (stop : Dec) :
    (widening p stop).isSome ↔
      ∃ held, p.stopLoss = some held ∧ ¬p.side.AtLeastAsSafe held stop := by
  unfold widening
  cases p.stopLoss with
  | none => simp
  | some held => cases p.side <;> simp [Side.AtLeastAsSafe]

end Paper

end Sentinel
