import Sentinel.Core.Money

/-!
# Domain types shared by every layer

Records carry the checks of their `__post_init__` as fields, so a crossed
quote or an order without size cannot be written down.  Timestamps are integer
nanoseconds.
-/

namespace Sentinel

inductive Side where
  | buy
  | sell
  deriving DecidableEq

def Side.sign : Side → Dec
  | .buy => 1
  | .sell => -1

def Side.opposite : Side → Side
  | .buy => .sell
  | .sell => .buy

inductive OrderType where
  | market
  | limit
  | stop
  deriving DecidableEq

/-- `OrderType.value`. -/
def OrderType.value : OrderType → String
  | .market => "market"
  | .limit => "limit"
  | .stop => "stop"

/-- The explicit order state machine; `unknown` is a first-class state. -/
inductive OrderState where
  | pending
  | sent
  | acked
  | partlyFilled
  | filled
  | rejected
  | cancelled
  | unknown
  deriving DecidableEq

def OrderState.terminal : OrderState → Bool
  | .filled | .rejected | .cancelled => true
  | _ => false

inductive DataQuality where
  | ok
  | stale
  | gap
  | suspect
  deriving DecidableEq

structure Quote where
  instrument : String
  bid : Dec
  ask : Dec
  bid_le_ask : bid ≤ ask := by norm_num

namespace Quote

variable (q : Quote)

def mid : Dec := (q.bid + q.ask) / 2

def spread : Dec := q.ask - q.bid

def spreadPips (inst : Instrument) : Dec := q.spread / inst.pip

def priceFor : Side → Dec
  | .buy => q.ask
  | .sell => q.bid

theorem spreadPips_nonneg (inst : Instrument) : 0 ≤ q.spreadPips inst :=
  div_nonneg (sub_nonneg.2 q.bid_le_ask) inst.pip_pos.le

end Quote

/-- The arguments of `OrderIntent(...)`. -/
structure IntentFields where
  clientOrderId : String
  strategy : String
  instrument : String
  side : Side
  lots : Dec
  orderType : OrderType := .market
  limitPrice : Option Dec := none
  stopLoss : Option Dec := none
  takeProfit : Option Dec := none
  decisionNs : ℤ := 0
  riskAmount : Dec := 0
  riskPct : Dec := 0
  expectedCostPips : Dec := 0
  /-- `metadata`: the horizon in bars and the timeframe it is counted in. -/
  horizon : Option (ℕ × String) := none
  deriving DecidableEq

def IntentFields.StopBeyondTarget (f : IntentFields) : Prop :=
  ∀ stop ∈ f.stopLoss, ∀ target ∈ f.takeProfit,
    match f.side with
    | .buy => stop < target
    | .sell => target < stop

instance (f : IntentFields) : Decidable f.StopBeyondTarget := by
  unfold IntentFields.StopBeyondTarget
  cases f.side <;> exact inferInstance

/-- `OrderIntent.__post_init__`: the first check that fails, if one does. -/
def IntentFields.postInit (f : IntentFields) : Except ValueError Unit :=
  if f.lots ≤ 0 then .error ⟨"order lots must be positive"⟩
  else if f.orderType = .market ∧ f.limitPrice ≠ none then
    .error ⟨"market order must not carry a limit price"⟩
  else if f.orderType ≠ .market ∧ f.limitPrice = none then
    .error ⟨f.orderType.value ++ " order requires a price"⟩
  else if f.StopBeyondTarget then .ok ()
  else match f.side with
    | .buy => .error ⟨"BUY: stop must sit below target"⟩
    | .sell => .error ⟨"SELL: stop must sit above target"⟩

/-- A fully specified instruction that passed its own validation. -/
structure OrderIntent extends IntentFields where
  accepted : toIntentFields.postInit = .ok ()

namespace OrderIntent

def ofFields (f : IntentFields) : Except ValueError OrderIntent :=
  match h : f.postInit with
  | .ok () => .ok ⟨f, h⟩
  | .error e => .error e

theorem fields_of_ofFields {f : IntentFields} {i : OrderIntent} (h : ofFields f = .ok i) :
    i.toIntentFields = f := by
  unfold ofFields at h
  split at h
  · rw [← Except.ok.inj h]
  · cases h

theorem lots_pos (i : OrderIntent) : 0 < i.lots := by
  have h := i.accepted
  by_contra hle
  rw [IntentFields.postInit, if_pos (not_lt.1 hle)] at h
  cases h

theorem postInit_withLots {f : IntentFields} (h : f.postInit = .ok ())
    {lots : Dec} (hlots : 0 < lots) :
    { f with lots := lots }.postInit = .ok () := by
  unfold IntentFields.postInit at h ⊢
  rw [if_neg (not_le.2 hlots)]
  by_cases hle : f.lots ≤ 0
  · rw [if_pos hle] at h
    cases h
  · rw [if_neg hle] at h
    exact h

/-- `intent.lots`, `intent.risk_amount`, `intent.risk_pct` and
`intent.expected_cost_pips` as assigned once the engine has approved a size. -/
def sized (i : OrderIntent) (lots riskAmount riskPct expectedCostPips : Dec)
    (hlots : 0 < lots) : OrderIntent where
  toIntentFields :=
    { i.toIntentFields with
      lots := lots, riskAmount := riskAmount, riskPct := riskPct,
      expectedCostPips := expectedCostPips }
  accepted := postInit_withLots i.accepted hlots

end OrderIntent

structure Fill where
  venueOrderId : String
  lots : Dec
  price : Dec
  slippagePips : Dec := 0
  deriving DecidableEq

structure Order where
  intent : OrderIntent
  state : OrderState := .pending
  /-- `false` when the venue filled the order but refused the protective stop. -/
  stopConfirmed : Bool := true
  venueOrderId : Option String := none
  fills : List Fill := []
  rejectReason : Option String := none
  attempts : ℕ := 0
  lastError : Option String := none

namespace Order

def filledLots (o : Order) : Dec := (o.fills.map Fill.lots).sum

def avgFillPrice (o : Order) : Option Dec :=
  let total := o.filledLots
  if total ≤ 0 then none
  else some ((o.fills.map fun f => f.price * f.lots).sum / total)

end Order

theorem noRisk_nonneg : (0 : Dec) ≤ 0 := le_rfl

/-- An open position as the venue and the agent's own metadata describe it.
Its recorded risk is a size, never negative; zero means it is not known. -/
structure Position where
  instrument : String
  side : Side
  lots : Dec
  entryPrice : Dec
  openedNs : ℤ := 0
  strategy : String := ""
  stopLoss : Option Dec := none
  takeProfit : Option Dec := none
  brokerStopConfirmed : Bool := false
  clientOrderId : Option String := none
  initialRisk : Dec := 0
  maxFavourable : Dec := 0
  maxAdverse : Dec := 0
  scaledOut : Bool := false
  breakevenMoved : Bool := false
  initialRisk_nonneg : 0 ≤ initialRisk := by first | with_reducible exact noRisk_nonneg | norm_num

def Position.unrealised (p : Position) (quote : Quote) (inst : Instrument)
    (quoteToAccount : Dec) : Dec :=
  (quote.priceFor p.side.opposite - p.entryPrice) * p.side.sign * inst.units p.lots *
    quoteToAccount

def Position.rMultiple (p : Position) (quote : Quote) (inst : Instrument)
    (quoteToAccount : Dec) : Option Dec :=
  if p.initialRisk ≤ 0 then none
  else some (p.unrealised quote inst quoteToAccount / p.initialRisk)

structure AccountState where
  accountId : String
  currency : String
  balance : Dec
  equity : Dec
  marginUsed : Dec := 0
  marginAvailable : Dec := 0

def AccountState.marginLevelPct (a : AccountState) : Option Dec :=
  if a.marginUsed ≤ 0 then none else some (a.equity / a.marginUsed * 100)

inductive EventType where
  | systemStart
  | orderIntent
  | orderSent
  | orderAck
  | orderFilled
  | orderRejected
  | orderCancelled
  | orderUnknown
  | orderDuplicateBlocked
  | limitBreach
  | halt
  | reconcile
  | reconcileMismatch
  deriving DecidableEq

/-- `EventType.value`. -/
def EventType.value : EventType → String
  | .systemStart => "system.start"
  | .orderIntent => "order.intent"
  | .orderSent => "order.sent"
  | .orderAck => "order.ack"
  | .orderFilled => "order.filled"
  | .orderRejected => "order.rejected"
  | .orderCancelled => "order.cancelled"
  | .orderUnknown => "order.unknown"
  | .orderDuplicateBlocked => "order.duplicate_blocked"
  | .limitBreach => "risk.limit_breach"
  | .halt => "risk.halt"
  | .reconcile => "ops.reconcile"
  | .reconcileMismatch => "ops.reconcile_mismatch"

end Sentinel
