import Sentinel.Core.Types
import Sentinel.Support.Dict
import Sentinel.Support.Effects

/-!
# The order manager

The state machine between a decision and a venue.  A method is cut where the
source releases its lock or waits for the venue: each piece below runs without
interruption, and the calls built from the pieces are in `Calls`.  What the
venue answers is an argument of the piece that consumes it.  Latency and the
quality statistics are not modelled.
-/

namespace Sentinel

/-- `SubmitResult`: the outcome of one submission or query. -/
structure SubmitResult where
  state : OrderState
  venueOrderId : Option String := none
  fills : List Fill := []
  rejectReason : Option String := none
  stopConfirmed : Bool := true

/-- How `broker.submit` ends: it returns, or raises in one of the families the
order manager tells apart. -/
inductive SubmitOutcome where
  | returned (result : SubmitResult)
  | unknownOutcome (message : String)
  | transient (message : String)
  | permanent (message : String)
  | brokerError (message : String)
  | otherError (message : String)

/-- How `broker.query_order` ends. -/
inductive QueryOutcome where
  | returned (result : SubmitResult)
  | notFound
  | brokerError (message : String)
  | otherError (message : String)

/-- What the broker answers while a result is applied: the instrument, needed
for a slippage in pips, and `modify_position`, `none` when it raises. -/
structure ApplyReplies where
  instrument : Option Instrument := none
  modifyPosition : Option Bool := none

/-- The exceptions a caller of the order manager can see. -/
inductive OmsError where
  | quarantined (instrument : String)
  | illegalTransition (old new : OrderState)
  | unknownInstrument (instrument : String)
  | brokerRaised (message : String)
  deriving DecidableEq

structure JournalEntry where
  event : EventType
  clientOrderId : Option String
  deriving DecidableEq

/-- `LEGAL`: the states a state may move to. -/
def legal : OrderState → List OrderState
  | .pending => [.sent, .rejected, .cancelled]
  | .sent => [.acked, .filled, .partlyFilled, .rejected, .unknown, .cancelled]
  | .acked => [.partlyFilled, .filled, .cancelled, .rejected, .unknown]
  | .partlyFilled => [.filled, .cancelled, .unknown]
  | .unknown => [.filled, .partlyFilled, .rejected, .cancelled]
  | .filled => []
  | .rejected => []
  | .cancelled => []

structure OrderManager where
  supportsClientOrderId : Bool
  maxRetries : ℕ
  maxSlippagePips : Option Dec
  orders : Dict String Order
  quarantine : List String
  journal : List JournalEntry
  slippageBreaches : ℕ

/-- `OrderManager.__init__`: without client order ids the retry budget is
forced to zero, and the degradation is journalled. -/
def OrderManager.new (supportsClientOrderId : Bool) (maxRetries : ℕ)
    (maxSlippagePips : Option Dec) : OrderManager :=
  let degraded := !supportsClientOrderId && decide (0 < maxRetries)
  { supportsClientOrderId
    maxRetries := if degraded then 0 else maxRetries
    maxSlippagePips
    orders := .empty
    quarantine := []
    journal := if degraded then [⟨.orderIntent, none⟩] else []
    slippageBreaches := 0 }

abbrev OmsM := EStateM OmsError OrderManager

namespace OrderManager

def order? (om : OrderManager) (c : String) : Option Order := om.orders.get? c

def unresolved (om : OrderManager) : List Order :=
  om.orders.values.filter fun o => o.state = .unknown

def pendingRisk (om : OrderManager) : Dec :=
  ((om.orders.values.filter fun o =>
      o.state ∈ [.sent, .acked, .partlyFilled, .unknown]).map
    fun o => o.intent.riskAmount).sum

/-! ## Primitive writes -/

def journalEvent (event : EventType) (c : Option String) : OmsM Unit :=
  modify fun om => { om with journal := om.journal ++ [⟨event, c⟩] }

variable (c : String) (intent : OrderIntent)

def modifyOrder (f : Order → Order) : OmsM Unit :=
  modify fun om => { om with orders := om.orders.adjust c f }

variable (instrument : String)

/-- `_quarantine.add`. -/
def addQuarantine : OmsM Unit :=
  modify fun om =>
    { om with
      quarantine :=
        if instrument ∈ om.quarantine then om.quarantine
        else om.quarantine ++ [instrument] }

/-- `_quarantine.discard`. -/
def discardQuarantine : OmsM Unit :=
  modify fun om =>
    { om with quarantine := om.quarantine.filter fun i => i ≠ instrument }

def transition (new : OrderState) : OmsM Unit := do
  let om ← get
  match om.order? c with
  | none => pure ()
  | some order =>
      if new = order.state then pure ()
      else if new ∈ legal order.state then
        modifyOrder c fun o => { o with state := new }
      else
        journalEvent .orderUnknown (some c)
        throw (.illegalTransition order.state new)

def markUnknown : OmsM Unit := do
  transition c .unknown
  addQuarantine instrument

/-! ## `_apply_result` -/

def alreadyApplied (o : Order) (fill : Fill) : Bool :=
  o.fills.any fun f =>
    decide (f.venueOrderId = fill.venueOrderId ∧ f.lots = fill.lots ∧ f.price = fill.price)

/-- `slip`, in pips, positive when it cost us. -/
def slippage (decisionPrice : Option Dec)
    (replies : ApplyReplies) (fill : Fill) : Except OmsError Dec :=
  match decisionPrice with
  | none => .ok fill.slippagePips
  | some price =>
      match replies.instrument with
      | none => .error (.unknownInstrument intent.instrument)
      | some inst => .ok ((fill.price - price) / inst.pip * intent.side.sign)

/-- One round of the loop over `result.fills`. -/
def applyFill (decisionPrice : Option Dec) (replies : ApplyReplies) (fill : Fill) : OmsM Unit := do
  let om ← get
  match om.order? c with
  | none => pure ()
  | some order =>
      if alreadyApplied order fill then pure ()
      else
        modifyOrder c fun o => { o with fills := o.fills ++ [fill] }
        match slippage intent decisionPrice replies fill with
        | .error e => throw e
        | .ok slip =>
            journalEvent .orderFilled (some c)
            if om.maxSlippagePips.any fun tolerance => decide (tolerance < slip) then
              modify fun om => { om with slippageBreaches := om.slippageBreaches + 1 }
              journalEvent .limitBreach (some c)

/-- `target`: the state a result that is neither a rejection nor unknown
moves the order to. -/
def appliedTarget : OrderState → OrderState
  | .filled => .filled
  | .partlyFilled => .partlyFilled
  | _ => .acked

def reassertStop (replies : ApplyReplies) : OmsM Unit := do
  modifyOrder c fun o => { o with stopConfirmed := false }
  journalEvent .reconcileMismatch (some c)
  if replies.modifyPosition = none then
    journalEvent .reconcileMismatch (some c)
  let reasserted := replies.modifyPosition = some true
  modifyOrder c fun o => { o with stopConfirmed := reasserted }
  if ¬reasserted then
    addQuarantine intent.instrument
    journalEvent .halt none

/-- The part of `_apply_result` after the fills were recorded. -/
def finishResult (result : SubmitResult) (replies : ApplyReplies) : OmsM Unit := do
  let om ← get
  let target := appliedTarget result.state
  let unfilled := (om.order? c).all fun o => o.fills.isEmpty
  if target ≠ .acked ∧ unfilled then
    -- a fill report without a fill: the filled size is unknown
    markUnknown c intent.instrument
    journalEvent .orderUnknown (some c)
  else
    if target ≠ .acked ∧ ¬result.stopConfirmed ∧ intent.stopLoss ≠ none then
      reassertStop c intent replies
    transition c target
    if target ≠ .acked then
      journalEvent .orderAck (some c)

def applyResult (result : SubmitResult)
    (decisionPrice : Option Dec) (replies : ApplyReplies) : OmsM Unit := do
  modifyOrder c fun o =>
    { o with venueOrderId := result.venueOrderId.or o.venueOrderId }
  if result.state = .rejected then
    transition c .rejected
    modifyOrder c fun o => { o with rejectReason := result.rejectReason }
    journalEvent .orderRejected (some c)
  else if result.state = .unknown then
    markUnknown c intent.instrument
    journalEvent .orderUnknown (some c)
  else
    result.fills.forM (applyFill c intent decisionPrice replies)
    finishResult c intent result replies

/-! ## `submit`, piece by piece -/

/-- How the first lock block of `submit` ends. -/
inductive Admission where
  | fresh
  | duplicate
  deriving DecidableEq

def register : OmsM Admission := do
  let om ← get
  if intent.instrument ∈ om.quarantine then
    throw (.quarantined intent.instrument)
  else if (om.order? intent.clientOrderId).isSome then
    journalEvent .orderDuplicateBlocked (some intent.clientOrderId)
    pure .duplicate
  else
    modify fun om =>
      { om with orders := om.orders.set intent.clientOrderId { intent } }
    -- the intent is journalled before the socket is written
    journalEvent .orderIntent (some intent.clientOrderId)
    pure .fresh

/-- One pass of `while attempt <= self.max_retries` up to the socket. -/
def beginAttempt (attempt : ℕ) : OmsM Unit := do
  modifyOrder c fun o => { o with attempts := attempt }
  transition c .sent
  journalEvent .orderSent (some c)

def exhausted : OmsM Unit := do
  markUnknown c instrument
  journalEvent .orderUnknown (some c)

/-- The branch for `PermanentError`. -/
def rejectPermanently (c message : String) : OmsM Unit := do
  transition c .rejected
  modifyOrder c fun o => { o with rejectReason := some message }
  journalEvent .orderRejected (some c)

/-- The branch for `UnknownOutcomeError`, up to the query. -/
def quarantineUnknown (c instrument message : String) : OmsM Unit := do
  markUnknown c instrument
  modifyOrder c fun o => { o with lastError := some message }
  journalEvent .orderUnknown (some c)

def noteError (c message : String) : OmsM Unit :=
  modifyOrder c fun o => { o with lastError := some message }

/-! ## `resolve_unknown`, piece by piece -/

def toResolve : OmsM (Option Order) := do
  let om ← get
  pure ((om.order? c).filter fun o => o.state = .unknown)

def liftQuarantine : OmsM Unit := do
  let om ← get
  match om.order? c with
  | none => pure ()
  | some order =>
      if order.state.terminal then discardQuarantine order.intent.instrument
      journalEvent .reconcile (some c)

/-- `release_quarantine`: a human lifts a quarantine by hand. -/
def releaseQuarantine : OmsM Unit := do
  let om ← get
  if instrument ∈ om.quarantine then
    discardQuarantine instrument
    journalEvent .reconcile none

end OrderManager

end Sentinel
