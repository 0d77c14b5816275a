import Sentinel.Agent.Context
import Sentinel.Agent.Entry
import Sentinel.Execution.Submit

/-!
# The three entry paths

An order reaches `oms.submit` from a signal inside a cycle, from a proposal
that a human accepts, or from a human's own ticket.  A call leaves a trace:
the contexts it built, what the licence gate answered, and the orders it sent.
A read of the venue that raises ends the call; the inputs of a call end where
it ends.
-/

namespace Sentinel

/-! ## The gates -/

inductive GateAnswer where
  /-- no gate is wired -/
  | absent
  | raised
  | answered (allowed : Bool)

def entryPermission (mode : ExecutionVenueMode) (gate : GateAnswer) : Bool :=
  match mode, gate with
  | .live, .raised => false
  | .live, .answered allowed => allowed
  | _, _ => true

variable (d : EntryDesk) (s : EntrySettings)

def inSession (nowNs : ℤ) : Bool :=
  let hour := nowNs / 3600000000000 % 24
  decide ((utcDays nowNs + 3) % 7 ∈ s.tradeDays) &&
    s.sessionWindowsUtc.any fun window => decide (window.1 ≤ hour ∧ hour < window.2)

def canTrade (lifecycle : Lifecycle) (liveMoney : Bool) : Bool :=
  if liveMoney then lifecycle = .accepted
  else lifecycle ∈ [.hypothesis, .experimental, .accepted]

def activeInstruments : List String :=
  let declared := (s.strategies.filter fun a => a.enabled).flatMap fun a => a.instruments
  sortedNames (if declared.isEmpty then s.envelopeInstruments else declared).dedup

/-! ## Caution and size -/

structure CautionInputs where
  /-- `memory.caution_multiplier` -/
  lessons : Dec := 1
  /-- `brain.strategy_layers`, `none` without a brain or when it raises -/
  layers : Option Dec := none

def shrinkBy (caution : Dec) (multiplier : Option Dec) : Dec :=
  match multiplier with
  | none => caution
  | some m => if m < 1 then min caution m else caution

def EntryDesk.cautionFor (d : EntryDesk) (x : CautionInputs) (instrument : String) : Dec :=
  let news := shrinkBy x.lessons ((d.news.get? instrument).map NewsAssessment.sizeMultiplier)
  let reference :=
    match d.checks.get? instrument with
    | none => news
    | some c => if c.status = .shrink then min news c.sizeMultiplier else news
  max 0 (min 1 (shrinkBy reference x.layers))

def sizeOrder (inst : Instrument) (intent : OrderIntent) (verdict : RiskDecision)
    (caution : Dec) : Option OrderIntent :=
  let lots := inst.roundLotsDown (verdict.approvedLots * caution)
  if h : inst.minLot ≤ lots then
    some (intent.sized lots (verdict.riskAmount * caution) (verdict.riskPct * caution)
      verdict.expectedCostPips (inst.minLot_pos.trans_le h))
  else none

/-- An order for `oms.submit`, with what it rests on. -/
structure ReadyOrder where
  ctx : RiskContext
  /-- the intent the engine judged -/
  judged : OrderIntent
  verdict : RiskDecision
  caution : Dec
  intent : OrderIntent
  decisionPrice : Dec

def readyOrder (ctx : RiskContext) (inst : Instrument) (quote : Quote) (judged : OrderIntent)
    (verdict : RiskDecision) (caution : Dec) : Option ReadyOrder :=
  if verdict.approved then
    (sizeOrder inst judged verdict caution).map fun intent =>
      { ctx, judged, verdict, caution, intent, decisionPrice := quote.priceFor judged.side }
  else none

/-! ## Sending -/

/-- What the outside answers when an order is sent: the gates at that moment,
the venue, and what `_execute` reads. -/
structure SendInputs where
  killEngaged : Bool := false
  licence : GateAnswer := .absent
  replies : ℕ → Reply
  entry : EntryContext

/-- How `_execute` ends. -/
inductive SendAnswer where
  | returned (state : OrderState)
  | quarantined
  | raised

/-- `_execute`: `oms.submit`, and the record of what it returned. -/
def EntryDesk.send (d : EntryDesk) (order : ReadyOrder) (x : SendInputs) :
    EntryDesk × SendAnswer :=
  match (OrderManager.submit order.intent (some order.decisionPrice) x.replies).run d.oms with
  | .ok (some sent) oms =>
      ({ d with agent := d.agent.record x.entry order.intent sent, oms }, .returned sent.state)
  | .ok none oms => ({ d with oms }, .raised)
  | .error (.quarantined _) oms => ({ d with oms }, .quarantined)
  | .error _ oms => ({ d with oms }, .raised)

/-- A call of `oms.submit`: the order, and the gates at that moment. -/
structure Submission where
  order : ReadyOrder
  halted : Bool
  killEngaged : Bool
  permitted : Bool

/-- What a call leaves behind. -/
inductive EntryEvent where
  | built (ctx : RiskContext)
  | asked (permitted : Bool)
  | submitted (x : Submission)

def EntryDesk.submission (order : ReadyOrder)
    (x : SendInputs) : Submission where
  order
  halted := d.agent.halted
  killEngaged := x.killEngaged
  permitted := entryPermission s.venueMode x.licence

/-! ## The agent's own signals -/

structure Signal where
  strategy : String
  instrument : String
  side : Side
  stopPrice : Dec
  targetPrice : Option Dec := none
  decisionNs : ℤ := 0
  horizonBars : ℕ := 0
  timeframe : String := "H1"

structure Candidate where
  signal : Signal
  /-- `client_order_id(...)` -/
  clientOrderId : String
  caution : CautionInputs := {}
  /-- the similar situations and the macro layers -/
  similarity : Option Dec := none
  macroLayers : Option Dec := none
  /-- the meta-label filter: whether to act, and its scale -/
  metaFilter : Option (Bool × Dec) := none
  send : SendInputs
  /-- `now()` and the answers when the context is built again -/
  refreshNs : ℤ
  refreshed : Surroundings

/-- The caution of a signal, `none` when the filter skips it. -/
def EntryDesk.signalCaution (d : EntryDesk) (c : Candidate) : Option Dec :=
  let layered :=
    shrinkBy (shrinkBy (d.cautionFor c.caution c.signal.instrument) c.similarity) c.macroLayers
  match c.metaFilter with
  | none => some layered
  | some (act, scale) =>
      if !act then none
      else some (if scale < 1 then min layered (max 0 scale) else layered)

def Signal.intentFields (signal : Signal) (inst : Instrument) (clientOrderId : String) :
    IntentFields where
  clientOrderId
  strategy := signal.strategy
  instrument := signal.instrument
  side := signal.side
  lots := inst.minLot
  stopLoss := some (inst.roundPrice signal.stopPrice)
  takeProfit := (signal.targetPrice.filter fun target => target ≠ 0).map inst.roundPrice
  decisionNs := signal.decisionNs
  horizon := if signal.horizonBars = 0 then none else some (signal.horizonBars, signal.timeframe)

def withinEnvelope (intent : OrderIntent) : Bool :=
  decide (intent.instrument ∈ s.envelopeInstruments ∧ intent.lots ≤ s.envelopeMaxLots ∧
    intent.riskPct ≤ s.envelopeMaxRiskPct)

def ReadyOrder.proposal (order : ReadyOrder) : Proposal where
  clientOrderId := order.intent.clientOrderId
  strategy := order.intent.strategy
  instrument := order.intent.instrument
  side := order.intent.side
  lots := some order.intent.lots
  stop := order.intent.stopLoss
  target := order.intent.takeProfit
  tsNs := order.intent.decisionNs
  horizon := order.intent.horizon
  cautionMultiplier := quantize order.caution (1 / 10000)

def EntryDesk.enqueue (d : EntryDesk) (p : Proposal) : EntryDesk :=
  let queue := (d.queue.filter fun q => q.clientOrderId ≠ p.clientOrderId) ++ [p]
  { d with queue := queue.drop (queue.length - 500) }

/-- `self.halt` when the verdict is halting; the rules in the text of the
reason are left out. -/
def EntryDesk.haltFor (d : EntryDesk) (verdict : RiskDecision) : EntryDesk :=
  if verdict.halting then { d with agent := d.agent.halt "risk engine halt" } else d

def EntryDesk.release (order : ReadyOrder) : EntryDesk × Option ReadyOrder :=
  match s.mode with
  | .observe => (d, none)
  | .advisory => (d.enqueue order.proposal, none)
  | .semiAuto =>
      if withinEnvelope s order.intent then (d, some order)
      else (d.enqueue order.proposal, none)
  | .autonomous => (d, some order)

/-- `_act_on_signal`, up to `_execute`. -/
def EntryDesk.actOnSignal (ctx : RiskContext)
    (c : Candidate) : Except ValueError (EntryDesk × Option ReadyOrder) :=
  match ctx.instruments.get? c.signal.instrument, ctx.quotes.get? c.signal.instrument,
      d.signalCaution c with
  | some inst, some quote, some caution =>
      match OrderIntent.ofFields (c.signal.intentFields inst c.clientOrderId) with
      | .error _ => .ok (d, none)
      | .ok intent => do
          let verdict ← evaluateEntry s.risk intent.toIntentFields ctx
          let d := d.haltFor verdict
          match readyOrder ctx inst quote intent verdict caution with
          | none => .ok (d, none)
          | some order => .ok (d.release s order)
  | _, _, _ => .ok (d, none)

structure EntryLoop where
  desk : EntryDesk
  ctx : RiskContext
  events : List EntryEvent := []
  raised : Bool := false

structure CycleArgs where
  snap : FeedSnapshot
  correlations : Dict (String × String) Dec
  blockingAlarms : List VetoRule

/-- `refresh`: an order reached the venue, so the context is built again. -/
def EntryLoop.refresh (st : EntryLoop) (s : EntrySettings) (args : CycleArgs) (c : Candidate) :
    EntryLoop :=
  let (agent, positions) := st.desk.agent.hydrate c.refreshed.positions
  let (desk, ctx) := { st.desk with agent }.buildContext s c.refreshed
    { nowNs := c.refreshNs, positions, snap := args.snap, correlations := args.correlations
      blockingAlarms := args.blockingAlarms }
  { st with desk, ctx, events := st.events ++ [.built ctx] }

def EntryLoop.consider (args : CycleArgs) (st : EntryLoop) (c : Candidate) : EntryLoop :=
  if st.raised then st
  else
    match st.desk.actOnSignal s st.ctx c with
    | .error _ => { st with raised := true }
    | .ok (desk, none) => { st with desk }
    | .ok (desk, some order) =>
        let (sent, answer) := desk.send order c.send
        let next : EntryLoop :=
          { st with
            desk := sent
            events := st.events ++ [.submitted (desk.submission s order c.send)] }
        match answer with
        | .raised => { next with raised := true }
        | .quarantined => next
        | .returned state => if state.mayBeLive then next.refresh s args c else next

structure CycleReads where
  nowNs : ℤ
  outside : Surroundings
  /-- the answers when the context is built again with the blocking alarms -/
  rebuilt : Surroundings
  /-- `news.assess` on the active instruments -/
  news : Dict String NewsAssessment
  regime : Option (String × Dec)
  group : Option GroupView
  correlations : Dict (String × String) Dec

structure CycleView where
  desk : EntryDesk
  built : List RiskContext
  ctx : RiskContext
  args : CycleArgs

/-- `blocking`. -/
def blockingRules (alarms : List Veto) : List VetoRule :=
  (alarms.filter fun v => v.severity = .block).map Veto.rule

def EntryDesk.cycleView (x : CycleReads) : CycleView :=
  let (agent, positions) := d.agent.hydrate x.outside.positions
  let snap := feedSnapshot x.outside.feed (activeInstruments s) x.nowNs
  let informed := { d with agent, news := x.news, regime := x.regime, group := x.group }
  let (first, ctx) := informed.buildContext s x.outside
    { nowNs := x.nowNs, positions, snap, correlations := x.correlations }
  let alarms := portfolioAlarms s.risk ctx
  let blocking := blockingRules alarms
  let halted :=
    if alarms.any fun v => v.severity = .halt then
      { first with agent := first.agent.halt "portfolio alarm" }
    else first
  let args := { snap, correlations := x.correlations, blockingAlarms := blocking }
  if blocking.isEmpty then { desk := halted, built := [ctx], ctx, args }
  else
    let (second, ctx') := halted.buildContext s x.rebuilt
      { nowNs := x.nowNs, positions, snap, correlations := x.correlations
        blockingAlarms := blocking }
    { desk := second, built := [ctx, ctx'], ctx := ctx', args }

structure CycleInputs where
  reads : CycleReads
  killAtStart : Bool := false
  /-- what `_manage_positions` does to the agent -/
  manage : Agent → Agent := id
  gate : GateAnswer := .absent
  /-- the signals of an allocation's strategy, in the order of its instruments -/
  signals : StrategyAllocation Unit → List Candidate

def EntryDesk.candidates (signals : StrategyAllocation Unit → List Candidate) : List Candidate :=
  s.strategies.flatMap fun a =>
    if a.enabled ∧ ¬d.agent.guardSuspended.contains a.name ∧
        canTrade a.lifecycle (s.venueMode = .live) then signals a
    else []

/-- The part of `cycle` from the news to `_consider_entries`. -/
def EntryDesk.cycle (d : EntryDesk) (s : EntrySettings) (x : CycleInputs) :
    EntryDesk × List EntryEvent :=
  let view := d.cycleView s x.reads
  let desk := { view.desk with agent := x.manage view.desk.agent }
  let permitted := entryPermission s.venueMode x.gate
  let events := view.built.map EntryEvent.built ++ [.asked permitted]
  if desk.agent.halted || x.killAtStart || !permitted || !inSession s x.reads.nowNs then
    (desk, events)
  else
    let loop := (desk.candidates s x.signals).foldl (EntryLoop.consider s view.args)
      { desk, ctx := view.ctx, events }
    (loop.desk, loop.events)

/-! ## The human paths -/

structure HumanResult where
  desk : EntryDesk
  events : List EntryEvent := []
  order : Option ReadyOrder := none

structure HumanInputs where
  nowNs : ℤ
  outside : Surroundings
  gate : GateAnswer := .absent
  caution : CautionInputs := {}

def EntryDesk.humanContext (x : HumanInputs) (instrument : String) : EntryDesk × RiskContext :=
  let (agent, positions) := d.agent.hydrate x.outside.positions
  { d with agent }.buildContext s x.outside
    { nowNs := x.nowNs, positions, snap := feedSnapshot x.outside.feed [instrument] x.nowNs }

/-- What both human paths do once their gates are open: a snapshot of the one
instrument, the context, the intent, the verdict, and the order.  `adjust` is
what the path changes of the context; without a caution nothing is sent. -/
def EntryDesk.evaluateHuman (x : HumanInputs)
    (instrument : String) (fields : Instrument → IntentFields)
    (adjust : RiskContext → RiskContext) (caution : EntryDesk → Option Dec) : HumanResult :=
  let snap := feedSnapshot x.outside.feed [instrument] x.nowNs
  match snap.quotes.get? instrument, x.outside.instruments.get? instrument with
  | some quote, some inst =>
      let (desk, plain) := d.humanContext s x instrument
      let ctx := adjust plain
      let events := [.asked true, .built ctx]
      match OrderIntent.ofFields (fields inst) with
      | .error _ => { desk, events }
      | .ok intent =>
          match evaluateEntry s.risk intent.toIntentFields ctx with
          | .error _ => { desk, events }
          | .ok verdict =>
              { desk
                events
                order := (caution desk).bind (readyOrder ctx inst quote intent verdict) }
  | _, _ => { desk := d, events := [.asked true] }

def Proposal.intentFields (p : Proposal) (inst : Instrument) : IntentFields where
  clientOrderId := p.clientOrderId
  strategy := p.strategy
  instrument := p.instrument
  side := p.side
  lots := p.lots.getD inst.minLot
  stopLoss := p.stop
  takeProfit := p.target
  decisionNs := p.tsNs
  horizon := p.horizon

def EntryDesk.acceptCaution (d : EntryDesk) (x : HumanInputs) (p : Proposal) : Dec :=
  max 0 (min (min 1 (d.cautionFor x.caution p.instrument)) p.cautionMultiplier)

/-- `_advisory_queue.remove(target)`. -/
def EntryDesk.dequeue (d : EntryDesk) (clientOrderId : String) : EntryDesk :=
  { d with queue := d.queue.eraseP fun p => p.clientOrderId = clientOrderId }

/-- `accept_advice`, up to `_execute`. -/
def EntryDesk.acceptAdvice (clientOrderId : String) (x : HumanInputs) : HumanResult :=
  match d.queue.find? fun p => p.clientOrderId = clientOrderId with
  | none => { desk := d }
  | some p =>
      if !entryPermission s.venueMode x.gate then { desk := d, events := [.asked false] }
      else if d.agent.guardSuspended.contains p.strategy then
        { desk := d.dequeue clientOrderId, events := [.asked true] }
      else if !inSession s x.nowNs then { desk := d, events := [.asked true] }
      else
        (d.dequeue clientOrderId).evaluateHuman s x p.instrument p.intentFields id
          fun desk => some (desk.acceptCaution x p)

structure ManualTicket where
  instrument : String
  side : Side
  stopLoss : Dec
  takeProfit : Option Dec := none
  riskPct : Option Dec := none
  preview : Bool := false
  /-- `client_order_id(...)` -/
  clientOrderId : String

def manualStrategy : String := "manual"

def ManualTicket.intentFields (t : ManualTicket) (nowNs : ℤ) (inst : Instrument) :
    IntentFields where
  clientOrderId := t.clientOrderId
  strategy := manualStrategy
  instrument := t.instrument
  side := t.side
  lots := inst.minLot
  stopLoss := some (inst.roundPrice t.stopLoss)
  takeProfit := (t.takeProfit.filter fun target => target ≠ 0).map inst.roundPrice
  decisionNs := nowNs

/-- The caution of a ticket, which may ask for less risk than the budget;
`none` when it asks for none at all, or only for a preview. -/
def EntryDesk.ticketCaution (x : HumanInputs) (t : ManualTicket) : Option Dec :=
  let caution := d.cautionFor x.caution t.instrument
  if t.preview then none
  else
    match t.riskPct with
    | none => some caution
    | some wanted =>
        if wanted ≤ 0 then none
        else if wanted < s.risk.riskPerTradePct then
          some (min caution (wanted / s.risk.riskPerTradePct))
        else some caution

def RiskContext.forTicket (ctx : RiskContext) : RiskContext :=
  { ctx with strategyLifecycles := ctx.strategyLifecycles.set manualStrategy .accepted }

/-- `manual_order`, up to `_execute`. -/
def EntryDesk.manualOrder (t : ManualTicket) (x : HumanInputs) : HumanResult :=
  if s.venueMode = .live ∧ ¬s.manualTradingLive then { desk := d }
  else if !entryPermission s.venueMode x.gate then { desk := d, events := [.asked false] }
  else if !inSession s x.nowNs then { desk := d, events := [.asked true] }
  else
    d.evaluateHuman s x t.instrument (t.intentFields x.nowNs) RiskContext.forTicket
      fun desk => desk.ticketCaution s x t

inductive HumanCall where
  | accept (clientOrderId : String)
  | manual (ticket : ManualTicket)

def EntryDesk.human (d : EntryDesk) (s : EntrySettings) (call : HumanCall) (x : HumanInputs) :
    HumanResult :=
  match call with
  | .accept clientOrderId => d.acceptAdvice s clientOrderId x
  | .manual ticket => d.manualOrder s ticket x

def EntryDesk.humanCall (call : HumanCall)
    (x : HumanInputs) (send : SendInputs) : EntryDesk × List EntryEvent :=
  let result := d.human s call x
  match result.order with
  | none => (result.desk, result.events)
  | some order =>
      ((result.desk.send order send).1,
        result.events ++ [.submitted (result.desk.submission s order send)])

/-! ## Runs -/

/-- One thing that happens: a cycle, a call of a human, or anything that
changes the desk without an order. -/
inductive EntryMove where
  | cycle (s : EntrySettings) (x : CycleInputs)
  | human (s : EntrySettings) (call : HumanCall) (x : HumanInputs) (send : SendInputs)
  | other (change : EntryDesk → EntryDesk)

def EntryDesk.traces (d : EntryDesk) :
    List EntryMove → List (EntrySettings × List EntryEvent)
  | [] => []
  | .other change :: moves => (change d).traces moves
  | .cycle s x :: moves => (s, (d.cycle s x).2) :: (d.cycle s x).1.traces moves
  | .human s call x send :: moves =>
      (s, (d.humanCall s call x send).2) :: (d.humanCall s call x send).1.traces moves

end Sentinel
