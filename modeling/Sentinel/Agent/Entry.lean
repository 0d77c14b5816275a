import Sentinel.Agent.State
import Sentinel.Execution.OrderManager

/-!
# Recording an entry

What `_execute` does with the order that `oms.submit` returned: it counts the
entry, writes the position's entry, and answers with the label of the decision.
An order whose outcome is UNKNOWN is counted too, since the venue may have
filled it.
-/

namespace Sentinel

/-- What `_execute` reads beside the order. -/
structure EntryContext where
  nowNs : ℤ
  /-- the current regime, empty when there is none -/
  regime : String := ""
  /-- `broker.instruments()` -/
  instruments : Dict String Instrument
  /-- `_conversion_map().get` -/
  conversion : String → Option Dec
  feedTimeframe : String := "H4"

def timeframeSeconds : List (String × ℤ) :=
  [("M1", 60), ("M5", 300), ("M15", 900), ("M30", 1800),
   ("H1", 3600), ("H4", 14400), ("D1", 86400), ("W1", 604800)]

variable (ctx : EntryContext)

def horizonSec (intent : OrderIntent) : ℤ :=
  match intent.horizon with
  | none => 0
  | some (bars, timeframe) =>
      let timeframe := if timeframe = "" then ctx.feedTimeframe else timeframe
      bars * (timeframeSeconds.lookup timeframe).getD 0

/-- `_realised_risk`: the risk of the position the venue opened. -/
def realisedRisk (intent : OrderIntent) (order : Order) : Dec :=
  let lots := orElse order.filledLots intent.lots
  match order.avgFillPrice, intent.stopLoss, ctx.instruments.get? intent.instrument with
  | some price, some stop, some inst =>
      if lots ≤ 0 then intent.riskAmount
      else
        match ctx.conversion inst.quote with
        | none => intent.riskAmount
        | some conversion =>
            if conversion ≤ 0 then intent.riskAmount
            else |price - stop| / inst.pip * (inst.pipValueQuote lots * conversion)
  | _, _, _ => intent.riskAmount

def provisionalEntry (intent : OrderIntent) : PositionMeta where
  initialRisk := some intent.riskAmount
  strategy := some intent.strategy
  side := some intent.side.value
  clientOrderId := some intent.clientOrderId
  openedNs := some ctx.nowNs
  regime := some ctx.regime
  provisional := some true
  partialTaken := some false
  breakevenMoved := some false

def liveEntry (intent : OrderIntent) (order : Order) : PositionMeta where
  initialRisk := some (realisedRisk ctx intent order)
  intendedRisk := some intent.riskAmount
  strategy := some intent.strategy
  side := some intent.side.value
  lots := some (orElse order.filledLots intent.lots)
  entryPrice := some (orElse (order.avgFillPrice.getD 0) (intent.limitPrice.getD 0))
  stopLoss := some intent.stopLoss
  clientOrderId := some intent.clientOrderId
  openedNs := some ctx.nowNs
  regime := some ctx.regime
  maxHoldSec := some (horizonSec ctx intent)
  partialTaken := some false
  breakevenMoved := some false

/-- What `_execute` makes of the decision. -/
inductive EntryAnswer where
  | executed
  | queued
  /-- a veto with its rule and message -/
  | vetoed (rule message : String)
  deriving DecidableEq

def entryAnswer (order : Order) : EntryAnswer :=
  match order.state with
  | .filled | .partlyFilled => .executed
  | .rejected =>
      let reason := order.rejectReason.getD ""
      .vetoed "broker_reject" (if reason = "" then "rejected" else reason)
  | _ => .queued

def OrderState.mayBeLive : OrderState → Bool
  | .filled | .partlyFilled | .acked | .unknown => true
  | _ => false

namespace Agent

variable (a : Agent) (ctx : EntryContext) (intent : OrderIntent)

def countEntry (a : Agent) (nowNs : ℤ) : Agent :=
  { a with
    tradesToday := a.tradesToday + 1
    tradesWeek := a.tradesWeek + 1
    tradesYear := a.tradesYear + 1
    lastEntryNs := some nowNs }

/-- What `_execute` does to the agent once `oms.submit` returned `order`. -/
def record (a : Agent) (ctx : EntryContext) (intent : OrderIntent) (order : Order) : Agent :=
  let counted := a.countEntry ctx.nowNs
  if order.state = .unknown then
    { counted with
      positionMeta := a.positionMeta.set intent.instrument (provisionalEntry ctx intent) }
  else if order.state ∈ [.filled, .partlyFilled, .acked] then
    if 0 < order.filledLots ∨ order.state = .acked then
      { counted with
        positionMeta := a.positionMeta.set intent.instrument (liveEntry ctx intent order)
        entryRegime := a.entryRegime.set intent.instrument ctx.regime }
    else counted
  else a

theorem record_cases (order : Order) :
    (order.state = .unknown ∧ a.record ctx intent order =
      { a.countEntry ctx.nowNs with
        positionMeta := a.positionMeta.set intent.instrument (provisionalEntry ctx intent) }) ∨
    (order.state.mayBeLive = true ∧ order.state ≠ .unknown ∧
      (0 < order.filledLots ∨ order.state = .acked) ∧ a.record ctx intent order =
      { a.countEntry ctx.nowNs with
        positionMeta := a.positionMeta.set intent.instrument (liveEntry ctx intent order)
        entryRegime := a.entryRegime.set intent.instrument ctx.regime }) ∨
    (order.state.mayBeLive = true ∧ order.filledLots ≤ 0 ∧
      a.record ctx intent order = a.countEntry ctx.nowNs) ∨
    (order.state.mayBeLive = false ∧ a.record ctx intent order = a) := by
  unfold record
  simp only
  split_ifs with hunknown hlive hsize
  · exact .inl ⟨hunknown, rfl⟩
  · refine .inr (.inl ⟨?_, hunknown, hsize, rfl⟩)
    cases hstate : order.state <;> simp_all [OrderState.mayBeLive]
  · refine .inr (.inr (.inl ⟨?_, ?_, rfl⟩))
    · cases hstate : order.state <;> simp_all [OrderState.mayBeLive]
    · exact not_lt.1 fun hpos => hsize (.inl hpos)
  · refine .inr (.inr (.inr ⟨?_, rfl⟩))
    cases hstate : order.state <;> simp_all [OrderState.mayBeLive]

theorem record_of_not_mayBeLive
    {order : Order} (h : order.state.mayBeLive = false) : a.record ctx intent order = a := by
  rcases a.record_cases ctx intent order with
    ⟨hunknown, -⟩ | ⟨hlive, -⟩ | ⟨hlive, -⟩ | ⟨-, hsame⟩
  · rw [hunknown] at h
    cases h
  · rw [hlive] at h
    cases h
  · rw [hlive] at h
    cases h
  · exact hsame

theorem halted_record (order : Order) : (a.record ctx intent order).halted = a.halted := by
  rcases a.record_cases ctx intent order with
    ⟨-, hrecord⟩ | ⟨-, -, -, hrecord⟩ | ⟨-, -, hrecord⟩ | ⟨-, hrecord⟩
  · rw [hrecord]
    rfl
  · rw [hrecord]
    rfl
  · rw [hrecord]
    rfl
  · rw [hrecord]

theorem record_of_mayBeLive {order : Order} (h : order.state.mayBeLive = true) :
    let b := a.record ctx intent order
    b.tradesToday = a.tradesToday + 1 ∧ b.tradesWeek = a.tradesWeek + 1 ∧
      b.tradesYear = a.tradesYear + 1 ∧ b.lastEntryNs = some ctx.nowNs := by
  rcases a.record_cases ctx intent order with
    ⟨-, hrecord⟩ | ⟨-, -, -, hrecord⟩ | ⟨-, -, hrecord⟩ | ⟨hdead, -⟩
  · simp only [hrecord]
    exact ⟨rfl, rfl, rfl, rfl⟩
  · simp only [hrecord]
    exact ⟨rfl, rfl, rfl, rfl⟩
  · simp only [hrecord]
    exact ⟨rfl, rfl, rfl, rfl⟩
  · rw [hdead] at h
    cases h

end Agent

end Sentinel
