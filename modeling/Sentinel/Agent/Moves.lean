import Sentinel.Agent.Entry
import Sentinel.Agent.Manage
import Sentinel.Agent.Periods
import Sentinel.Risk.Sizing

/-!
# Runs of the agent

What a cycle, a human or an order does to the agent, as one step function: the
period roll, the equity peaks, the rolling day, `_hydrate`, `_manage_positions`,
the record of an entry, a forgotten close, a halt and its release.  What a step
shows to the rest of the program is its answer.
-/

namespace Sentinel

namespace Agent

variable (a : Agent)

/-- `resume`: a human releases the halt. -/
def resume : Agent :=
  if a.halted then { a with halted := false, haltReason := "" } else a

/-- `_forget_closed`: drop the entries of positions a human closed. -/
def forgetClosed (stillOpen : List String) : Agent :=
  { a with positionMeta := a.positionMeta.restrict fun symbol => decide (symbol ∈ stillOpen) }

def markPeaks (cfg : RiskConfig) (balance equity : Dec) : Agent :=
  let peak := max a.equityPeak balance
  let a := { a with equityPeak := peak, equityPeakMarked := max a.equityPeakMarked equity }
  if cfg.ladderEnabled ∧ 0 < peak then
    let drawdown := (peak - equity) / peak * 100
    { a with
      ladderRung :=
        Sentinel.ladderRung drawdown cfg.ladder a.ladderRung.toNat cfg.ladderHysteresisPct }
  else a

@[simp] theorem resume_positionMeta : a.resume.positionMeta = a.positionMeta := by
  unfold resume
  split_ifs <;> rfl

@[simp] theorem resume_halted : a.resume.halted = false := by
  unfold resume
  split_ifs with h
  · rfl
  · simpa using h

@[simp] theorem markPeaks_positionMeta (cfg : RiskConfig) (balance equity : Dec) :
    (a.markPeaks cfg balance equity).positionMeta = a.positionMeta := by
  simp only [markPeaks]
  split_ifs <;> rfl

end Agent

inductive AgentMove where
  | roll (nowNs : ℤ) (equity : Dec)
  | peaks (cfg : RiskConfig) (balance equity : Dec)
  | mark (nowNs : ℤ) (equity : Dec)
  | hydrate (positions : List Position)
  | manage (cfg : ProtectConfig) (input : ManageInput) (positions : List Position)
  | record (ctx : EntryContext) (intent : OrderIntent) (order : Order)
  | forget (stillOpen : List String)
  | halt (reason : String)
  | resume

inductive AgentAnswer where
  | done
  /-- the loss of the rolling day -/
  | pnl (amount : Dec)
  /-- the positions as completed by `_hydrate` -/
  | positions (completed : List Position)

variable {σ : Type}

/-- One step of a run, with what it returns. -/
def Desk.move (broker : ManageVenue σ) (d : Desk σ) : AgentMove → Desk σ × AgentAnswer
  | .roll nowNs equity => ({ d with agent := d.agent.rollPeriods nowNs equity }, .done)
  | .peaks cfg balance equity => ({ d with agent := d.agent.markPeaks cfg balance equity }, .done)
  | .mark nowNs equity =>
      let (agent, amount) := d.agent.rolling24hPnl nowNs equity
      ({ d with agent }, .pnl amount)
  | .hydrate positions =>
      let (agent, completed) := d.agent.hydrate positions
      ({ d with agent }, .positions completed)
  | .manage cfg input positions => (managePositions broker cfg input d positions, .done)
  | .record ctx intent order => ({ d with agent := d.agent.record ctx intent order }, .done)
  | .forget stillOpen => ({ d with agent := d.agent.forgetClosed stillOpen }, .done)
  | .halt reason => ({ d with agent := d.agent.halt reason }, .done)
  | .resume => ({ d with agent := d.agent.resume }, .done)

def Desk.step (broker : ManageVenue σ) (d : Desk σ) (move : AgentMove) : Desk σ :=
  (d.move broker move).1

def Desk.run (broker : ManageVenue σ) (d : Desk σ) (moves : List AgentMove) : Desk σ :=
  moves.foldl (Desk.step broker) d

def Desk.answers (broker : ManageVenue σ) (d : Desk σ) : List AgentMove → List AgentAnswer
  | [] => []
  | move :: moves => (d.move broker move).2 :: Desk.answers broker (d.step broker move) moves

end Sentinel
