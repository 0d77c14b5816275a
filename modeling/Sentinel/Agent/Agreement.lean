import Sentinel.Agent.Moves
import Sentinel.Agent.Persistence

/-!
# Agents that decide alike

Two agents agree when they differ only in keys an entry lacks on one side and
holds with its default on the other.  Every step keeps the agreement, does the
same to the venue and returns the same answer.
-/

namespace Sentinel

/-! ## Entries -/

namespace PositionMeta

structure Alike (m m' : PositionMeta) : Prop where
  restored : m.restored = m'.restored
  truthy : m.truthy = m'.truthy

namespace Alike

variable {m m' : PositionMeta}

theorem refl (m : PositionMeta) : Alike m m := ⟨rfl, rfl⟩

theorem maxFavourable (h : Alike m m') : m.maxFavourable.getD 0 = m'.maxFavourable.getD 0 := by
  simpa [PositionMeta.restored] using congrArg PositionMeta.maxFavourable h.restored

theorem maxAdverse (h : Alike m m') : m.maxAdverse.getD 0 = m'.maxAdverse.getD 0 := by
  simpa [PositionMeta.restored] using congrArg PositionMeta.maxAdverse h.restored

theorem maxHoldSec (h : Alike m m') : m.maxHoldSec.getD 0 = m'.maxHoldSec.getD 0 := by
  simpa [PositionMeta.restored] using congrArg PositionMeta.maxHoldSec h.restored

theorem sideText (h : Alike m m') : m.sideText = m'.sideText := by
  simpa [PositionMeta.restored] using congrArg PositionMeta.side h.restored

end Alike

@[simp] theorem restored_truthy (m : PositionMeta) : m.restored.truthy = true := by
  rw [truthy_iff]
  intro h
  simpa [restored, empty] using congrArg PositionMeta.side h

theorem alike_restored {m : PositionMeta} (h : m ≠ empty) : Alike m m.restored where
  restored := rfl
  truthy := by rw [restored_truthy, (truthy_iff m).2 h]

@[simp] theorem attach_restored (m : PositionMeta) (p : Position) :
    Agent.attach m.restored p = Agent.attach m p := by
  simp [Agent.attach, restored]

theorem Alike.attach {m m' : PositionMeta} (h : Alike m m') (p : Position) :
    Agent.attach m p = Agent.attach m' p := by
  rw [← attach_restored, h.restored, attach_restored]

/-! ### Updates of an entry -/

def Respects (f f' : PositionMeta → PositionMeta) : Prop :=
  ∀ m m', Alike m m' → Alike (f m) (f' m')

theorem respects_id : Respects id id := fun _ _ h => h

theorem truthy_of_stopLoss {m : PositionMeta} {stop : Option Dec} (h : m.stopLoss = some stop) :
    m.truthy = true := by
  rw [truthy_iff]
  rintro rfl
  cases h

theorem respects_stopLoss (stop : Dec) :
    Respects (fun m => { m with stopLoss := some (some stop) })
      fun m => { m with stopLoss := some (some stop) } := by
  intro m m' h
  refine ⟨?_, ?_⟩
  · exact congrArg (fun e => { e with stopLoss := some (some stop) }) h.restored
  · rw [truthy_of_stopLoss rfl, truthy_of_stopLoss rfl]

theorem respects_stopMoved (rule : ProtectRule) (stop : Dec) :
    Respects (stopMoved rule stop) (stopMoved rule stop) := by
  intro m m' h
  have hset := respects_stopLoss stop m m' h
  unfold stopMoved
  split_ifs
  · refine ⟨?_, ?_⟩
    · exact congrArg (fun e => { e with breakevenMoved := some true }) hset.restored
    · rw [truthy_of_stopLoss rfl, truthy_of_stopLoss rfl]
  · exact hset

theorem respects_partialTaken (p : Position) (lots : Dec) :
    Respects (Sentinel.partialTaken p lots) (Sentinel.partialTaken p lots) := by
  have htruthy : ∀ m : PositionMeta, m.partialTaken = some true → m.truthy = true := by
    intro m hm
    rw [truthy_iff]
    rintro rfl
    cases hm
  intro m m' h
  refine ⟨?_, by rw [htruthy _ rfl, htruthy _ rfl]⟩
  unfold Sentinel.partialTaken
  split_ifs
  · exact congrArg (fun e =>
      { e with partialTaken := some true
               initialRisk := some (p.initialRisk * (p.lots - lots) / p.lots) }) h.restored
  · exact congrArg (fun e => { e with partialTaken := some true }) h.restored

theorem respects_excursions (changed : Prop) [Decidable changed] (best worst : Dec) :
    Respects
      (fun m => if changed then { m with maxFavourable := some best, maxAdverse := some worst }
        else m)
      fun m => if changed then { m with maxFavourable := some best, maxAdverse := some worst }
        else m := by
  intro m m' h
  split_ifs
  · have htruthy : ∀ e : PositionMeta, e.maxFavourable = some best → e.truthy = true := by
      intro e he
      rw [truthy_iff]
      rintro rfl
      cases he
    refine ⟨?_, by rw [htruthy _ rfl, htruthy _ rfl]⟩
    exact congrArg (fun e =>
      { e with maxFavourable := some best, maxAdverse := some worst }) h.restored
  · exact h

end PositionMeta

/-! ## Agents -/

namespace Agent

def entry (a : Agent) (symbol : String) : PositionMeta :=
  (a.positionMeta.get? symbol).getD .empty

def budgets (a : Agent) : Agent := { a with positionMeta := .empty, haltReason := "" }

structure Agrees (a b : Agent) : Prop where
  budgets : a.budgets = b.budgets
  reason : a.halted = true → a.haltReason = b.haltReason
  entries : ∀ symbol, PositionMeta.Alike (a.entry symbol) (b.entry symbol)

namespace Agrees

variable {a b : Agent}

theorem halted (h : Agrees a b) : a.halted = b.halted := by
  have hbudgets := congrArg Agent.halted h.budgets
  exact hbudgets

theorem bookRow (h : Agrees a b) (symbol : String) :
    Agent.bookRow symbol (a.entry symbol) = Agent.bookRow symbol (b.entry symbol) := by
  have hrow : ∀ m : PositionMeta, Agent.bookRow symbol m = Agent.bookRow symbol m.restored := by
    intro m
    unfold Agent.bookRow
    simp only [PositionMeta.restored, PositionMeta.sideText, Option.getD_some,
      Option.some.injEq, Option.join_some]
    rcases m.provisional with _ | _ | _ <;> simp
  rw [hrow, (h.entries symbol).restored, ← hrow]

theorem of_budgets (h : Agrees a b) {f : Agent → Agent}
    (hf : ∀ c : Agent, (f c).budgets = (f c.budgets).budgets ∧
      (f c).positionMeta = c.positionMeta ∧ (f c).halted = c.halted ∧
      (f c).haltReason = c.haltReason) : Agrees (f a) (f b) where
  budgets := by rw [(hf a).1, h.budgets, ← (hf b).1]
  reason := by
    intro hhalted
    rw [(hf a).2.2.1] at hhalted
    rw [(hf a).2.2.2, (hf b).2.2.2, h.reason hhalted]
  entries symbol := by
    unfold Agent.entry
    rw [(hf a).2.1, (hf b).2.1]
    exact h.entries symbol

theorem of_budgets_unless (h : Agrees a b) {P : Agent → Prop} [DecidablePred P]
    {f : Agent → Agent} (hP : ∀ c : Agent, P c ↔ P c.budgets)
    (hf : ∀ c : Agent, (f c).budgets = (f c.budgets).budgets ∧
      (f c).positionMeta = c.positionMeta ∧ (f c).halted = c.halted ∧
      (f c).haltReason = c.haltReason) :
    Agrees (if P a then a else f a) (if P b then b else f b) := by
  have hsame : P a ↔ P b := by rw [hP a, h.budgets, ← hP b]
  by_cases hcase : P a
  · rw [if_pos hcase, if_pos (hsame.1 hcase)]
    exact h
  · rw [if_neg hcase, if_neg fun hb => hcase (hsame.2 hb)]
    exact h.of_budgets hf

theorem withMeta (h : Agrees a b) {d e : Dict String PositionMeta}
    (hd : ∀ symbol, PositionMeta.Alike ((d.get? symbol).getD .empty)
      ((e.get? symbol).getD .empty)) :
    Agrees { a with positionMeta := d } { b with positionMeta := e } where
  budgets := h.budgets
  reason := h.reason
  entries := hd

theorem updateMeta (h : Agrees a b) (symbol : String) {f f' : PositionMeta → PositionMeta}
    (hf : PositionMeta.Respects f f') :
    Agrees (a.updateMeta symbol f) (b.updateMeta symbol f') := by
  refine h.withMeta fun other => ?_
  rw [Dict.get?_set, Dict.get?_set]
  split_ifs
  · exact hf _ _ (h.entries symbol)
  · exact h.entries other

theorem eraseEntry (h : Agrees a b) (symbol : String) :
    Agrees { a with positionMeta := a.positionMeta.erase symbol }
      { b with positionMeta := b.positionMeta.erase symbol } := by
  refine h.withMeta fun other => ?_
  rw [Dict.get?_erase, Dict.get?_erase]
  split_ifs
  · exact .refl _
  · exact h.entries other

theorem restrictEntries (h : Agrees a b) (keep : String → Bool) :
    Agrees { a with positionMeta := a.positionMeta.restrict keep }
      { b with positionMeta := b.positionMeta.restrict keep } := by
  refine h.withMeta fun other => ?_
  rw [Dict.get?_restrict, Dict.get?_restrict]
  split_ifs
  · exact h.entries other
  · exact .refl _

theorem halt (h : Agrees a b) (reason : String) : Agrees (a.halt reason) (b.halt reason) := by
  have hhalted := h.halted
  unfold Agent.halt
  rw [← hhalted]
  split_ifs with hcase
  · exact h
  · exact ⟨congrArg (fun c : Agent => { c with halted := true }) h.budgets, fun _ => rfl,
      h.entries⟩

theorem resume (h : Agrees a b) : Agrees a.resume b.resume := by
  have hhalted := h.halted
  unfold Agent.resume
  rw [← hhalted]
  split_ifs with hcase
  · exact ⟨congrArg (fun c : Agent => { c with halted := false }) h.budgets, fun _ => rfl,
      h.entries⟩
  · exact h

end Agrees

end Agent

end Sentinel
