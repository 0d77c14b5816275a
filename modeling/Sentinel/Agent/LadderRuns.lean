import Sentinel.Agent.Moves
import Sentinel.Risk.Ladder

/-!
# The drawdown ladder over the cycles

Each cycle marks the peak and reads the ladder at the drawdown from it.  The
rung in force was reached at one cycle, and held at every cycle since.
-/

namespace Sentinel

/-- What a cycle reads: the limits in force, the balance and the equity. -/
structure CycleMark where
  cfg : RiskConfig
  balance : Dec
  equity : Dec

namespace Agent

variable (a : Agent) (m : CycleMark)

def marked : Agent := a.markPeaks m.cfg m.balance m.equity

/-- The drawdown that the ladder is read at, when it is read. -/
def ladderReading : Option Dec :=
  let peak := max a.equityPeak m.balance
  if m.cfg.ladderEnabled ∧ 0 < peak then some ((peak - m.equity) / peak * 100) else none

/-- The cycle reaches the rung. -/
def ReachesRung (rung : ℤ) : Prop :=
  ∃ drawdown, a.ladderReading m = some drawdown ∧ rung = targetRung drawdown m.cfg.ladder

/-- If the cycle reads the ladder, the rung is above what it reaches, and held. -/
def HoldsRung (rung : ℤ) : Prop :=
  ∀ drawdown, a.ladderReading m = some drawdown →
    targetRung drawdown m.cfg.ladder < rung ∧
      HeldBy m.cfg.ladder m.cfg.ladderHysteresisPct drawdown rung.toNat

theorem marked_cases :
    a.ReachesRung m (a.marked m).ladderRung ∨
      (a.marked m).ladderRung = a.ladderRung ∧ a.HoldsRung m a.ladderRung := by
  by_cases hon : m.cfg.ladderEnabled ∧ 0 < max a.equityPeak m.balance
  · have hread : a.ladderReading m = some ((max a.equityPeak m.balance - m.equity) /
        max a.equityPeak m.balance * 100) := if_pos hon
    unfold ReachesRung HoldsRung
    rw [hread]
    simp only [marked, markPeaks, if_pos hon, Option.some.injEq, exists_eq_left', forall_eq']
    generalize (max a.equityPeak m.balance - m.equity) / max a.equityPeak m.balance * 100 =
      drawdown
    rcases @ladderRung_cases m.cfg.ladder m.cfg.ladderHysteresisPct drawdown
        a.ladderRung.toNat with
      ⟨habove, hheld, hkept⟩ | ⟨-, hset⟩
    · refine .inr ⟨?_, ?_, hheld⟩
      · rw [hkept]
        omega
      · omega
    · exact .inl (by rw [hset])
  · have hread : a.ladderReading m = none := if_neg hon
    refine .inr ⟨?_, ?_⟩
    · simp only [marked, markPeaks, if_neg hon]
    · intro drawdown hdrawdown
      cases hread.symm.trans hdrawdown

theorem marked_equityPeak : (a.marked m).equityPeak = max a.equityPeak m.balance := by
  simp only [marked, markPeaks]
  split_ifs <;> rfl

/-- After any cycles the peak is the highest balance that was read, or what it
was at first; and the rung is the one that a cycle reached, or the first one,
and every cycle since that read the ladder reached a lower rung and held it. -/
theorem ladder_run (ms : List CycleMark) :
    let last := ms.foldl marked a
    last.equityPeak = (ms.map CycleMark.balance).foldl max a.equityPeak ∧
      ∃ pre post, ms = pre ++ post ∧
        (pre = [] ∧ last.ladderRung = a.ladderRung ∨
          ∃ before m, pre = before ++ [m] ∧
            (before.foldl marked a).ReachesRung m last.ladderRung) ∧
        Along marked (fun b m => b.HoldsRung m last.ladderRung) (pre.foldl marked a) post := by
  induction ms using List.reverseRecOn with
  | nil => exact ⟨rfl, [], [], rfl, .inl ⟨rfl, rfl⟩, trivial⟩
  | append_singleton ms m ih =>
      obtain ⟨hpeak, pre, post, rfl, hreached, hheld⟩ := ih
      simp only [List.foldl_concat, List.map_append, List.map_singleton]
      refine ⟨by rw [marked_equityPeak, hpeak, List.map_append], ?_⟩
      rcases marked_cases ((pre ++ post).foldl marked a) m with hreach | ⟨hkept, hholds⟩
      · exact ⟨pre ++ post ++ [m], [], (List.append_nil _).symm,
          .inr ⟨pre ++ post, m, rfl, hreach⟩, trivial⟩
      · rw [hkept]
        refine ⟨pre, post ++ [m], List.append_assoc _ _ _, hreached, ?_⟩
        rw [Along.append_iff, ← List.foldl_append]
        exact ⟨hheld, hholds, trivial⟩

end Agent

end Sentinel
