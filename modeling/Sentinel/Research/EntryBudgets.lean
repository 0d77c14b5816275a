import Mathlib.Data.Int.ConditionallyCompleteOrder
import Sentinel.Core.SummerTime
import Sentinel.Research.Backtest
import Sentinel.Risk.Verdict

/-!
# Budgets of entries

A budget allows so many entries in a day, an ISO week or a year.  The loop keeps
for each a counter and the number of the period that it counts, and starts the
counter again when the number changes.  The counter bounds the entries of its
period as long as no entry comes before the change.
-/

namespace Sentinel

/-! ## The counters -/

structure EntryCounters where
  dayKey : Option ℤ
  weekKey : Option ℤ
  yearKey : Option ℤ
  tradesToday : ℕ
  tradesWeek : ℕ
  tradesYear : ℕ

namespace EntryCounters

def entered (c : EntryCounters) : EntryCounters :=
  { c with
    tradesToday := c.tradesToday + 1
    tradesWeek := c.tradesWeek + 1
    tradesYear := c.tradesYear + 1 }

def rolled (day : ℤ) (c : EntryCounters) : EntryCounters where
  dayKey := some (Backtest.dayOfYear day)
  weekKey := some (Backtest.isoWeek day)
  yearKey := some (CivilDate.ofDay day).year
  tradesToday := if c.dayKey = some (Backtest.dayOfYear day) then c.tradesToday else 0
  tradesWeek := if c.weekKey = some (Backtest.isoWeek day) then c.tradesWeek else 0
  tradesYear := if c.yearKey = some (CivilDate.ofDay day).year then c.tradesYear else 0

structure Told (c : EntryCounters) (ctx : RiskContext) : Prop where
  today : ctx.tradesToday = c.tradesToday
  week : ctx.tradesThisWeek = c.tradesWeek
  year : ctx.tradesThisYear = c.tradesYear

end EntryCounters

/-! ## A budget -/

structure EntryBudget where
  period : ℤ → ℤ
  number : ℤ → ℤ
  key : EntryCounters → Option ℤ
  counter : EntryCounters → ℕ
  cap : RiskConfig → ℕ
  period_mono : Monotone period
  number_eq : ∀ d d', period d = period d' → number d = number d'
  key_entered : ∀ c : EntryCounters, key c.entered = key c
  counter_entered : ∀ c : EntryCounters, counter c.entered = counter c + 1
  key_rolled : ∀ day (c : EntryCounters), key (c.rolled day) = some (number day)
  counter_rolled : ∀ day (c : EntryCounters),
    counter (c.rolled day) = if key c = some (number day) then counter c else 0
  counter_lt : ∀ cfg ctx (c : EntryCounters), frequencyVetoes cfg ctx = [] → c.Told ctx →
    counter c < cap cfg

namespace EntryBudget

theorem lt_caps_of_noVeto (cfg : RiskConfig) (ctx : RiskContext)
    (h : frequencyVetoes cfg ctx = []) :
    ctx.tradesToday < cfg.maxTradesPerDay ∧ ctx.tradesThisWeek < cfg.maxTradesPerWeek ∧
      ctx.tradesThisYear < cfg.maxTradesPerYear := by
  simp only [frequencyVetoes, List.append_eq_nil_iff, vetoIf_eq_nil, not_le] at h
  exact ⟨h.1.1.1, h.1.1.2, h.1.2⟩

/-- `max_trades_per_day`, of a UTC day. -/
def daily : EntryBudget where
  period day := day
  number := Backtest.dayOfYear
  key := EntryCounters.dayKey
  counter := EntryCounters.tradesToday
  cap := RiskConfig.maxTradesPerDay
  period_mono := monotone_id
  number_eq := by
    rintro d _ rfl
    rfl
  key_entered _ := rfl
  counter_entered _ := rfl
  key_rolled _ _ := rfl
  counter_rolled _ _ := rfl
  counter_lt cfg ctx _ h htold := htold.today ▸ (lt_caps_of_noVeto cfg ctx h).1

/-- `max_trades_per_week`, of an ISO week: the days from a Monday. -/
def weekly : EntryBudget where
  period day := day - weekdayOf day
  number := Backtest.isoWeek
  key := EntryCounters.weekKey
  counter := EntryCounters.tradesWeek
  cap := RiskConfig.maxTradesPerWeek
  period_mono := by
    intro d d' h
    simp only [weekdayOf]
    omega
  number_eq := by
    intro d d' h
    rw [Backtest.isoWeek, Backtest.isoWeek, h]
  key_entered _ := rfl
  counter_entered _ := rfl
  key_rolled _ _ := rfl
  counter_rolled _ _ := rfl
  counter_lt cfg ctx _ h htold := htold.week ▸ (lt_caps_of_noVeto cfg ctx h).2.1

/-- `max_trades_per_year`, of a calendar year. -/
def yearly : EntryBudget where
  period day := (CivilDate.ofDay day).year
  number day := (CivilDate.ofDay day).year
  key := EntryCounters.yearKey
  counter := EntryCounters.tradesYear
  cap := RiskConfig.maxTradesPerYear
  period_mono _ _ h := CivilDate.year_ofDay_mono h
  number_eq _ _ h := h
  key_entered _ := rfl
  counter_entered _ := rfl
  key_rolled _ _ := rfl
  counter_rolled _ _ := rfl
  counter_lt cfg ctx _ h htold := htold.year ▸ (lt_caps_of_noVeto cfg ctx h).2.2

variable (β : EntryBudget)

def filled (period : ℤ) (fills : List ℤ) : ℕ :=
  fills.countP fun t => β.period (dayOf t) = period

structure Within (cap : ℕ) (now : ℤ) (fills : List ℤ) (c : EntryCounters) : Prop where
  past : ∀ t ∈ fills, t ≤ now
  capped : ∀ period, β.filled period fills ≤ cap
  counted : ∀ day, dayOf now ≤ day → β.key c = some (β.number day) →
    β.filled (β.period day) fills ≤ β.counter c
  keyed : fills = [] ∨ β.key c = some (β.number (dayOf now))

namespace Within

variable {β} {cap : ℕ} {now now' : ℤ} {fills : List ℤ} {c : EntryCounters}

theorem nil : β.Within cap now [] c where
  past := List.forall_mem_nil _
  capped _ := Nat.zero_le _
  counted _ _ _ := Nat.zero_le _
  keyed := .inl rfl

theorem later (h : β.Within cap now fills c) (hle : now ≤ now')
    (hkey : β.key c = some (β.number (dayOf now'))) : β.Within cap now' fills c where
  past t ht := (h.past t ht).trans hle
  capped := h.capped
  counted day hday := h.counted day ((dayOf_mono hle).trans hday)
  keyed := .inr hkey

theorem counts (h : β.Within cap now fills c) : β.Within cap now fills c.entered where
  past := h.past
  capped := h.capped
  counted day hday hkey := by
    rw [β.key_entered] at hkey
    rw [β.counter_entered]
    exact (h.counted day hday hkey).trans (Nat.le_succ _)
  keyed := by
    rw [β.key_entered]
    exact h.keyed

theorem enters (h : β.Within cap now fills c) (hkey : β.key c = some (β.number (dayOf now)))
    (hcap : β.counter c < cap) : β.Within cap now (fills ++ [now]) c.entered where
  past t ht := by
    rcases List.mem_append.mp ht with ht | ht
    · exact h.past t ht
    · exact (List.mem_singleton.mp ht).le
  capped period := by
    rw [filled, List.countP_append, List.countP_singleton]
    split_ifs with hperiod
    · have hbound := h.counted (dayOf now) le_rfl hkey
      rw [of_decide_eq_true hperiod] at hbound
      exact hbound.trans_lt hcap
    · exact h.capped period
  counted day hday hkey' := by
    rw [β.key_entered] at hkey'
    have hbound := h.counted day hday hkey'
    rw [β.counter_entered, filled, List.countP_append, List.countP_singleton]
    split_ifs
    · exact Nat.succ_le_succ hbound
    · exact hbound.trans (Nat.le_succ _)
  keyed := by
    rw [β.key_entered]
    exact .inr hkey

theorem rolls (h : β.Within cap now fills c) (hle : now ≤ now') :
    β.Within cap now' fills (c.rolled (dayOf now')) where
  past t ht := (h.past t ht).trans hle
  capped := h.capped
  counted day hday hkey := by
    rw [β.key_rolled, Option.some.injEq] at hkey
    rw [β.counter_rolled]
    split_ifs with hsame
    · exact h.counted day ((dayOf_mono hle).trans hday) (hkey ▸ hsame)
    · rw [filled, Nat.le_zero, List.countP_eq_zero]
      intro t ht hperiod
      rw [decide_eq_true_iff] at hperiod
      have hlow := β.period_mono (dayOf_mono (h.past t ht))
      have hmid := β.period_mono (dayOf_mono hle)
      have hhigh := β.period_mono hday
      have hperiods : β.period (dayOf now) = β.period (dayOf now') := by omega
      rcases h.keyed with hnil | hkeyed
      · rw [hnil] at ht
        cases ht
      · rw [β.number_eq _ _ hperiods] at hkeyed
        exact hsame hkeyed
  keyed := .inr (β.key_rolled _ _)

end Within

end EntryBudget

end Sentinel
