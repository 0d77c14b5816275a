import Sentinel.Agent.Moves
import Sentinel.Brokers.MetaTrader
import Sentinel.Execution.Submit

/-!
# The frequency budgets

The counters are spent where `_execute` records an order.  The ledger beside
them lists the ids of the orders that were recorded, in all and in the current
day, week and year.
-/

namespace Sentinel

/-! ## What leaves the counters alone -/

namespace Agent

variable (a : Agent)

def counters : ℤ × ℤ × ℤ × Option ℤ :=
  (a.tradesToday, a.tradesWeek, a.tradesYear, a.lastEntryNs)

@[simp] theorem counters_halt (reason : String) : (a.halt reason).counters = a.counters := by
  rw [halt]
  split_ifs <;> rfl

@[simp] theorem counters_resume : a.resume.counters = a.counters := by
  rw [resume]
  split_ifs <;> rfl

@[simp] theorem counters_markPeaks (cfg : RiskConfig) (balance equity : Dec) :
    (a.markPeaks cfg balance equity).counters = a.counters := by
  simp only [markPeaks]
  split_ifs <;> rfl

@[simp] theorem counters_trackExcursion (p : Position) (quote : Quote)
    (inst : Instrument) (conversion : Dec) :
    (a.trackExcursion p quote inst conversion).1.counters = a.counters := by
  rw [trackExcursion]
  cases p.rMultiple quote inst conversion <;> rfl

@[simp] theorem counters_hydrateOne (p : Position) : (a.hydrateOne p).1.counters = a.counters := by
  rw [hydrateOne]
  split_ifs
  · exact counters_halt _ _
  · split <;> rfl

@[simp] theorem counters_hydrate (positions : List Position) :
    (a.hydrate positions).1.counters = a.counters := by
  suffices hall : (a.hydrateAll positions).1.counters = a.counters from hall
  induction positions generalizing a with
  | nil => rfl
  | cons p positions ih => exact (ih (a.hydrateOne p).1).trans (counters_hydrateOne a p)

end Agent

section Venue

variable {σ : Type} (broker : ManageVenue σ)

theorem counters_foldl {α : Type} {f : Desk σ → α → Desk σ}
    (hf : ∀ d x, (f d x).agent.counters = d.agent.counters) (d : Desk σ) (l : List α) :
    (l.foldl f d).agent.counters = d.agent.counters := by
  induction l generalizing d with
  | nil => rfl
  | cons x l ih => exact (ih (f d x)).trans (hf d x)

theorem counters_profitLockOne (input : ManageInput) (share : Dec) (d : Desk σ) (p : Position) :
    (profitLockOne broker input share d p).agent.counters = d.agent.counters := by
  rw [profitLockOne]
  split
  · rfl
  · split <;> rfl

theorem counters_closeWhole (d : Desk σ) (p : Position) :
    (closeWhole broker d p).1.agent.counters = d.agent.counters := by
  rw [closeWhole]
  split
  · exact Agent.counters_halt _ _
  · simp only
    split_ifs
    · exact Agent.counters_halt _ _
    · rfl
    · exact Agent.counters_halt _ _

theorem counters_applyInstruction (p : Position) (d : Desk σ) (i : ProtectInstruction) :
    (applyInstruction broker p d i).agent.counters = d.agent.counters := by
  rw [applyInstruction]
  cases i.action with
  | moveStop stop =>
      simp only
      split <;> rfl
  | partialClose lots =>
      simp only
      split_ifs
      · rfl
      · split
        · split_ifs <;> rfl
        · rfl
  | close => exact (counters_closeWhole broker _ p).trans rfl

theorem counters_manageOne (cfg : ProtectConfig) (input : ManageInput) (d : Desk σ)
    (p : Position) : (manageOne broker cfg input d p).agent.counters = d.agent.counters := by
  rw [manageOne]
  split_ifs
  · rfl
  · exact counters_closeWhole broker d p
  · split
    · rfl
    · exact (counters_foldl (counters_applyInstruction broker _) _ _).trans
        (Agent.counters_trackExcursion _ _ _ _ _)

theorem counters_managePositions (cfg : ProtectConfig) (input : ManageInput) (d : Desk σ)
    (positions : List Position) :
    (managePositions broker cfg input d positions).agent.counters = d.agent.counters := by
  refine (counters_foldl (counters_manageOne broker cfg input) _ _).trans ?_
  rw [applyProfitLock]
  split_ifs
  · exact counters_foldl (counters_profitLockOne broker input _) _ _
  · rfl

end Venue

/-! ## Orders, cycles and the ledger -/

/-- The ids of the orders that were recorded: all, and those of the current
periods. -/
structure EntryLedger where
  all : List String := []
  today : List String := []
  week : List String := []
  year : List String := []

namespace EntryLedger

/-- One more order was recorded. -/
def add (l : EntryLedger) (c : String) : EntryLedger where
  all := l.all ++ [c]
  today := l.today ++ [c]
  week := l.week ++ [c]
  year := l.year ++ [c]

def roll (l : EntryLedger) (a : Agent) (nowNs : ℤ) : EntryLedger :=
  { l with
    today := if a.dayKey = some (venueDay nowNs) then l.today else []
    week := if a.weekKey = some (isoWeek (utcDays nowNs)) then l.week else []
    year := if a.yearKey = some (civil (utcDays nowNs)).1 then l.year else [] }

end EntryLedger

/-- The agent, its venue, its order manager, and the ledger. -/
structure Trading (σ : Type) where
  desk : Desk σ
  oms : OrderManager
  ledger : EntryLedger := {}

def AgentMove.isRecord : AgentMove → Bool
  | .record _ _ _ => true
  | _ => false

/-- One thing that happens: `_execute` with the venue's answers,
`resolve_all_unknown`, a quarantine lifted by hand, or a step of the agent
without an order. -/
inductive TradingMove where
  | execute (ctx : EntryContext) (intent : OrderIntent) (decisionPrice : Option Dec)
      (replies : ℕ → Reply)
  | resolve (replies : String → Reply)
  | release (instrument : String)
  | other (m : AgentMove) (h : m.isRecord = false)

namespace Trading

variable {σ : Type} (broker : ManageVenue σ)

variable (t : Trading σ)

/-- `_execute`; an exception of `oms.submit` leaves the agent as it was. -/
def execute (ctx : EntryContext) (intent : OrderIntent)
    (decisionPrice : Option Dec) (replies : ℕ → Reply) : Trading σ :=
  match (OrderManager.submit intent decisionPrice replies).run t.oms with
  | .ok (some order) oms =>
      { desk := { t.desk with agent := t.desk.agent.record ctx intent order }
        oms
        ledger :=
          if order.state.mayBeLive then t.ledger.add intent.clientOrderId else t.ledger }
  | .ok none oms => { t with oms }
  | .error _ oms => { t with oms }

def rolled : AgentMove → EntryLedger
  | .roll nowNs _ => t.ledger.roll t.desk.agent nowNs
  | _ => t.ledger

def step (t : Trading σ) : TradingMove → Trading σ
  | .execute ctx intent decisionPrice replies => t.execute ctx intent decisionPrice replies
  | .resolve replies =>
      { t with oms := finalState (OrderManager.resolveAllUnknown replies) t.oms }
  | .release instrument =>
      { t with oms := finalState (OrderManager.releaseQuarantine instrument) t.oms }
  | .other m _ => { t with desk := t.desk.step broker m, ledger := t.rolled m }

def start (venue : σ) (supportsClientOrderId : Bool) (maxRetries : ℕ)
    (maxSlippagePips : Option Dec) : Trading σ where
  desk := ⟨{}, venue⟩
  oms := .new supportsClientOrderId maxRetries maxSlippagePips

def NoLiveRepeat : TradingMove → Prop
  | .execute _ intent _ _ =>
      intent.instrument ∈ t.oms.quarantine ∨
        ∀ order, t.oms.order? intent.clientOrderId = some order → order.state.mayBeLive = false
  | _ => True

/-! ### What one call of `_execute` does -/

theorem execute_cases (ctx : EntryContext) (intent : OrderIntent)
    (decisionPrice : Option Dec) (replies : ℕ → Reply) :
    let t' := t.execute ctx intent decisionPrice replies
    (∀ c, (t.oms.order? c).isSome → (t'.oms.order? c).isSome) ∧
      ((t'.desk = t.desk ∧ t'.ledger = t.ledger) ∨
        ∃ order, order.state.mayBeLive = true ∧
          (t'.oms.order? intent.clientOrderId).isSome ∧
          intent.instrument ∉ t.oms.quarantine ∧
          (t.oms.order? intent.clientOrderId = none ∨
            t.oms.order? intent.clientOrderId = some order) ∧
          t'.desk = { t.desk with agent := t.desk.agent.record ctx intent order } ∧
          t'.ledger = t.ledger.add intent.clientOrderId) := by
  have hgrows : ∀ om', OrderManager.SameIds (t.oms.registered intent) om' →
      ∀ c, (t.oms.order? c).isSome → (om'.order? c).isSome := by
    intro om' hids c hc
    rw [hids c, OrderManager.order?_registered]
    split_ifs
    · rfl
    · exact hc
  have hdead : ∀ order : Order, order.state.mayBeLive = false →
      ({ t.desk with agent := t.desk.agent.record ctx intent order } : Desk σ) = t.desk := by
    intro order hdead
    rw [t.desk.agent.record_of_not_mayBeLive ctx intent hdead]
  rw [execute]
  rcases OrderManager.submit_cases intent decisionPrice replies t.oms with
    ⟨-, hrun⟩ | ⟨hfree, order, horder, hrun⟩ | ⟨hfree, hnew, ⟨order, om', hrun, horder, hids⟩ |
      ⟨e, om', hrun, hids⟩⟩
  · simp only [hrun]
    exact ⟨fun _ hc => hc, .inl (by simp)⟩
  · simp only [hrun]
    refine ⟨fun _ hc => hc, ?_⟩
    cases hlive : order.state.mayBeLive with
    | false => exact .inl ⟨hdead order hlive, by simp⟩
    | true =>
        refine .inr ⟨order, hlive, ?_, hfree, .inr horder, rfl, by simp⟩
        have hkept : ((t.oms.blocked intent.clientOrderId).order? intent.clientOrderId) =
            some order := horder
        rw [hkept]
        rfl
  · simp only [hrun]
    refine ⟨hgrows om' hids, ?_⟩
    cases hlive : order.state.mayBeLive with
    | false => exact .inl ⟨hdead order hlive, by simp⟩
    | true => exact .inr ⟨order, hlive, by rw [horder]; rfl, hfree, .inl hnew, rfl, by simp⟩
  · simp only [hrun]
    exact ⟨hgrows om' hids, .inl (by simp)⟩

/-! ### The counters and the ledger -/

structure CountedOnce (t : Trading σ) : Prop where
  today : t.desk.agent.tradesToday = t.ledger.today.length
  week : t.desk.agent.tradesWeek = t.ledger.week.length
  year : t.desk.agent.tradesYear = t.ledger.year.length
  distinct : t.ledger.all.Nodup
  todaySub : t.ledger.today.Sublist t.ledger.all
  weekSub : t.ledger.week.Sublist t.ledger.all
  yearSub : t.ledger.year.Sublist t.ledger.all

structure Tallied (t : Trading σ) : Prop extends CountedOnce t where
  held : ∀ c ∈ t.ledger.all, (t.oms.order? c).isSome

variable {broker}

theorem Tallied.execute {t : Trading σ} (h : Tallied t) {ctx : EntryContext}
    {intent : OrderIntent} {decisionPrice : Option Dec} {replies : ℕ → Reply}
    (hmove : NoLiveRepeat t (.execute ctx intent decisionPrice replies)) :
    Tallied (t.execute ctx intent decisionPrice replies) := by
  obtain ⟨hgrows, hcases⟩ := t.execute_cases ctx intent decisionPrice replies
  generalize t.execute ctx intent decisionPrice replies = t' at *
  rcases hcases with ⟨hdesk, hledger⟩ | ⟨order, hlive, hheld, hfree, hbefore, hdesk, hledger⟩
  · obtain ⟨⟨htoday, hweek, hyear, hdistinct, htodaySub, hweekSub, hyearSub⟩, hids⟩ := h
    rw [← hdesk] at htoday hweek hyear
    rw [← hledger] at htoday hweek hyear hdistinct htodaySub hweekSub hyearSub hids
    exact ⟨⟨htoday, hweek, hyear, hdistinct, htodaySub, hweekSub, hyearSub⟩,
      fun c hc => hgrows c (hids c hc)⟩
  · -- the id is new: a live order is not answered again under the condition
    have hnew : t.oms.order? intent.clientOrderId = none := by
      rcases hbefore with hnew | hrepeat
      · exact hnew
      · rcases hmove with hquarantined | hdead
        · exact absurd hquarantined hfree
        · rw [hdead order hrepeat] at hlive
          cases hlive
    have hfresh : intent.clientOrderId ∉ t.ledger.all := by
      intro hmem
      have hsome := h.held _ hmem
      rw [hnew] at hsome
      cases hsome
    obtain ⟨htoday, hweek, hyear, -⟩ :=
      t.desk.agent.record_of_mayBeLive ctx intent hlive
    refine ⟨⟨?_, ?_, ?_, ?_, ?_, ?_, ?_⟩, ?_⟩
    · rw [hdesk, hledger, htoday, h.today]
      simp [EntryLedger.add]
    · rw [hdesk, hledger, hweek, h.week]
      simp [EntryLedger.add]
    · rw [hdesk, hledger, hyear, h.year]
      simp [EntryLedger.add]
    · rw [hledger]
      exact List.nodup_append.2 ⟨h.distinct, by simp, by
        intro c hc c' hc' heq
        rw [List.mem_singleton] at hc'
        rw [heq, hc'] at hc
        exact hfresh hc⟩
    · rw [hledger]
      exact h.todaySub.append (List.Sublist.refl _)
    · rw [hledger]
      exact h.weekSub.append (List.Sublist.refl _)
    · rw [hledger]
      exact h.yearSub.append (List.Sublist.refl _)
    · rw [hledger]
      intro c hc
      rcases List.mem_append.1 hc with hold | hlast
      · exact hgrows c (h.held c hold)
      · rw [List.mem_singleton] at hlast
        rw [hlast]
        exact hheld

theorem Tallied.roll {t : Trading σ} (h : Tallied t) (nowNs : ℤ) (equity : Dec) :
    Tallied { t with
      desk := { t.desk with agent := t.desk.agent.rollPeriods nowNs equity }
      ledger := t.ledger.roll t.desk.agent nowNs } := by
  obtain ⟨htoday, hweek, hyear⟩ := t.desk.agent.rollPeriods_counters nowNs equity
  refine ⟨⟨?_, ?_, ?_, h.distinct, ?_, ?_, ?_⟩, h.held⟩
  · simp only [htoday, EntryLedger.roll]
    split_ifs
    · exact h.today
    · rfl
  · simp only [hweek, EntryLedger.roll]
    split_ifs
    · exact h.week
    · rfl
  · simp only [hyear, EntryLedger.roll]
    split_ifs
    · exact h.year
    · rfl
  · simp only [EntryLedger.roll]
    split_ifs
    · exact h.todaySub
    · exact List.nil_sublist _
  · simp only [EntryLedger.roll]
    split_ifs
    · exact h.weekSub
    · exact List.nil_sublist _
  · simp only [EntryLedger.roll]
    split_ifs
    · exact h.yearSub
    · exact List.nil_sublist _

theorem Tallied.congr {t t' : Trading σ} (h : Tallied t)
    (hcounters : t'.desk.agent.counters = t.desk.agent.counters)
    (hids : OrderManager.SameIds t.oms t'.oms) (hledger : t'.ledger = t.ledger) :
    Tallied t' := by
  simp only [Agent.counters, Prod.mk.injEq] at hcounters
  obtain ⟨htoday, hweek, hyear, -⟩ := hcounters
  refine ⟨⟨?_, ?_, ?_, ?_, ?_, ?_, ?_⟩, ?_⟩
  · rw [htoday, hledger, h.today]
  · rw [hweek, hledger, h.week]
  · rw [hyear, hledger, h.year]
  · rw [hledger]
    exact h.distinct
  · rw [hledger]
    exact h.todaySub
  · rw [hledger]
    exact h.weekSub
  · rw [hledger]
    exact h.yearSub
  · rw [hledger]
    intro c hc
    rw [hids c]
    exact h.held c hc

theorem Tallied.step {t : Trading σ} (h : Tallied t) {m : TradingMove}
    (hm : NoLiveRepeat t m) : Tallied (t.step broker m) := by
  cases m with
  | execute ctx intent decisionPrice replies => exact h.execute hm
  | resolve replies =>
      exact h.congr rfl (OrderManager.sameIds_resolveAllUnknown replies t.oms) rfl
  | release instrument =>
      refine h.congr rfl (fun c => ?_) rfl
      simp only [Trading.step, OrderManager.order?, OrderManager.orders_releaseQuarantine]
  | other m hother =>
      cases m with
      | record ctx intent order => cases hother
      | roll nowNs equity => exact h.roll nowNs equity
      | peaks cfg balance equity =>
          exact h.congr (Agent.counters_markPeaks _ _ _ _) (fun _ => rfl) rfl
      | mark nowNs equity => exact h.congr rfl (fun _ => rfl) rfl
      | hydrate positions =>
          exact h.congr (Agent.counters_hydrate _ _) (fun _ => rfl) rfl
      | manage cfg input positions =>
          exact h.congr (counters_managePositions broker cfg input t.desk positions)
            (fun _ => rfl) rfl
      | forget stillOpen => exact h.congr rfl (fun _ => rfl) rfl
      | halt reason => exact h.congr (Agent.counters_halt _ _) (fun _ => rfl) rfl
      | resume => exact h.congr (Agent.counters_resume _) (fun _ => rfl) rfl

/-- In a run that never submits an id again while its order is held as live or
as one that may be, each counter is the number of distinct ids recorded in its
period; and a call of `_execute` either leaves the agent and the ledger as they
were, or records an id that is new: it is dated, counted once, and its entry is
written. -/
theorem trades_counted {venue : σ} {supportsClientOrderId : Bool} {maxRetries : ℕ}
    {maxSlippagePips : Option Dec} {moves : List TradingMove}
    (hmoves : Along (step broker) NoLiveRepeat
      (start venue supportsClientOrderId maxRetries maxSlippagePips) moves) :
    let t := moves.foldl (step broker)
      (start venue supportsClientOrderId maxRetries maxSlippagePips)
    CountedOnce t ∧
      ∀ ctx intent decisionPrice replies,
        NoLiveRepeat t (.execute ctx intent decisionPrice replies) →
        let t' := t.execute ctx intent decisionPrice replies
        (t'.desk = t.desk ∧ t'.ledger = t.ledger) ∨
          ∃ order, order.state.mayBeLive = true ∧ intent.clientOrderId ∉ t.ledger.all ∧
            t.oms.order? intent.clientOrderId = none ∧
            t'.desk = { t.desk with agent := t.desk.agent.record ctx intent order } ∧
            t'.ledger = t.ledger.add intent.clientOrderId := by
  have hstart : Tallied (start venue supportsClientOrderId maxRetries maxSlippagePips) :=
    ⟨⟨rfl, rfl, rfl, List.nodup_nil, List.nil_sublist _, List.nil_sublist _,
      List.nil_sublist _⟩, by simp [start]⟩
  have htallied := Along.invariant (I := Tallied) (fun t m ht hm => ht.step hm) hstart hmoves
  refine ⟨htallied.toCountedOnce, ?_⟩
  intro ctx intent decisionPrice replies hnext
  have hcases := (execute_cases (moves.foldl (step broker)
    (start venue supportsClientOrderId maxRetries maxSlippagePips)) ctx intent decisionPrice
      replies).2
  rcases hcases with hsame | ⟨order, hlive, -, hfree, hbefore, hdesk, hledger⟩
  · exact .inl hsame
  · rcases hbefore with hnew | hrepeat
    · refine .inr ⟨order, hlive, ?_, hnew, hdesk, hledger⟩
      intro hmem
      have hsome := htallied.held _ hmem
      rw [hnew] at hsome
      cases hsome
    · rcases hnext with hquarantined | hdead
      · exact absurd hquarantined hfree
      · rw [hdead order hrepeat] at hlive
        cases hlive

end Trading

/-! ## One id, sent, lost and repeated -/

def marketBuy : OrderIntent where
  clientOrderId := "SFX3"
  strategy := "trend"
  instrument := "EUR_USD"
  side := .buy
  lots := 1
  stopLoss := some (109 / 100)
  riskAmount := 1000
  accepted := by decide +kernel

/-- `_execute` with the order, answered the same way on every attempt. -/
def buyWith (submit : SubmitOutcome) (query : QueryOutcome) : TradingMove :=
  .execute { nowNs := 0, instruments := .empty, conversion := fun _ => none } marketBuy none
    fun _ => ⟨submit, query, {}⟩

def boughtResult : SubmitResult where
  state := .filled
  fills := [{ venueOrderId := "3", lots := 1, price := 11 / 10 }]

/-- An order that is filled at once is counted once. -/
theorem trades_counted_filled :
    let t := [buyWith (.returned boughtResult) .notFound].foldl
      (Trading.step obligingMt5.broker) (Trading.start [] true 2 none)
    t.ledger.all = ["SFX3"] ∧ t.CountedOnce := by
  have hmoves : Along (Trading.step obligingMt5.broker) Trading.NoLiveRepeat
      (Trading.start [] true 2 none) [buyWith (.returned boughtResult) .notFound] := by
    refine ⟨.inr fun order horder => ?_, trivial⟩
    cases horder
  exact ⟨by decide +kernel, (Trading.trades_counted hmoves).1⟩

/-- The venue never had the order, and says so once it is asked: it was counted
all the same.  A filled order that is submitted again is counted twice. -/
theorem not_trades_counted_lost :
    let t := [buyWith (.unknownOutcome "read timeout") .notFound,
        .resolve fun _ => ⟨.returned boughtResult, .returned { state := .rejected }, {}⟩].foldl
      (Trading.step obligingMt5.broker) (Trading.start [] true 2 none)
    let t' := [buyWith (.returned boughtResult) .notFound,
        buyWith (.returned boughtResult) .notFound].foldl
      (Trading.step obligingMt5.broker) (Trading.start [] true 2 none)
    ((t.oms.order? "SFX3").map (fun o => (o.state, o.fills)) = some (.rejected, []) ∧
      t.desk.agent.tradesToday = 1) ∧
    (t'.oms.orders.keys = ["SFX3"] ∧ t'.desk.agent.tradesToday = 2) := by
  decide +kernel

end Sentinel
