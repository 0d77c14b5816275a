import Sentinel.Agent.Agreement
import Sentinel.Brokers.Paper

/-!
# A restart that changes no decision

The agent `_load_state` makes of what `_save_state` wrote agrees with the saved
one, unless an entry has no key at all: such an entry is false to `_hydrate`
before the restart, and afterwards names the side "".
-/

namespace Sentinel

variable {σ : Type}

/-! ## Every step keeps the agreement -/

namespace Agent

namespace Agrees

variable {a b : Agent}

theorem rollPeriods (h : Agrees a b) (nowNs : ℤ) (equity : Dec) :
    Agrees (a.rollPeriods nowNs equity) (b.rollPeriods nowNs equity) := by
  have hday := h.of_budgets_unless (P := fun c => c.dayKey = some (venueDay nowNs))
    (f := fun c => { c with
      dayKey := some (venueDay nowNs), dayStartEquity := equity
      tradesToday := 0, dayProfitLocked := false })
    (fun _ => Iff.rfl) fun _ => ⟨rfl, rfl, rfl, rfl⟩
  have hweek := hday.of_budgets_unless (P := fun c => c.weekKey = some (isoWeek (utcDays nowNs)))
    (f := fun c => { c with
      weekKey := some (isoWeek (utcDays nowNs)), weekStartEquity := equity, tradesWeek := 0 })
    (fun _ => Iff.rfl) fun _ => ⟨rfl, rfl, rfl, rfl⟩
  have hmonth := hweek.of_budgets_unless (P := fun c => c.monthKey = some (civil (utcDays nowNs)))
    (f := fun c => { c with
      monthKey := some (civil (utcDays nowNs)), monthStartEquity := equity })
    (fun _ => Iff.rfl) fun _ => ⟨rfl, rfl, rfl, rfl⟩
  exact hmonth.of_budgets_unless (P := fun c => c.yearKey = some (civil (utcDays nowNs)).1)
    (f := fun c => { c with yearKey := some (civil (utcDays nowNs)).1, tradesYear := 0 })
    (fun _ => Iff.rfl) fun _ => ⟨rfl, rfl, rfl, rfl⟩

theorem markPeaks (h : Agrees a b) (cfg : RiskConfig) (balance equity : Dec) :
    Agrees (a.markPeaks cfg balance equity) (b.markPeaks cfg balance equity) := by
  have hpeak : a.equityPeak = b.equityPeak := by
    have hbudgets := congrArg Agent.equityPeak h.budgets
    exact hbudgets
  have hmarked := h.of_budgets (f := fun c => { c with
    equityPeak := max c.equityPeak balance
    equityPeakMarked := max c.equityPeakMarked equity }) fun _ => ⟨rfl, rfl, rfl, rfl⟩
  unfold Agent.markPeaks
  simp only [hpeak] at hmarked ⊢
  split_ifs
  · exact hmarked.of_budgets (f := fun c => { c with
      ladderRung := Sentinel.ladderRung
        ((max b.equityPeak balance - equity) / max b.equityPeak balance * 100) cfg.ladder
        c.ladderRung.toNat cfg.ladderHysteresisPct }) fun _ => ⟨rfl, rfl, rfl, rfl⟩
  · exact hmarked

theorem rolling24hPnl (h : Agrees a b) (nowNs : ℤ) (equity : Dec) :
    Agrees (a.rolling24hPnl nowNs equity).1 (b.rolling24hPnl nowNs equity).1 ∧
      (a.rolling24hPnl nowNs equity).2 = (b.rolling24hPnl nowNs equity).2 := by
  refine ⟨h.of_budgets (f := fun c => (c.rolling24hPnl nowNs equity).1) fun c =>
    ⟨rfl, rfl, rfl, rfl⟩, ?_⟩
  have hmarks := congrArg (fun c : Agent => (c.rolling24hPnl nowNs equity).2) h.budgets
  exact hmarks

theorem countEntry (h : Agrees a b) (nowNs : ℤ) :
    Agrees (a.countEntry nowNs) (b.countEntry nowNs) :=
  h.of_budgets (f := fun c => c.countEntry nowNs) fun _ => ⟨rfl, rfl, rfl, rfl⟩

theorem setEntry (h : Agrees a b) (symbol : String) (m : PositionMeta) :
    Agrees { a with positionMeta := a.positionMeta.set symbol m }
      { b with positionMeta := b.positionMeta.set symbol m } := by
  refine h.withMeta fun other => ?_
  rw [Dict.get?_set, Dict.get?_set]
  split_ifs
  · exact .refl _
  · exact h.entries other

theorem record (h : Agrees a b) (ctx : EntryContext) (intent : OrderIntent) (order : Order) :
    Agrees (a.record ctx intent order) (b.record ctx intent order) := by
  have hcounted := h.countEntry ctx.nowNs
  unfold Agent.record
  simp only
  split_ifs
  · exact hcounted.setEntry intent.instrument _
  · have hregime := hcounted.of_budgets
      (f := fun c => { c with entryRegime := c.entryRegime.set intent.instrument ctx.regime })
      fun _ => ⟨rfl, rfl, rfl, rfl⟩
    exact hregime.setEntry intent.instrument _
  · exact hcounted
  · exact h

theorem stale (h : Agrees a b) (p : Position) : a.stale p = b.stale p := by
  have hread : ∀ c : Agent, c.stale p =
      ((c.entry p.instrument).truthy &&
        decide ((c.entry p.instrument).sideText ≠ p.side.value)) := by
    intro c
    rw [Agent.stale, Agent.entry]
    cases c.positionMeta.get? p.instrument <;> simp
  have halike := h.entries p.instrument
  rw [hread, hread, halike.truthy, halike.sideText]

theorem hydrateOne (h : Agrees a b) (p : Position) :
    Agrees (a.hydrateOne p).1 (b.hydrateOne p).1 ∧ (a.hydrateOne p).2 = (b.hydrateOne p).2 := by
  have hread : ∀ c : Agent, c.stale p = false → c.hydrateOne p =
      (c, if (c.entry p.instrument).truthy then attach (c.entry p.instrument) p else p) := by
    intro c hstale
    rw [Agent.hydrateOne, Agent.entry]
    rw [hstale]
    cases c.positionMeta.get? p.instrument <;> simp
  have hstale := h.stale p
  cases hcase : a.stale p with
  | true =>
      rw [hcase] at hstale
      unfold Agent.hydrateOne
      rw [hcase, ← hstale]
      exact ⟨(h.eraseEntry p.instrument).halt _, rfl⟩
  | false =>
      rw [hcase] at hstale
      rw [hread a hcase, hread b hstale.symm]
      have halike := h.entries p.instrument
      exact ⟨h, by rw [halike.truthy, halike.attach]⟩

theorem hydrateAll (h : Agrees a b) (positions : List Position) :
    Agrees (a.hydrateAll positions).1 (b.hydrateAll positions).1 ∧
      (a.hydrateAll positions).2 = (b.hydrateAll positions).2 := by
  induction positions generalizing a b with
  | nil => exact ⟨h, rfl⟩
  | cons p positions ih =>
      obtain ⟨hnext, hout⟩ := h.hydrateOne p
      obtain ⟨hlast, hrest⟩ := ih hnext
      simp only [Agent.hydrateAll]
      exact ⟨hlast, by rw [hout, hrest]⟩

theorem attachExcursions (h : Agrees a b) (p : Position) :
    a.attachExcursions p = b.attachExcursions p := by
  have hread : ∀ c : Agent, c.attachExcursions p =
      if (c.entry p.instrument).truthy then
        { p with maxFavourable := (c.entry p.instrument).maxFavourable.getD 0
                 maxAdverse := (c.entry p.instrument).maxAdverse.getD 0 }
      else p := by
    intro c
    rw [Agent.attachExcursions, Agent.entry]
    cases c.positionMeta.get? p.instrument <;> simp
  have halike := h.entries p.instrument
  rw [hread, hread, halike.truthy, halike.maxFavourable, halike.maxAdverse]

theorem hydrate (h : Agrees a b) (positions : List Position) :
    Agrees (a.hydrate positions).1 (b.hydrate positions).1 ∧
      (a.hydrate positions).2 = (b.hydrate positions).2 := by
  obtain ⟨hchecked, hout⟩ := h.hydrateAll positions
  have hpruned := hchecked.restrictEntries fun symbol =>
    decide (symbol ∈ positions.map Position.instrument)
  refine ⟨hpruned, ?_⟩
  simp only [Agent.hydrate]
  rw [hout]
  exact List.map_congr_left fun p _ => hpruned.attachExcursions p

theorem trackExcursion (h : Agrees a b) (p : Position) (quote : Quote) (inst : Instrument)
    (conversion : Dec) :
    Agrees (a.trackExcursion p quote inst conversion).1
        (b.trackExcursion p quote inst conversion).1 ∧
      (a.trackExcursion p quote inst conversion).2 =
        (b.trackExcursion p quote inst conversion).2 := by
  have halike := h.entries p.instrument
  have hbest := halike.maxFavourable
  have hworst := halike.maxAdverse
  unfold Agent.entry at hbest hworst
  unfold Agent.trackExcursion
  cases p.rMultiple quote inst conversion with
  | none => exact ⟨h, rfl⟩
  | some r =>
      simp only [hbest, hworst]
      exact ⟨h.updateMeta p.instrument (PositionMeta.respects_excursions _ _ _), trivial⟩

theorem maxHoldSec (h : Agrees a b) (cfg : ProtectConfig) (p : Position) :
    a.maxHoldSec cfg p = b.maxHoldSec cfg p := by
  have hread : ∀ c : Agent, c.maxHoldSec cfg p =
      if 0 < cfg.maxHoldSec then cfg.maxHoldSec
      else (c.entry p.instrument).maxHoldSec.getD 0 := by
    intro c
    rw [Agent.maxHoldSec, Agent.entry]
    cases c.positionMeta.get? p.instrument <;> rfl
  rw [hread, hread, (h.entries p.instrument).maxHoldSec]

end Agrees

end Agent

/-! ## Position management -/

namespace Desk

structure Agrees (d e : Desk σ) : Prop where
  agent : d.agent.Agrees e.agent
  venue : d.venue = e.venue

namespace Agrees

variable (broker : ManageVenue σ) {d e : Desk σ}

theorem profitLockOne (h : Agrees d e) (input : ManageInput) (share : Dec) (p : Position) :
    Agrees (profitLockOne broker input share d p) (profitLockOne broker input share e p) := by
  unfold Sentinel.profitLockOne
  rw [h.venue]
  split
  · exact h
  · split
    · exact ⟨h.agent.updateMeta _ (PositionMeta.respects_stopLoss _), rfl⟩
    · exact ⟨h.agent, rfl⟩

theorem foldl {α : Type} {f : Desk σ → α → Desk σ} (hf : ∀ d e x, Agrees d e →
    Agrees (f d x) (f e x)) (h : Agrees d e) (l : List α) :
    Agrees (l.foldl f d) (l.foldl f e) := by
  induction l generalizing d e with
  | nil => exact h
  | cons x l ih => exact ih (hf _ _ x h)

theorem applyProfitLock (h : Agrees d e) (cfg : ProtectConfig) (input : ManageInput)
    (positions : List Position) :
    Agrees (applyProfitLock broker cfg input d positions)
      (applyProfitLock broker cfg input e positions) := by
  have hlocked : d.agent.dayProfitLocked = e.agent.dayProfitLocked := by
    have hbudgets := congrArg Agent.dayProfitLocked h.agent.budgets
    exact hbudgets
  have hengaged : profitLockEngaged cfg input d.agent = profitLockEngaged cfg input e.agent := by
    unfold profitLockEngaged
    rw [hlocked]
  unfold Sentinel.applyProfitLock
  rw [hengaged]
  split_ifs
  · have hflag := h.agent.of_budgets (f := fun c => { c with dayProfitLocked := true })
      fun _ => ⟨rfl, rfl, rfl, rfl⟩
    have hstart : Agrees (⟨{ d.agent with dayProfitLocked := true }, d.venue⟩ : Desk σ)
        ⟨{ e.agent with dayProfitLocked := true }, e.venue⟩ := ⟨hflag, h.venue⟩
    exact foldl (fun _ _ p hde => hde.profitLockOne broker input _ p) hstart _
  · exact h

theorem closeWhole (h : Agrees d e) (p : Position) :
    Agrees (closeWhole broker d p).1 (closeWhole broker e p).1 := by
  unfold Sentinel.closeWhole
  rw [h.venue]
  split
  · exact ⟨h.agent.halt _, rfl⟩
  · simp only
    split_ifs
    · exact ⟨h.agent.halt _, rfl⟩
    · exact ⟨h.agent.eraseEntry _, rfl⟩
    · exact ⟨h.agent.halt _, rfl⟩

theorem applyInstruction (h : Agrees d e) (p : Position) (i : ProtectInstruction) :
    Agrees (applyInstruction broker p d i) (applyInstruction broker p e i) := by
  have hentry := h.agent.updateMeta p.instrument PositionMeta.respects_id
  unfold Sentinel.applyInstruction
  cases i.action with
  | moveStop stop =>
      simp only [h.venue]
      split
      · exact ⟨hentry.updateMeta _ (PositionMeta.respects_stopMoved _ _), rfl⟩
      · exact ⟨hentry, rfl⟩
  | partialClose lots =>
      simp only [h.venue]
      split_ifs
      · exact ⟨hentry, rfl⟩
      · split
        · split_ifs
          · exact ⟨hentry.updateMeta _ (PositionMeta.respects_partialTaken _ _), rfl⟩
          · exact ⟨hentry, rfl⟩
        · exact ⟨hentry, rfl⟩
  | close =>
      have hstart : Agrees (⟨d.agent.updateMeta p.instrument id, d.venue⟩ : Desk σ)
          ⟨e.agent.updateMeta p.instrument id, e.venue⟩ := ⟨hentry, h.venue⟩
      exact hstart.closeWhole broker p

theorem manageOne (h : Agrees d e) (cfg : ProtectConfig) (input : ManageInput) (p : Position) :
    Agrees (manageOne broker cfg input d p) (manageOne broker cfg input e p) := by
  have hexit : timedExit cfg input d.agent p = timedExit cfg input e.agent p := by
    unfold timedExit
    rw [h.agent.maxHoldSec]
  unfold Sentinel.manageOne
  rw [hexit]
  split_ifs
  · exact h
  · exact h.closeWhole broker p
  · split
    · exact h
    · rename_i inst quote conversion hpricing
      obtain ⟨hagent, hposition⟩ := h.agent.trackExcursion p quote inst conversion
      simp only [hposition]
      have hstart : Agrees
          (⟨(d.agent.trackExcursion p quote inst conversion).1, d.venue⟩ : Desk σ)
          ⟨(e.agent.trackExcursion p quote inst conversion).1, e.venue⟩ := ⟨hagent, h.venue⟩
      exact foldl (fun _ _ i hde => hde.applyInstruction broker _ i) hstart _

theorem managePositions (h : Agrees d e) (cfg : ProtectConfig) (input : ManageInput)
    (positions : List Position) :
    Agrees (managePositions broker cfg input d positions)
      (managePositions broker cfg input e positions) :=
  foldl (fun _ _ p hde => hde.manageOne broker cfg input p)
    (h.applyProfitLock broker cfg input positions) _

/-! ## Runs -/

theorem move (h : Agrees d e) (m : AgentMove) :
    Agrees (d.move broker m).1 (e.move broker m).1 ∧
      (d.move broker m).2 = (e.move broker m).2 := by
  cases m with
  | roll nowNs equity => exact ⟨⟨h.agent.rollPeriods nowNs equity, h.venue⟩, rfl⟩
  | peaks cfg balance equity => exact ⟨⟨h.agent.markPeaks cfg balance equity, h.venue⟩, rfl⟩
  | mark nowNs equity =>
      obtain ⟨hagent, hamount⟩ := h.agent.rolling24hPnl nowNs equity
      exact ⟨⟨hagent, h.venue⟩, congrArg AgentAnswer.pnl hamount⟩
  | hydrate positions =>
      obtain ⟨hagent, hcompleted⟩ := h.agent.hydrate positions
      exact ⟨⟨hagent, h.venue⟩, congrArg AgentAnswer.positions hcompleted⟩
  | manage cfg input positions => exact ⟨h.managePositions broker cfg input positions, rfl⟩
  | record ctx intent order => exact ⟨⟨h.agent.record ctx intent order, h.venue⟩, rfl⟩
  | forget stillOpen => exact ⟨⟨h.agent.restrictEntries _, h.venue⟩, rfl⟩
  | halt reason => exact ⟨⟨h.agent.halt reason, h.venue⟩, rfl⟩
  | resume => exact ⟨⟨h.agent.resume, h.venue⟩, rfl⟩

theorem run (h : Agrees d e) (moves : List AgentMove) :
    Agrees (d.run broker moves) (e.run broker moves) ∧
      d.answers broker moves = e.answers broker moves := by
  induction moves generalizing d e with
  | nil => exact ⟨h, rfl⟩
  | cons m moves ih =>
      obtain ⟨hnext, hanswer⟩ := h.move broker m
      obtain ⟨hlast, hanswers⟩ := ih hnext
      refine ⟨hlast, ?_⟩
      simp only [answers, hanswer]
      exact congrArg _ hanswers

end Agrees

end Desk

/-! ## Restarts -/

/-- Whatever happens next, the agents answer alike, do the same to the venue,
and keep the same budgets, halts and rows of their own book. -/
def Transparent (s t : Agent) : Prop :=
  ∀ (σ : Type) (broker : ManageVenue σ) (venue : σ) (moves : List AgentMove),
    let d := Desk.run broker ⟨s, venue⟩ moves
    let e := Desk.run broker ⟨t, venue⟩ moves
    Desk.answers broker ⟨s, venue⟩ moves = Desk.answers broker ⟨t, venue⟩ moves ∧
      d.venue = e.venue ∧ d.agent.budgets = e.agent.budgets ∧
      (d.agent.halted = true → d.agent.haltReason = e.agent.haltReason) ∧
      ∀ symbol, Agent.bookRow symbol (d.agent.entry symbol) =
        Agent.bookRow symbol (e.agent.entry symbol)

theorem transparent_of_agrees {s t : Agent} (h : s.Agrees t) : Transparent s t := by
  intro σ broker venue moves
  have hdesk : Desk.Agrees (⟨s, venue⟩ : Desk σ) ⟨t, venue⟩ := ⟨h, rfl⟩
  obtain ⟨hlast, hanswers⟩ := hdesk.run broker moves
  exact ⟨hanswers, hlast.venue, hlast.agent.budgets, hlast.agent.reason,
    fun symbol => hlast.agent.bookRow symbol⟩

theorem Agent.agrees_restored {s : Agent}
    (h : ∀ symbol m, s.positionMeta.get? symbol = some m → m ≠ .empty) :
    s.Agrees s.restored where
  budgets := rfl
  reason hhalted := by simp [Agent.restored, hhalted]
  entries symbol := by
    unfold Agent.entry Agent.restored
    rw [Dict.get?_mapValues]
    cases hget : s.positionMeta.get? symbol with
    | none => exact .refl _
    | some m => exact PositionMeta.alike_restored (h symbol m hget)

def deafVenue : ManageVenue Unit where
  instruments := .empty
  modifyPosition v _ _ := (.ok false, v)
  closePosition v _ _ := (.ok { state := .rejected }, v)
  positions _ := .ok []

theorem not_transparent_of_empty {s : Agent} {symbol : String}
    (h : s.positionMeta.get? symbol = some .empty) : ¬Transparent s s.restored := by
  intro htransparent
  let p : Position := { instrument := symbol, side := .buy, lots := 1, entryPrice := 1 }
  have hbudgets := (htransparent Unit deafVenue () [.resume, .hydrate [p]]).2.2.1
  have hhalted := congrArg Agent.halted hbudgets
  have hbefore : (s.resume.hydrate [p]).1.halted = false := by
    have hstale : s.resume.stale p = false := by
      simp [Agent.stale, p, h]
    simp [Agent.hydrate, Agent.hydrateAll, Agent.hydrateOne, hstale, p, h, Agent.prune]
  have hafter : (s.restored.resume.hydrate [p]).1.halted = true := by
    have hentry : s.restored.positionMeta.get? symbol = some PositionMeta.empty.restored := by
      simp [Agent.restored, h]
    have hside : PositionMeta.empty.restored.sideText = "" := rfl
    have hstale : s.restored.resume.stale p = true := by
      simp [Agent.stale, p, hentry, hside, (Side.value_ne_empty .buy).symm]
    simp [Agent.hydrate, Agent.hydrateAll, Agent.hydrateOne, hstale, Agent.prune]
  have hruns : (s.resume.hydrate [p]).1.halted = (s.restored.resume.hydrate [p]).1.halted :=
    hhalted
  rw [hbefore, hafter] at hruns
  cases hruns

/-- The state that was saved loads, and decides as the saved one did, exactly
when no entry is without keys. -/
theorem restart_transparent_iff (s : Agent) :
    (∃ t, ({} : Agent).load (.saved s.save) = .ok (t, true) ∧ Transparent s t) ↔
      ∀ symbol m, s.positionMeta.get? symbol = some m → m ≠ .empty := by
  rw [Agent.load_save]
  constructor
  · rintro ⟨t, hload, htransparent⟩ symbol m hget rfl
    obtain rfl : s.restored = t := by simpa using hload
    exact not_transparent_of_empty hget htransparent
  · intro hkeys
    exact ⟨s.restored, rfl, transparent_of_agrees (Agent.agrees_restored hkeys)⟩

theorem adoptedRisk_nonneg : (0 : Dec) ≤ 1000 := by norm_num

def adoptedPosition : Position :=
  { instrument := "EUR_USD", side := .buy, lots := 1, entryPrice := 11 / 10
    stopLoss := some (109 / 100), initialRisk := 1000, initialRisk_nonneg := adoptedRisk_nonneg }

def adoptedDesk : Desk Paper.Venue :=
  Desk.run
    (Paper.broker (.ofEntries
      [("EUR_USD", { symbol := "EUR_USD", base := "EUR", quote := "USD" })]))
    ⟨{}, { positions := .ofEntries [("EUR_USD", adoptedPosition)], quotes := .empty }⟩
    [.hydrate [adoptedPosition],
     .manage {}
      { nowNs := 0
        nyOffset := fun _ => -14400
        quote := fun _ => some { instrument := "EUR_USD", bid := 11 / 10, ask := 11001 / 10000 }
        conversion := fun _ => some 1
        dayPnl := 0
        dayPnlPct := 0
        atr := fun _ => none
        costModel := fun _ => none }
      [adoptedPosition]]

/-- Tracking the adopted position at its entry leaves an entry without keys. -/
theorem not_transparent_adoptedAtEntry :
    ¬∃ t, ({} : Agent).load (.saved adoptedDesk.agent.save) = .ok (t, true) ∧
      Transparent adoptedDesk.agent t := by
  rw [Agent.load_save]
  rintro ⟨t, hload, htransparent⟩
  obtain rfl : adoptedDesk.agent.restored = t := by simpa using hload
  have hempty : adoptedDesk.agent.positionMeta.get? "EUR_USD" = some .empty := by
    decide +kernel
  exact not_transparent_of_empty hempty htransparent

end Sentinel
