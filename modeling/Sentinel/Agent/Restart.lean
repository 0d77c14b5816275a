import Mathlib.Data.String.Basic
import Sentinel.Agent.Persistence
import Sentinel.Execution.OrderManager

/-!
# What a start establishes

A started agent halts for a state file that says so or cannot be used, for a
journal or a book it cannot read, for an order nobody can account for, and for
every position at the venue, since it compares the venue with an empty book.
An answer that leaves an order working is none of these.

`start` loads the saved state, asks the venue about every order the journal
shows as sent without an end, and reconciles before anything else.  What the
disk, the journal and the venue answer is one record.
-/

namespace Sentinel

/-- The world `start` reads. -/
structure StartWorld (σ : Type) where
  stateFile : StateFile
  /-- the `OSError` of a write of the state file -/
  writeError : Option String := none
  /-- the journal's records, or why they cannot be read -/
  journal : Except String (List JournalEntry)
  /-- `broker.query_order` -/
  queryOrder : String → QueryOutcome
  broker : ReconcileVenue σ
  venue : σ
  /-- `broker.account()` after the reconciliation -/
  account : Except String AccountState

/-! ## `_unterminated_orders_from_journal` -/

def EventType.terminal : EventType → Bool
  | .orderFilled | .orderRejected | .orderCancelled => true
  | _ => false

/-- The client order ids of the records whose event satisfies `p`. -/
def idsOf (p : EventType → Bool) (entries : List JournalEntry) : List String :=
  entries.filterMap fun entry =>
    if p entry.event then entry.clientOrderId.filter fun c => c ≠ "" else none

/-- `sorted(sent - done)`. -/
def unterminated (entries : List JournalEntry) : List String :=
  ((idsOf (fun event => event = .orderSent) entries).dedup.filter fun c =>
    c ∉ idsOf EventType.terminal entries).mergeSort

theorem mem_idsOf (p : EventType → Bool) (entries : List JournalEntry) (c : String) :
    c ∈ idsOf p entries ↔
      c ≠ "" ∧ ∃ entry ∈ entries, p entry.event = true ∧ entry.clientOrderId = some c := by
  unfold idsOf
  simp only [List.mem_filterMap]
  constructor
  · rintro ⟨entry, hentry, hc⟩
    split_ifs at hc with hp
    rw [Option.filter_eq_some_iff] at hc
    exact ⟨by simpa using hc.2, entry, hentry, hp, hc.1⟩
  · rintro ⟨hne, entry, hentry, hp, hc⟩
    exact ⟨entry, hentry, by simp [hp, hc, hne]⟩

theorem mem_unterminated (entries : List JournalEntry) (c : String) :
    c ∈ unterminated entries ↔
      c ≠ "" ∧ ⟨.orderSent, some c⟩ ∈ entries ∧
        ∀ entry ∈ entries, entry.event.terminal = true → entry.clientOrderId ≠ some c := by
  unfold unterminated
  rw [List.mem_mergeSort, List.mem_filter, List.mem_dedup, mem_idsOf, decide_eq_true_iff,
    mem_idsOf]
  constructor
  · rintro ⟨⟨hne, ⟨event, id⟩, hmem, hevent, hid⟩, hopen⟩
    simp only [decide_eq_true_eq] at hevent hid
    subst hevent hid
    refine ⟨hne, hmem, ?_⟩
    intro entry hentry hterminal hsame
    exact hopen ⟨hne, entry, hentry, hterminal, hsame⟩
  · rintro ⟨hne, hmem, hopen⟩
    refine ⟨⟨hne, _, hmem, by simp, rfl⟩, ?_⟩
    rintro ⟨-, entry, hentry, hterminal, hsame⟩
    exact hopen entry hentry hterminal hsame

/-! ## `start` -/

namespace QueryOutcome

/-- `res is None`: no record, or the query raised. -/
def unanswered : QueryOutcome → Bool
  | .returned _ => false
  | .notFound | .brokerError _ | .otherError _ => true

def TerminalAnswer (q : QueryOutcome) : Prop :=
  ∃ result, q = .returned result ∧ result.state.terminal = true

instance (q : QueryOutcome) : Decidable q.TerminalAnswer :=
  match q with
  | .returned result =>
      decidable_of_iff (result.state.terminal = true) <| by
        simp [TerminalAnswer]
  | .notFound => .isFalse <| by simp [TerminalAnswer]
  | .brokerError _ => .isFalse <| by simp [TerminalAnswer]
  | .otherError _ => .isFalse <| by simp [TerminalAnswer]

end QueryOutcome

namespace Agent

def unreadableJournal (error : String) : String :=
  "the order journal cannot be read (" ++ error ++ "); orders sent before the last restart " ++
    "cannot be resolved, so no new risk is taken"

def noRecord (c : String) : String :=
  "order " ++ c ++ " was sent before the last restart and the venue has no record of it; " ++
    "a human must confirm the account state"

def startupMismatch (report : ReconcileReport) : String :=
  "startup reconciliation found a state that needs a human: " ++
    "; ".intercalate (report.mismatches.map fun m => m.kind.value)

def unterminatedFromJournal (a : Agent) (journal : Except String (List JournalEntry)) :
    Agent × List String :=
  match journal with
  | .error error => (a.halt (unreadableJournal error), [])
  | .ok entries => (a, unterminated entries)

def queryAtStart (queryOrder : String → QueryOutcome) (a : Agent) (c : String) : Agent :=
  if (queryOrder c).unanswered then a.halt (noRecord c) else a

def setBaselines (a : Agent) (restored : Bool) (account : AccountState) : Agent :=
  if restored then
    let peak := max a.equityPeak 0
    let orEquity (baseline : Dec) : Dec := if baseline ≤ 0 then account.equity else baseline
    { a with
      equityPeak := if peak ≤ 0 then account.equity else peak
      dayStartEquity := orEquity a.dayStartEquity
      weekStartEquity := orEquity a.weekStartEquity
      monthStartEquity := orEquity a.monthStartEquity }
  else
    { a with
      equityPeak := account.balance
      dayStartEquity := account.equity
      weekStartEquity := account.equity
      monthStartEquity := account.equity }

/-- What makes `start` raise. -/
inductive StartError where
  | load (error : LoadError)
  | broker (message : String)

/-- `start` of a new process, with the report of its reconciliation. -/
def start {σ : Type} (w : StartWorld σ) : Except StartError (Agent × ReconcileReport) :=
  match ({} : Agent).load w.stateFile with
  | .error error => .error (.load error)
  | .ok (loaded, restored) =>
      let (agent, orders) := loaded.unterminatedFromJournal w.journal
      let queried := orders.foldl (queryAtStart w.queryOrder) agent
      -- no local positions are passed
      match reconcile w.broker {} [] [] w.venue with
      | .error message => .error (.broker message)
      | .ok reconciled =>
          let checked :=
            if reconciled.report.haltRequired then
              queried.halt (startupMismatch reconciled.report)
            else queried
          match w.account with
          | .error message => .error (.broker message)
          | .ok account =>
              .ok ((checked.setBaselines restored account).afterSave w.writeError,
                reconciled.report)

end Agent

end Sentinel

namespace Sentinel

section Start

variable {σ : Type} {w : StartWorld σ} {a : Agent} {report : ReconcileReport}

def SentWithoutEnd (entries : List JournalEntry) (c : String) : Prop :=
  c ≠ "" ∧ ⟨.orderSent, some c⟩ ∈ entries ∧
    ∀ entry ∈ entries, entry.event.terminal = true → entry.clientOrderId ≠ some c

def OrdersSettled (w : StartWorld σ) (a : Agent) : Prop :=
  ∀ entries, w.journal = .ok entries → ∀ c, SentWithoutEnd entries c →
    (w.queryOrder c).TerminalAnswer ∨ a.halted = true

def StateFile.halts : StateFile → Bool
  | .absent => false
  | .unreadable _ => true
  | .saved s => s.halted

namespace StartWorld

variable (w : StartWorld σ)

def AnswersTerminal : Prop :=
  ∀ entries, w.journal = .ok entries → ∀ c, SentWithoutEnd entries c →
    (w.queryOrder c).TerminalAnswer

/-- Some such order is answered by nothing: the venue has no record of it, or
the query fails. -/
def LeavesUnanswered : Prop :=
  ∃ entries, w.journal = .ok entries ∧ ∃ c, SentWithoutEnd entries c ∧
    (w.queryOrder c).unanswered = true

def StateHalts : Prop :=
  w.writeError ≠ none ∨ w.stateFile.halts = true

def BookHalts : Prop :=
  ∀ book, w.broker.book w.venue = .ok book → book.positions ≠ []

def JournalHalts : Prop :=
  ∀ entries, w.journal ≠ .ok entries

end StartWorld

/-! ## The halts of a start -/

theorem mem_unterminated_iff (entries : List JournalEntry) (c : String) :
    c ∈ unterminated entries ↔ SentWithoutEnd entries c :=
  mem_unterminated entries c

namespace Agent

variable (b : Agent)

theorem halt_halted_iff (reason : String) {condition : Prop} [Decidable condition] :
    (if condition then b.halt reason else b).halted = true ↔ b.halted = true ∨ condition := by
  split_ifs with h <;> simp [h]

theorem foldl_queryAtStart_halted_iff (queryOrder : String → QueryOutcome)
    (orders : List String) (b : Agent) :
    (orders.foldl (queryAtStart queryOrder) b).halted = true ↔
      b.halted = true ∨ ∃ c ∈ orders, (queryOrder c).unanswered = true := by
  induction orders generalizing b with
  | nil => simp
  | cons c orders ih =>
      rw [List.foldl_cons, ih, queryAtStart, halt_halted_iff]
      simp [or_assoc]

@[simp] theorem setBaselines_halted (restored : Bool) (account : AccountState) :
    (b.setBaselines restored account).halted = b.halted := by
  rw [setBaselines]
  split <;> rfl

theorem afterSave_halted_iff (writeError : Option String) :
    (b.afterSave writeError).halted = true ↔ b.halted = true ∨ writeError ≠ none := by
  cases writeError <;> simp [afterSave]

theorem load_halted {file : StateFile} {loaded : Agent} {restored : Bool}
    (h : ({} : Agent).load file = .ok (loaded, restored)) : loaded.halted = file.halts := by
  cases file with
  | absent =>
      obtain ⟨rfl, -⟩ := Prod.mk.inj (Except.ok.inj h)
      rfl
  | unreadable error =>
      obtain ⟨rfl, -⟩ := Prod.mk.inj (Except.ok.inj h)
      rfl
  | saved s =>
      rw [load] at h
      simp only at h
      cases hmeta : loadMeta s.positionMeta.items ({} : Agent).positionMeta with
      | error error =>
          rw [hmeta] at h
          cases h
      | ok positionMeta =>
          rw [hmeta] at h
          obtain ⟨rfl, -⟩ := Prod.mk.inj (Except.ok.inj h)
          simp [StateFile.halts]

/-! ## What a start leaves alone -/

theorem foldl_queryAtStart_positionMeta (queryOrder : String → QueryOutcome)
    (orders : List String) (b : Agent) :
    (orders.foldl (queryAtStart queryOrder) b).positionMeta = b.positionMeta := by
  induction orders generalizing b with
  | nil => rfl
  | cons c orders ih =>
      rw [List.foldl_cons, ih, queryAtStart]
      split <;> simp

@[simp] theorem setBaselines_positionMeta (restored : Bool)
    (account : AccountState) : (b.setBaselines restored account).positionMeta = b.positionMeta := by
  rw [setBaselines]
  split <;> rfl

@[simp] theorem afterSave_positionMeta (writeError : Option String) :
    (b.afterSave writeError).positionMeta = b.positionMeta := by
  cases writeError <;> rfl

@[simp] theorem unterminatedFromJournal_positionMeta (journal : Except String (List JournalEntry)) :
    (b.unterminatedFromJournal journal).1.positionMeta = b.positionMeta := by
  cases journal <;> simp [unterminatedFromJournal]

theorem localBook_congr {b c : Agent} (h : b.positionMeta = c.positionMeta) :
    b.localBook = c.localBook := by
  unfold localBook
  rw [h]

theorem start_cases (h : start w = .ok (a, report)) :
    ∃ loaded restored after account,
      ({} : Agent).load w.stateFile = .ok (loaded, restored) ∧
      reconcile w.broker {} [] [] w.venue = .ok after ∧
      after.report = report ∧
      let (agent, orders) := loaded.unterminatedFromJournal w.journal
      let queried := orders.foldl (queryAtStart w.queryOrder) agent
      a = ((if report.haltRequired then queried.halt (startupMismatch report)
        else queried).setBaselines restored account).afterSave w.writeError := by
  rw [start] at h
  cases hload : ({} : Agent).load w.stateFile with
  | error error =>
      rw [hload] at h
      cases h
  | ok loaded =>
      obtain ⟨loaded, restored⟩ := loaded
      rw [hload] at h
      cases hreconcile : reconcile w.broker {} [] [] w.venue with
      | error message =>
          simp only [hreconcile] at h
          cases h
      | ok after =>
          cases haccount : w.account with
          | error message =>
              simp only [hreconcile, haccount] at h
              cases h
          | ok account =>
              simp only [hreconcile, haccount] at h
              obtain ⟨hagent, hreport⟩ := Prod.mk.inj (Except.ok.inj h)
              refine ⟨loaded, restored, after, account, rfl, rfl, hreport, ?_⟩
              rw [← hagent, hreport]

theorem start_returns {loaded : Agent × Bool} (hload : ({} : Agent).load w.stateFile = .ok loaded)
    {account : AccountState} (haccount : w.account = .ok account) :
    ∃ a report, start w = .ok (a, report) := by
  obtain ⟨after, hafter⟩ := @reconcile_returns _ w.broker {} rfl [] [] w.venue
  rw [start]
  simp only [hload, hafter, haccount]
  exact ⟨_, _, rfl⟩

end Agent

theorem startReport_haltRequired_iff {after : Reconciliation σ}
    (h : reconcile w.broker {} [] [] w.venue = .ok after) :
    after.report.haltRequired = true ↔ w.BookHalts := by
  cases hbook : w.broker.book w.venue with
  | error error =>
      have hhalts : w.BookHalts := by
        intro book hok
        rw [hbook] at hok
        cases hok
      rw [reconcile] at h
      rw [hbook] at h
      rw [← Except.ok.inj h]
      simp [hhalts]
  | ok book =>
      have hiff : w.BookHalts ↔ book.positions ≠ [] := by
        constructor
        · intro hhalts
          exact hhalts book hbook
        · intro hne other hother
          rw [hbook] at hother
          rwa [← Except.ok.inj hother]
      rw [hiff]
      constructor
      · intro hhalt hflat
        rw [reconcile_flat hbook hflat h] at hhalt
        cases hhalt
      · intro hne
        obtain ⟨p, hp⟩ := List.exists_mem_of_ne_nil _ hne
        obtain ⟨m, hm, -, hkind⟩ := orphan_of_no_local hp
        refine (reconcile_spec hbook h).halt_of_mismatch m hm ?_
        simp [hkind, MismatchKind.halts]

theorem start_halted_iff (h : Agent.start w = .ok (a, report)) :
    a.halted = true ↔
      w.StateHalts ∨ w.JournalHalts ∨ w.LeavesUnanswered ∨ w.BookHalts := by
  obtain ⟨loaded, restored, after, account, hload, hreconcile, rfl, hagent⟩ :=
    Agent.start_cases h
  have hloaded := Agent.load_halted hload
  have hbook := startReport_haltRequired_iff hreconcile
  simp only at hagent
  rw [hagent, Agent.afterSave_halted_iff, Agent.setBaselines_halted, Agent.halt_halted_iff,
    Agent.foldl_queryAtStart_halted_iff, hbook]
  cases hjournal : w.journal with
  | error error =>
      have hhalts : w.JournalHalts := by
        intro entries hok
        rw [hjournal] at hok
        cases hok
      simp [Agent.unterminatedFromJournal, hhalts]
  | ok entries =>
      have hreadable : ¬w.JournalHalts := by
        intro hhalts
        exact hhalts entries hjournal
      have hunanswered : w.LeavesUnanswered ↔
          ∃ c ∈ unterminated entries, (w.queryOrder c).unanswered = true := by
        simp [StartWorld.LeavesUnanswered, hjournal, mem_unterminated_iff]
      simp only [Agent.unterminatedFromJournal, hloaded, hunanswered, StartWorld.StateHalts,
        hreadable, false_or]
      rw [or_comm]
      simp only [or_assoc]

/-- A start settles every order the journal leaves open exactly when the venue
answers each with a terminal state or there is something else to halt for. -/
theorem ordersSettled_iff (h : Agent.start w = .ok (a, report)) :
    OrdersSettled w a ↔
      w.AnswersTerminal ∨
        w.StateHalts ∨ w.JournalHalts ∨ w.LeavesUnanswered ∨ w.BookHalts := by
  rw [← start_halted_iff h]
  rw [OrdersSettled, StartWorld.AnswersTerminal]
  by_cases hhalted : a.halted = true
  · simp [hhalted]
  · simp [hhalted]

end Start

/-! ## Two starts over an idle venue -/

def sampleAccount : AccountState where
  accountId := "101-004"
  currency := "USD"
  balance := 10000
  equity := 10000

/-- A venue that holds `positions` and answers nothing else. -/
def idleVenue (positions : List Position) : ReconcileVenue Unit where
  book _ := .ok { account := sampleAccount, positions }
  instrument _ symbol := .error symbol
  quote _ symbol := .error symbol
  modifyPosition _ _ _ := (.ok false, ())

def idleWorld (stateFile : StateFile) (positions : List Position) (answer : OrderState) :
    StartWorld Unit where
  stateFile
  journal := .ok [⟨.orderIntent, some "SFX1"⟩, ⟨.orderSent, some "SFX1"⟩]
  queryOrder _ := .returned { state := answer }
  broker := idleVenue positions
  venue := ()
  account := .ok sampleAccount

theorem ordersSettled_iff_filled :
    ∃ a report, Agent.start (idleWorld .absent [] .filled) = .ok (a, report) ∧
      OrdersSettled (idleWorld .absent [] .filled) a := by
  obtain ⟨a, report, h⟩ :=
    @Agent.start_returns _ (idleWorld .absent [] .filled) _ rfl _ rfl
  refine ⟨a, report, h, (ordersSettled_iff h).2 (.inl ?_)⟩
  intro entries _ c _
  exact ⟨{ state := .filled }, rfl, rfl⟩

/-- An order the venue answers is working leaves the agent free to trade. -/
theorem not_ordersSettled_acked :
    ∃ a report, Agent.start (idleWorld .absent [] .acked) = .ok (a, report) ∧
      ¬OrdersSettled (idleWorld .absent [] .acked) a := by
  obtain ⟨a, report, h⟩ :=
    @Agent.start_returns _ (idleWorld .absent [] .acked) _ rfl _ rfl
  refine ⟨a, report, h, ?_⟩
  intro hsettled
  have hsent : SentWithoutEnd [⟨.orderIntent, some "SFX1"⟩, ⟨.orderSent, some "SFX1"⟩] "SFX1" := by
    refine ⟨by decide, by simp, ?_⟩
    simp [EventType.terminal]
  rcases hsettled _ rfl "SFX1" hsent with ⟨result, hresult, hterminal⟩ | hhalted
  · rw [← QueryOutcome.returned.inj hresult] at hterminal
    cases hterminal
  · rw [start_halted_iff h] at hhalted
    rcases hhalted with hstate | hjournal | ⟨entries, -, c, -, hc⟩ | hbook
    · simp [StartWorld.StateHalts, idleWorld, StateFile.halts] at hstate
    · exact hjournal _ rfl
    · cases hc
    · exact hbook _ rfl rfl

/-! ## A start over a saved book -/

section Book

variable {σ : Type} {w : StartWorld σ} {s a : Agent} {report : ReconcileReport}
  {book : VenueBook}

def NoHaltingMismatch (report : ReconcileReport) : Prop :=
  ∀ m ∈ report.mismatches, m.kind.halts = false

/-- Restarted over the book it has saved, the agent knows that book, and finds
no mismatch to halt for exactly when it is empty. -/
theorem restart_noHaltingMismatch_iff (hfile : w.stateFile = .saved s.save)
    (hbook : w.broker.book w.venue = .ok book) (hsame : SameBook s.localBook book.positions)
    (h : Agent.start w = .ok (a, report)) :
    a.localBook = s.localBook ∧ (NoHaltingMismatch report ↔ s.localBook = []) := by
  obtain ⟨loaded, restored, after, account, hload, hreconcile, rfl, hagent⟩ :=
    Agent.start_cases h
  have hown : a.localBook = s.localBook := by
    rw [hfile, Agent.load_save] at hload
    obtain ⟨rfl, -⟩ := Prod.mk.inj (Except.ok.inj hload)
    rw [← Agent.localBook_restored s]
    apply Agent.localBook_congr
    simp only at hagent
    rw [hagent]
    simp only [Agent.afterSave_positionMeta, Agent.setBaselines_positionMeta]
    split <;> simp [Agent.foldl_queryAtStart_positionMeta]
  refine ⟨hown, ?_⟩
  have hspec := reconcile_spec hbook hreconcile
  have hempty : s.localBook = [] ↔ book.positions = [] := by
    constructor
    · intro hown
      by_contra hne
      obtain ⟨p, hp⟩ := List.exists_mem_of_ne_nil _ hne
      have hkey := hsame p.instrument
      rw [hown] at hkey
      have hnone : (byInstrument book.positions).get? p.instrument = none := by
        simpa [byInstrument] using hkey.symm
      rw [byInstrument, Dict.get?_ofEntries_eq_none_iff, List.map_map] at hnone
      exact hnone (List.mem_map_of_mem hp)
    · intro hvenue
      by_contra hne
      obtain ⟨p, hp⟩ := List.exists_mem_of_ne_nil _ hne
      have hkey := hsame p.instrument
      rw [hvenue] at hkey
      have hnone : (byInstrument s.localBook).get? p.instrument = none := by
        simpa [byInstrument] using hkey
      rw [byInstrument, Dict.get?_ofEntries_eq_none_iff, List.map_map] at hnone
      exact hnone (List.mem_map_of_mem hp)
  rw [hempty]
  constructor
  · intro hnone
    by_contra hne
    obtain ⟨p, hp⟩ := List.exists_mem_of_ne_nil _ hne
    obtain ⟨m, hm, -, hkind⟩ := orphan_of_no_local hp
    have hquiet := hnone m (by rwa [hspec.mismatches])
    rw [hkind] at hquiet
    cases hquiet
  · intro hflat m hm
    rw [hspec.mismatches, hflat] at hm
    cases hm

theorem restart_noHaltingMismatch_iff_flat :
    ∃ a report, Agent.start (idleWorld (.saved ({} : Agent).save) [] .filled) = .ok (a, report) ∧
      NoHaltingMismatch report := by
  obtain ⟨a, report, h⟩ :=
    @Agent.start_returns _ (idleWorld (.saved ({} : Agent).save) [] .filled) _
      (Agent.load_save {}) _ rfl
  have hsame : SameBook ({} : Agent).localBook [] := by
    intro symbol
    rfl
  exact ⟨a, report, h, (restart_noHaltingMismatch_iff rfl rfl hsame h).2.2 rfl⟩

def holdingAgent : Agent where
  positionMeta :=
    ⟨[("EUR_USD", { side := some "BUY", lots := some (1 / 10), initialRisk := some 50 })],
      by simp⟩

def heldPosition : Position where
  instrument := "EUR_USD"
  side := .buy
  lots := 1 / 10
  entryPrice := 110 / 100
  stopLoss := some (109 / 100)
  brokerStopConfirmed := true

/-- Its own position is an orphan after a restart. -/
theorem restart_orphan_heldPosition :
    SameBook holdingAgent.localBook [heldPosition] ∧
      ∃ a report,
        Agent.start (idleWorld (.saved holdingAgent.save) [heldPosition] .filled) =
          .ok (a, report) ∧
        ¬NoHaltingMismatch report := by
  constructor
  · intro symbol
    simp [Agent.localBook, Agent.bookRow, holdingAgent, heldPosition, byInstrument,
      Dict.get?_ofEntries_cons, PositionMeta.sideText, Side.ofValue?]
  · obtain ⟨a, report, h⟩ :=
      @Agent.start_returns _ (idleWorld (.saved holdingAgent.save) [heldPosition] .filled) _
        (Agent.load_save holdingAgent) _ rfl
    refine ⟨a, report, h, ?_⟩
    intro hnone
    obtain ⟨loaded, restored, after, account, hload, hreconcile, rfl, hagent⟩ :=
      Agent.start_cases h
    have hbook : (idleVenue [heldPosition]).book () =
        .ok { account := sampleAccount, positions := [heldPosition] } := rfl
    obtain ⟨m, hm, -, hkind⟩ := orphan_of_no_local (List.mem_singleton_self heldPosition)
    have hquiet := hnone m (by rwa [(reconcile_spec hbook hreconcile).mismatches])
    rw [hkind] at hquiet
    cases hquiet

end Book

end Sentinel
