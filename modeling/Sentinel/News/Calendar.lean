import Mathlib.Data.List.MinMax
import Sentinel.Core.Audit
import Sentinel.Core.Clock
import Sentinel.Core.Money
import Sentinel.Support.Substring

/-!
# The economic calendar

The tables of scheduled releases, of consensus forecasts and of released
values, the calls that write them, and the queries on them: which currencies
are inside the window of a release, and how far a release was from what was
expected.  Columns that no query here reads are left out, and so is the log of
revisions.
-/

namespace Sentinel

/-- `IMPACT_LEVELS`. -/
inductive Impact where
  | low
  | medium
  | high
  deriving DecidableEq

def Impact.level : Impact → ℕ
  | low => 0
  | medium => 1
  | high => 2

/-- `CERTAINTY_LEVELS`. -/
inductive Certainty where
  | approximate
  | scheduledPattern
  | confirmed
  deriving DecidableEq

def Certainty.level : Certainty → ℕ
  | approximate => 0
  | scheduledPattern => 1
  | confirmed => 2

/-- `BLACKOUT_CERTAINTIES`. -/
def Certainty.blocks : Certainty → Bool
  | approximate => false
  | scheduledPattern => true
  | confirmed => true

/-- One scheduled release, as it is given and as it is stored. -/
structure CalendarEvent where
  eventId : String
  eventNs : ℤ
  currency : String
  name : String
  impact : Impact := .medium
  period : Option String := none
  seriesId : Option String := none
  zone : String := "UTC"
  localTime : String := ""
  certainty : Certainty := .confirmed
  curatedImpact : Impact := .medium
  measuredImpact : Option String := none
  forecast : Option Dec := none
  previous : Option Dec := none
  revisionCount : ℕ := 0
  status : String := "scheduled"
  deriving DecidableEq

/-- A row of `consensus_versions`. -/
structure ConsensusVersion where
  eventId : String
  recordedNs : ℤ
  consensus : Option Dec
  previous : Option Dec
  deriving DecidableEq

/-- A row of `actuals`. -/
structure ActualRow where
  actual : Option Dec
  revisedPrev : Option Dec
  previousAsFirstPublished : Option Dec
  publishedNs : ℤ
  receivedNs : ℤ
  isRevision : Bool
  deriving DecidableEq

structure EventTable where
  rows : List CalendarEvent
  nodup : (rows.map CalendarEvent.eventId).Nodup

structure EconomicCalendar where
  events : EventTable
  consensus : List ConsensusVersion := []
  actuals : Dict String ActualRow := .empty

def given (text : Option String) : Bool := text.any (· ≠ "")

namespace EventTable

def empty : EventTable := ⟨[], List.nodup_nil⟩

def mapRows (t : EventTable) (f : CalendarEvent → CalendarEvent)
    (hf : ∀ r, (f r).eventId = r.eventId) : EventTable where
  rows := t.rows.map f
  nodup := by
    have hids : CalendarEvent.eventId ∘ f = CalendarEvent.eventId := funext hf
    rw [List.map_map, hids]
    exact t.nodup

def update (t : EventTable) (id : String) (f : CalendarEvent → CalendarEvent)
    (hf : ∀ r, (f r).eventId = r.eventId) : EventTable :=
  t.mapRows (fun r => if r.eventId = id then f r else r) fun r => by
    split_ifs
    · exact hf r
    · rfl

def get (t : EventTable) (id : String) : Option CalendarEvent :=
  t.rows.find? fun r => r.eventId = id

end EventTable

/-! ## Adding an event -/

inductive UpsertAction where
  | inserted
  | rescheduled
  | updated
  | unchanged
  deriving DecidableEq

structure UpsertResult where
  eventId : String
  action : UpsertAction
  previousEventNs : Option ℤ := none
  deriving DecidableEq

structure IntegrityError where
  deriving DecidableEq

namespace CalendarEvent

variable (row e : CalendarEvent)

def weaker : Bool := decide (e.certainty.level < row.certainty.level)

def mergedCertainty : Certainty :=
  if row.certainty.level < e.certainty.level then e.certainty else row.certainty

def differs : Bool :=
  row.certainty ≠ e.certainty || (e.forecast.isSome && row.forecast ≠ e.forecast) ||
    (e.previous.isSome && row.previous ≠ e.previous) || row.curatedImpact ≠ e.curatedImpact ||
    row.name ≠ e.name

def upsertAction : UpsertAction :=
  if row.eventNs ≠ e.eventNs then if row.weaker e then .unchanged else .rescheduled
  else if row.differs e then .updated
  else .unchanged

def restated : CalendarEvent :=
  { row with
    eventNs := if row.weaker e then row.eventNs else e.eventNs
    name := e.name
    currency := e.currency
    curatedImpact := e.curatedImpact
    impact := if given row.measuredImpact then row.impact else e.impact
    certainty := row.mergedCertainty e
    forecast := e.forecast.or row.forecast
    previous := e.previous.or row.previous
    zone := if e.zone = "" then row.zone else e.zone
    localTime := if e.localTime = "" then row.localTime else e.localTime
    revisionCount := row.revisionCount + if row.upsertAction e = .rescheduled then 1 else 0 }

@[simp] theorem eventId_restated : (row.restated e).eventId = row.eventId := rfl

def sameRelease : Bool :=
  decide (row.seriesId = e.seriesId) && decide (row.period = e.period)

end CalendarEvent

namespace EventTable

variable (t : EventTable) (e : CalendarEvent)

def restates : Option CalendarEvent :=
  (t.get e.eventId).or
    (if given e.seriesId && given e.period then t.rows.find? (·.sameRelease e) else none)

variable {t : EventTable}

theorem restates_mem {e row : CalendarEvent} (h : t.restates e = some row) : row ∈ t.rows := by
  rw [restates, Option.or_eq_some_iff] at h
  rcases h with h | ⟨-, h⟩
  · exact List.mem_of_find?_eq_some h
  · split_ifs at h
    exact List.mem_of_find?_eq_some h

theorem eventId_notMem_of_restates {e : CalendarEvent}
    (h : t.restates e = none) : e.eventId ∉ t.rows.map CalendarEvent.eventId := by
  rw [restates, Option.or_eq_none_iff] at h
  rw [List.mem_map]
  rintro ⟨row, hrow, hid⟩
  have hnone := List.find?_eq_none.mp h.1 row hrow
  exact hnone (by simpa using hid)

def insert (h : t.restates e = none) : EventTable where
  rows := t.rows ++ [{ e with revisionCount := 0 }]
  nodup := by
    rw [List.map_append, List.nodup_append]
    refine ⟨t.nodup, by simp, ?_⟩
    intro id hid id' hid' heq
    have hself : id' = e.eventId := by simpa using hid'
    rw [heq, hself] at hid
    exact eventId_notMem_of_restates h hid

def conflicts : Bool :=
  e.seriesId.isSome && e.period.isSome && t.rows.any (·.sameRelease e)

/-- `add_event`: insert or reconcile one event. -/
def addEvent : Except IntegrityError (UpsertResult × EventTable) :=
  match h : t.restates e with
  | none =>
      if t.conflicts e then .error {}
      else .ok ({ eventId := e.eventId, action := .inserted }, t.insert e h)
  | some row =>
      .ok ({ eventId := row.eventId, action := row.upsertAction e,
             previousEventNs :=
               if row.upsertAction e = .rescheduled then some row.eventNs else none },
        t.update row.eventId (·.restated e) fun r => r.eventId_restated e)

def afterAdd : EventTable :=
  match t.addEvent e with
  | .ok (_, t') => t'
  | .error _ => t

theorem afterAdd_of_restates {e row : CalendarEvent}
    (h : t.restates e = some row) :
    t.afterAdd e = t.update row.eventId (·.restated e) fun r => r.eventId_restated e := by
  rw [afterAdd, addEvent]
  split
  · rename_i hadd
    split at hadd
    · rename_i hnone
      rw [h] at hnone
      cases hnone
    · rename_i row' hsome
      rw [h] at hsome
      cases hsome
      cases hadd
      rfl
  · rename_i hadd
    split at hadd
    · rename_i hnone
      rw [h] at hnone
      cases hnone
    · cases hadd

theorem rows_afterAdd_of_new {e : CalendarEvent} (h : t.restates e = none) :
    (t.afterAdd e).rows =
      if t.conflicts e then t.rows else t.rows ++ [{ e with revisionCount := 0 }] := by
  rw [afterAdd, addEvent]
  split
  · rename_i hadd
    split at hadd
    · split_ifs at hadd with hconflicts
      cases hadd
      rw [if_neg hconflicts]
      rfl
    · rename_i row hsome
      rw [h] at hsome
      cases hsome
  · rename_i hadd
    split at hadd
    · split_ifs at hadd with hconflicts
      rw [if_pos hconflicts]
    · cases hadd

end EventTable

/-! ## Summer time -/

/-- The digits of `int(text)`. -/
def digitsOf (cs : List Char) : Option ℕ :=
  let groups := cs.splitOn '_'
  if groups.any fun g => g.isEmpty || g.any (fun c => !c.isDigit) then none
  else some (groups.flatten.foldl (fun n c => 10 * n + (c.toNat - '0'.toNat)) 0)

/-- `int(text)`, for decimal digits. -/
def intOf (cs : List Char) : Option ℤ :=
  match Chars.strip cs with
  | '-' :: ds => (digitsOf ds).map fun n => -(n : ℤ)
  | '+' :: ds => (digitsOf ds).map Int.ofNat
  | ds => (digitsOf ds).map Int.ofNat

def clockOf (localTime : String) : Option (ℤ × ℤ) := do
  let (hh, mm) := localTime.toList.span (· ≠ ':')
  let hour ← intOf hh
  let minute ← if mm.drop 1 = [] then some 0 else intOf (mm.drop 1)
  if 0 ≤ hour ∧ hour ≤ 23 ∧ 0 ≤ minute ∧ minute ≤ 59 then some (hour, minute) else none

namespace CalendarEvent

/-- The instant of the row's local time on its local day; `none` for a
malformed row. -/
def recomputed (r : CalendarEvent) : Option ℤ := do
  let (hour, minute) ← clockOf r.localTime
  let reading ← TzRules.utcToLocal r.eventNs r.zone
  TzRules.localToUtcNs (dayOf reading * dayNs + hour * hourNs + minute * minuteNs) r.zone

/-- The row after `reschedule_for_dst`. -/
def rescheduled (fromNs toNs : ℤ) (r : CalendarEvent) : CalendarEvent :=
  if fromNs ≤ r.eventNs ∧ r.eventNs ≤ toNs ∧ r.localTime ≠ "" ∧ r.status = "scheduled" then
    { r with eventNs := r.recomputed.getD r.eventNs }
  else r

@[simp] theorem eventId_rescheduled (fromNs toNs : ℤ) (r : CalendarEvent) :
    (r.rescheduled fromNs toNs).eventId = r.eventId := by
  rw [rescheduled]
  split_ifs <;> rfl

end CalendarEvent

/-- `reschedule_for_dst`, with the number of rows that moved. -/
def EventTable.rescheduleForDst (t : EventTable) (fromNs toNs : ℤ) : ℕ × EventTable :=
  (t.rows.countP fun r => (r.rescheduled fromNs toNs).eventNs ≠ r.eventNs,
   t.mapRows (·.rescheduled fromNs toNs) fun r => r.eventId_rescheduled fromNs toNs)

/-! ## Blackouts -/

structure BlackoutQuery where
  nowNs : ℤ
  beforeMin : ℤ
  afterMin : ℤ
  minImpact : Impact := .high
  requireCertain : Bool := true

structure BlackoutLabel where
  name : String
  offsetNs : ℤ
  deriving DecidableEq

namespace BlackoutQuery

def selects (q : BlackoutQuery) (r : CalendarEvent) : Bool :=
  decide (q.nowNs - q.afterMin * minuteNs ≤ r.eventNs) &&
    decide (r.eventNs ≤ q.nowNs + q.beforeMin * minuteNs) &&
    decide (q.minImpact.level ≤ r.impact.level) && (!q.requireCertain || r.certainty.blocks)

def label (q : BlackoutQuery) (wanted : List String) (out : Dict String BlackoutLabel)
    (r : CalendarEvent) : Dict String BlackoutLabel :=
  let offset := r.eventNs - q.nowNs
  if r.currency ∉ wanted then out
  else
    match out.get? r.currency with
    | none => out.set r.currency { name := r.name, offsetNs := offset }
    | some held =>
        if |held.offsetNs| ≤ |offset| then out
        else out.set r.currency { name := r.name, offsetNs := offset }

end BlackoutQuery

namespace EventTable

/-- `blackout`: the currencies inside the window of a release. -/
def blackout (t : EventTable) (q : BlackoutQuery) (currencies : List String) :
    Dict String BlackoutLabel :=
  let rows := (t.rows.filter q.selects).mergeSort fun a b => decide (a.eventNs ≤ b.eventNs)
  rows.foldl (q.label currencies) .empty

end EventTable

def currenciesOf (symbol : String) : List String :=
  let parts := (symbol.toList.map fun c => if c = '/' then '_' else c).splitOn '_'
  (parts.filter fun p => p.length = 3).map String.ofList

namespace EventTable

def labelSymbol (byCurrency : Dict String BlackoutLabel)
    (out : Dict String (String × BlackoutLabel)) (symbol : String) :
    Dict String (String × BlackoutLabel) :=
  match byCurrency.items.find? fun entry => occursIn entry.1 symbol with
  | none => out
  | some entry => out.set symbol entry

def instrumentBlackout (t : EventTable) (q : BlackoutQuery) (instruments : List String) :
    Dict String (String × BlackoutLabel) :=
  let byCurrency := t.blackout q (instruments.flatMap currenciesOf).dedup.mergeSort
  instruments.foldl (labelSymbol byCurrency) .empty

end EventTable

end Sentinel
