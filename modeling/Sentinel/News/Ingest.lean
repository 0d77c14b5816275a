import Sentinel.News.Schedule
import Sentinel.Support.Runs

/-!
# Ingesting a source

A window of a source is fetched, each row becomes an event, and the events are
reconciled into the table one by one.  A source that raises and a row that is
no event are counted and reported; a refusal of the table is raised through.
-/

namespace Sentinel

/-- Which check of `CalendarEvent` a row fails. -/
inductive EventError where
  | impact
  | curatedImpact
  | certainty
  deriving DecidableEq

inductive IngestError where
  | fetchFailed (why : FetchError)
  | rejected (name : String) (why : EventError)
  deriving DecidableEq

structure IngestReport where
  source : String
  inserted : ℕ := 0
  rescheduled : ℕ := 0
  unchanged : ℕ := 0
  updated : ℕ := 0
  rejectedRows : ℕ := 0
  errors : List IngestError := []
  advisories : List String := []

def Impact.ofText (text : String) : Option Impact :=
  if text = "low" then some .low
  else if text = "medium" then some .medium
  else if text = "high" then some .high
  else none

def Certainty.ofText (text : String) : Option Certainty :=
  if text = "approximate" then some .approximate
  else if text = "scheduled_pattern" then some .scheduledPattern
  else if text = "confirmed" then some .confirmed
  else none

namespace RawRow

def curated (raw : RawRow) : String := orText raw.curatedImpact (orText raw.impact "medium")

def id (raw : RawRow) : String :=
  orText raw.eventId (raw.seriesId.getD "X" ++ ":" ++ toString raw.eventNs)

/-- `_event_from_row`. -/
def event (raw : RawRow) : Except EventError CalendarEvent :=
  match Impact.ofText (orText raw.impact raw.curated), Impact.ofText raw.curated,
      Certainty.ofText raw.certainty with
  | none, _, _ => .error .impact
  | _, none, _ => .error .curatedImpact
  | _, _, none => .error .certainty
  | some impact, some curated, some certainty =>
      .ok
        { eventId := raw.id
          eventNs := raw.eventNs
          currency := raw.currency
          name := raw.name
          impact := impact
          period := raw.period
          seriesId := raw.seriesId
          zone := raw.zone
          localTime := raw.localTime
          certainty := certainty
          curatedImpact := curated
          forecast := raw.forecast
          previous := raw.previous }

def tier (raw : RawRow) : Option Impact := Impact.ofText (orText raw.impact raw.curated)

def blocks (raw : RawRow) : Bool := (Certainty.ofText raw.certainty).any Certainty.blocks

structure Says (raw : RawRow) (e : CalendarEvent) : Prop where
  id : e.eventId = raw.id
  eventNs : e.eventNs = raw.eventNs
  currency : e.currency = raw.currency
  impact : raw.tier = some e.impact
  period : e.period = raw.period
  seriesId : e.seriesId = raw.seriesId
  certainty : Certainty.ofText raw.certainty = some e.certainty
  measured : e.measuredImpact = none

theorem says_of_event {raw : RawRow} {e : CalendarEvent} (h : raw.event = .ok e) :
    raw.Says e := by
  rw [event] at h
  split at h
  · cases h
  · cases h
  · cases h
  · rename_i himpact _ hcertainty
    cases h
    exact ⟨rfl, rfl, rfl, himpact, rfl, rfl, hcertainty, rfl⟩

end RawRow

namespace IngestReport

variable (report : IngestReport)

def count : UpsertAction → IngestReport
  | .inserted => { report with inserted := report.inserted + 1 }
  | .rescheduled => { report with rescheduled := report.rescheduled + 1 }
  | .updated => { report with updated := report.updated + 1 }
  | .unchanged => { report with unchanged := report.unchanged + 1 }

def reject (name : String) (why : EventError) : IngestReport :=
  { report with
    rejectedRows := report.rejectedRows + 1
    errors := report.errors ++ [.rejected name why] }

def advise (ops : SourceOps) (e : CalendarEvent) : IngestReport :=
  if !e.certainty.blocks && decide (e.impact = .high) then
    let date := CivilDate.ofDay (dayOf (ops.fromTimestamp e.eventNs))
    { report with
      advisories := report.advisories ++
        [e.name ++ " (" ++ e.currency ++ ") is expected around " ++
          monthText date.year date.month ++ "-" ++ padded 2 date.day ++
          " but the date is a pattern estimate, not a confirmed release. It " ++
          "will NOT create a blackout window until a feed confirms it."] }
  else report

end IngestReport

namespace EventTable

/-- The loop of `ingest` over the fetched rows.  What was added stays when a
later row raises. -/
def ingestRows (t : EventTable) (ops : SourceOps) (report : IngestReport) :
    List RawRow → EventTable × Except IntegrityError IngestReport
  | [] => (t, .ok report)
  | raw :: rows =>
      match raw.event with
      | .error why => t.ingestRows ops (report.reject raw.name why) rows
      | .ok e =>
          match t.addEvent e with
          | .error refused => (t, .error refused)
          | .ok (result, t') =>
              t'.ingestRows ops ((report.count result.action).advise ops e) rows

/-- `ingest`: pull a window from a source and reconcile it into the store. -/
def ingest (t : EventTable) (ops : SourceOps) (source : CalendarSource) (startNs endNs : ℤ) :
    EventTable × Except IntegrityError IngestReport :=
  let report : IngestReport := { source := source.name }
  match source.fetch startNs endNs with
  | .error why => (t, .ok { report with errors := [.fetchFailed why] })
  | .ok rows => t.ingestRows ops report rows

def ingests (ops : SourceOps) (source : CalendarSource) (t : EventTable) :
    List (ℤ × ℤ) → EventTable × Except IntegrityError Unit
  | [] => (t, .ok ())
  | call :: calls =>
      match t.ingest ops source call.1 call.2 with
      | (t', .error refused) => (t', .error refused)
      | (t', .ok _) => ingests ops source t' calls

/-! ## What the loop leaves in the table -/

def addRow (t : EventTable) (raw : RawRow) : Except IntegrityError EventTable :=
  match raw.event with
  | .error _ => .ok t
  | .ok e => (t.addEvent e).map Prod.snd

theorem ingestRows_returns_iff (t t' : EventTable) (ops : SourceOps) (report : IngestReport)
    (rows : List RawRow) :
    (∃ report', t.ingestRows ops report rows = (t', .ok report')) ↔
      rows.foldlM addRow t = .ok t' := by
  induction rows generalizing t report with
  | nil =>
      rw [List.foldlM_nil, ingestRows]
      constructor
      · rintro ⟨report', h⟩
        exact congrArg Except.ok (congrArg Prod.fst h)
      · intro h
        exact ⟨report, by rw [Except.ok.inj h]⟩
  | cons raw rows ih =>
      rw [List.foldlM_cons, ingestRows, addRow]
      split
      · exact ih t _
      · split
        · rename_i hadd
          rw [hadd]
          simp [Except.map, bind, Except.bind]
        · rename_i hadd
          rw [hadd]
          exact ih _ _

def rowsOf (source : CalendarSource) (call : ℤ × ℤ) : List RawRow :=
  (source.fetch call.1 call.2).toOption.getD []

theorem ingest_returns_iff (t t' : EventTable) (ops : SourceOps) (source : CalendarSource)
    (call : ℤ × ℤ) :
    (∃ report, t.ingest ops source call.1 call.2 = (t', .ok report)) ↔
      (rowsOf source call).foldlM addRow t = .ok t' := by
  rw [ingest, rowsOf]
  cases source.fetch call.1 call.2 with
  | ok rows => exact ingestRows_returns_iff t t' ops _ rows
  | error why => exact ingestRows_returns_iff t t' ops { source := source.name, errors := _ } []

theorem ingests_returns_iff (ops : SourceOps) (source : CalendarSource) (t t' : EventTable)
    (calls : List (ℤ × ℤ)) :
    t.ingests ops source calls = (t', .ok ()) ↔
      (calls.flatMap (rowsOf source)).foldlM addRow t = .ok t' := by
  induction calls generalizing t with
  | nil =>
      rw [ingests, List.flatMap_nil, List.foldlM_nil]
      constructor
      · intro h
        exact congrArg Except.ok (congrArg Prod.fst h)
      · intro h
        rw [Except.ok.inj h]
  | cons call calls ih =>
      rw [ingests, List.flatMap_cons, List.foldlM_append]
      rcases hcall : t.ingest ops source call.1 call.2 with ⟨u, _ | report⟩
      · have hraises : ∀ v, (rowsOf source call).foldlM addRow t ≠ .ok v := by
          intro v hv
          obtain ⟨report, hreport⟩ := (ingest_returns_iff t v ops source call).mpr hv
          rw [hcall] at hreport
          cases congrArg Prod.snd hreport
        cases hrows : (rowsOf source call).foldlM addRow t with
        | ok v => exact absurd hrows (hraises v)
        | error refused => simp [bind, Except.bind]
      · rw [(ingest_returns_iff t u ops source call).mp ⟨report, hcall⟩]
        exact ih u

end EventTable

end Sentinel
