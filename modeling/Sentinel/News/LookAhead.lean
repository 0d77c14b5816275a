import Mathlib.Data.List.Sort
import Sentinel.News.Calendar

/-!
# Surprises without look-ahead

A history of writes is compared with the same history without the writes that
were published after a decision.  The two calendars stay linked as long as no
event has a later released value; they give the same surprises exactly when, in
addition, no later forecast stands at the time of a released event.

What the calendar records of forecasts and of released values, and the queries
that measure a release against its forecast.  Forecasts are appended, a
released value replaces the one before it.  The values are exact rationals, and
the standard deviation of a sample is a parameter.
-/

namespace Sentinel

def CalendarEvent.released (r : CalendarEvent) : CalendarEvent := { r with status := "released" }

@[simp] theorem CalendarEvent.eventId_released (r : CalendarEvent) :
    r.released.eventId = r.eventId := rfl

namespace EconomicCalendar

/-! ## Records -/

variable (sd : List Dec → Dec) (c : EconomicCalendar)

/-- `record_consensus`: one version for an event and an instant. -/
def recordConsensus (v : ConsensusVersion) : EconomicCalendar :=
  if c.consensus.any fun w => w.eventId = v.eventId && w.recordedNs = v.recordedNs then c
  else { c with consensus := c.consensus ++ [v] }

/-- What a call of `record_actual` brings. -/
structure Release where
  eventId : String
  actual : Option Dec
  revisedPrev : Option Dec := none
  previousAsFirstPublished : Option Dec := none
  publishedNs : ℤ
  receivedNs : ℤ
  deriving DecidableEq

def Release.row (w : Release) (prior : Option ActualRow) : ActualRow :=
  { actual := w.actual
    revisedPrev := w.revisedPrev
    previousAsFirstPublished := w.previousAsFirstPublished
    publishedNs := w.publishedNs
    receivedNs := w.receivedNs
    isRevision :=
      match prior.bind ActualRow.actual, w.actual with
      | some old, some new => decide (old ≠ new)
      | _, _ => false }

/-- `record_actual`: the row of the event is replaced. -/
def recordActual (w : Release) : EconomicCalendar :=
  { c with
    actuals := c.actuals.set w.eventId (w.row (c.actuals.get? w.eventId))
    events := c.events.update w.eventId (·.released) CalendarEvent.eventId_released }

/-! ## Queries -/

/-- `consensus_as_of`: the versions recorded by an instant, the latest first. -/
def consensusAsOf (eventId : String) (asOfNs : ℤ) : Option ConsensusVersion :=
  ((c.consensus.filter fun v => v.eventId = eventId && v.recordedNs ≤ asOfNs).insertionSort
    fun v w => w.recordedNs ≤ v.recordedNs).head?

def valuedConsensus (eventId : String) (asOfNs : ℤ) : Option (Dec × ℤ) :=
  (c.consensusAsOf eventId asOfNs).bind fun v => v.consensus.map fun x => (x, v.recordedNs)

variable (seriesId : String) (beforeNs : ℤ) (excluded : Option String)

def pastSurprise (r : CalendarEvent) : Option (ℤ × Dec) := do
  guard (r.seriesId = some seriesId)
  let row ← c.actuals.get? r.eventId
  guard (row.publishedNs < beforeNs)
  let actual ← row.actual
  guard (!(given excluded && excluded = some r.eventId))
  let expected ← c.valuedConsensus r.eventId r.eventNs
  return (row.publishedNs, actual - expected.1)

/-- `historical_surprises`, in the order of publication. -/
def historicalSurprises : List (ℤ × Dec) :=
  (c.events.rows.filterMap (c.pastSurprise seriesId beforeNs excluded)).mergeSort
    fun a b => decide (a.1 ≤ b.1)

inductive DispersionMethod where
  | none
  | callerSupplied
  | insufficient
  | degenerate
  | sd
  | mad
  deriving DecidableEq

structure Dispersion where
  scale : Option Dec
  n : ℕ
  method : DispersionMethod
  deriving DecidableEq

def median (xs : List Dec) : Dec :=
  let sorted := xs.mergeSort fun a b => decide (a ≤ b)
  let n := sorted.length
  if n % 2 = 1 then sorted.getD (n / 2) 0
  else (sorted.getD (n / 2 - 1) 0 + sorted.getD (n / 2) 0) / 2

/-- `surprise_dispersion`: the median absolute deviation of the history. -/
def surpriseDispersion (minObs : ℕ) : Dispersion :=
  let values := (c.historicalSurprises seriesId beforeNs excluded).map Prod.snd
  if values.length < minObs then
    { scale := none, n := values.length, method := .insufficient }
  else
    let centre := median values
    let robust := 7413 / 5000 * median (values.map fun v => |v - centre|)
    if robust ≤ 0 then
      if sd values ≤ 0 then { scale := none, n := values.length, method := .degenerate }
      else { scale := some (sd values), n := values.length, method := .sd }
    else { scale := some robust, n := values.length, method := .mad }

structure Surprise where
  eventId : String
  actual : Dec
  consensus : Dec
  surprise : Dec
  standardised : Option Dec
  consensusRecordedNs : ℤ
  publishedNs : ℤ
  usableNs : ℤ
  valid : Bool
  dispersion : Option Dec := none
  dispersionN : ℕ := 0
  dispersionMethod : Option DispersionMethod := none
  seriesId : Option String
  deriving DecidableEq

structure SurpriseQuery where
  decisionNs : Option ℤ := none
  historySd : Option Dec := none
  minHistory : ℕ := 8

def dispersionFor (r : CalendarEvent) (q : SurpriseQuery) : Dispersion :=
  match q.historySd.filter (0 < ·) with
  | some supplied => { scale := some supplied, n := 0, method := .callerSupplied }
  | none =>
      match r.seriesId.filter (· ≠ "") with
      | some series =>
          c.surpriseDispersion sd series (q.decisionNs.getD r.eventNs) (some r.eventId)
            q.minHistory
      | none => { scale := none, n := 0, method := .none }

def surpriseOf (r : CalendarEvent) (row : ActualRow) (q : SurpriseQuery) : Surprise :=
  match c.valuedConsensus r.eventId r.eventNs with
  | none =>
      { eventId := r.eventId, actual := row.actual.getD 0, consensus := 0, surprise := 0,
        standardised := none, consensusRecordedNs := 0, publishedNs := row.publishedNs,
        usableNs := row.receivedNs, valid := false, seriesId := r.seriesId }
  | some (expected, recordedNs) =>
      let surprise := row.actual.getD 0 - expected
      let scale := c.dispersionFor sd r q
      { eventId := r.eventId, actual := row.actual.getD 0, consensus := expected,
        surprise := surprise,
        standardised := (scale.scale.filter (· ≠ 0)).map fun x => surprise / x
        consensusRecordedNs := recordedNs, publishedNs := row.publishedNs,
        usableNs := row.receivedNs, valid := true, seriesId := r.seriesId,
        dispersion := scale.scale, dispersionN := scale.n,
        dispersionMethod := some scale.method }

def surprise (eventId : String) (q : SurpriseQuery) : Option Surprise := do
  let row ← c.actuals.get? eventId
  let r ← c.events.get eventId
  return c.surpriseOf sd r row q

/-! ## Writes -/

inductive Write where
  | event (e : CalendarEvent)
  | reschedule (fromNs toNs : ℤ)
  | consensus (v : ConsensusVersion)
  | actual (w : Release)

def Write.publicationNs : Write → Option ℤ
  | .event _ => none
  | .reschedule _ _ => none
  | .consensus v => some v.recordedNs
  | .actual w => some w.publishedNs

def write (c : EconomicCalendar) : Write → EconomicCalendar
  | .event e => { c with events := c.events.afterAdd e }
  | .reschedule fromNs toNs => { c with events := (c.events.rescheduleForDst fromNs toNs).2 }
  | .consensus v => c.recordConsensus v
  | .actual w => c.recordActual w

end EconomicCalendar

end Sentinel

namespace Sentinel

namespace EconomicCalendar

def empty : EconomicCalendar := { events := .empty }

def Write.late (t : ℤ) (w : Write) : Bool := w.publicationNs.any (t < ·)

def written (writes : List Write) : EconomicCalendar := writes.foldl write empty

def writtenBy (t : ℤ) (writes : List Write) : EconomicCalendar :=
  written (writes.filter fun w => !w.late t)

variable (sd : List Dec → Dec)

/-- The two calendars give the same surprises for a decision at `t`. -/
def SameSurprises (t : ℤ) (full early : EconomicCalendar) : Prop :=
  (∀ eventId q, q.decisionNs = some t → full.surprise sd eventId q = early.surprise sd eventId q) ∧
    ∀ seriesId excluded,
      full.historicalSurprises seriesId t excluded = early.historicalSurprises seriesId t excluded

/-- Every released value on record for an event of the calendar was published by
`t`, and the forecast that stands at the event's time is the one that stands at
`t` when this is earlier. -/
def ReleasedBy (t : ℤ) (c : EconomicCalendar) : Prop :=
  ∀ r ∈ c.events.rows, ∀ row, c.actuals.get? r.eventId = some row →
    row.publishedNs ≤ t ∧
      c.valuedConsensus r.eventId r.eventNs = c.valuedConsensus r.eventId (min r.eventNs t)

/-! ## Linked calendars -/

def readColumns (row : ActualRow) : Option Dec × ℤ × ℤ :=
  (row.actual, row.publishedNs, row.receivedNs)

structure Linked (t : ℤ) (full early : EconomicCalendar) : Prop where
  events : early.events = full.events
  consensus : early.consensus = full.consensus.filter fun v => v.recordedNs ≤ t
  actuals : ∀ id, (∀ row, full.actuals.get? id = some row → row.publishedNs ≤ t) →
    (early.actuals.get? id).map readColumns = (full.actuals.get? id).map readColumns
  published : ∀ id row, early.actuals.get? id = some row → row.publishedNs ≤ t

theorem linked_empty (t : ℤ) : Linked t empty empty where
  events := rfl
  consensus := rfl
  actuals := fun _ _ => rfl
  published := fun _ _ h => nomatch h

variable {t : ℤ} {full early : EconomicCalendar}

theorem Linked.write {t : ℤ} {full early : EconomicCalendar} (h : Linked t full early)
    {w : Write} (hearly : w.late t = false) : Linked t (full.write w) (early.write w) := by
  cases w with
  | event e => exact ⟨congrArg (·.afterAdd e) h.events, h.consensus, h.actuals, h.published⟩
  | reschedule fromNs toNs =>
      exact ⟨congrArg (fun u => (u.rescheduleForDst fromNs toNs).2) h.events, h.consensus,
        h.actuals, h.published⟩
  | consensus v =>
      have hby : v.recordedNs ≤ t := by simpa [Write.late, Write.publicationNs] using hearly
      have hany : (early.consensus.any fun w => w.eventId = v.eventId &&
          w.recordedNs = v.recordedNs) = full.consensus.any fun w => w.eventId = v.eventId &&
          w.recordedNs = v.recordedNs := by
        rw [h.consensus, List.any_filter]
        congr 1
        funext w
        by_cases hrec : w.recordedNs = v.recordedNs
        · simp [hrec, hby]
        · simp [hrec]
      simp only [EconomicCalendar.write, recordConsensus, hany]
      split_ifs
      · exact h
      · refine ⟨h.events, ?_, h.actuals, h.published⟩
        rw [List.filter_append, h.consensus]
        simp [hby]
  | actual w =>
      have hby : w.publishedNs ≤ t := by simpa [Write.late, Write.publicationNs] using hearly
      refine ⟨congrArg (fun u => u.update w.eventId (·.released) CalendarEvent.eventId_released)
        h.events, h.consensus, ?_, ?_⟩
      · intro id hid
        simp only [EconomicCalendar.write, recordActual] at hid ⊢
        by_cases heq : id = w.eventId
        · subst heq
          rw [Dict.get?_set_self, Dict.get?_set_self]
          rfl
        · rw [Dict.get?_set_of_ne _ heq] at hid
          rw [Dict.get?_set_of_ne _ heq, Dict.get?_set_of_ne _ heq]
          exact h.actuals id hid
      · intro id row hrow
        simp only [EconomicCalendar.write, recordActual] at hrow
        by_cases heq : id = w.eventId
        · subst heq
          rw [Dict.get?_set_self] at hrow
          cases hrow
          exact hby
        · rw [Dict.get?_set_of_ne _ heq] at hrow
          exact h.published id row hrow

def Releases (c : EconomicCalendar) : Write → Prop
  | .actual w => w.eventId ∈ c.events.rows.map CalendarEvent.eventId
  | _ => False

theorem update_of_notMem {u : EventTable} {id : String}
    (h : id ∉ u.rows.map CalendarEvent.eventId) (f : CalendarEvent → CalendarEvent)
    (hf : ∀ r, (f r).eventId = r.eventId) : u.update id f hf = u := by
  obtain ⟨rows, hnodup⟩ := u
  simp only [EventTable.update, EventTable.mapRows, EventTable.mk.injEq]
  conv_rhs => rw [← List.map_id rows]
  apply List.map_congr_left
  intro r hr
  rw [if_neg]
  · rfl
  · rintro rfl
    exact h (List.mem_map_of_mem hr)

theorem Linked.writeLate (h : Linked t full early)
    {w : Write} (hlate : w.late t = true) (hreleases : ¬full.Releases w) :
    Linked t (full.write w) early := by
  cases w with
  | event e => cases hlate
  | reschedule fromNs toNs => cases hlate
  | consensus v =>
      have hafter : t < v.recordedNs := by simpa [Write.late, Write.publicationNs] using hlate
      simp only [EconomicCalendar.write, recordConsensus]
      split_ifs
      · exact h
      · refine ⟨h.events, ?_, h.actuals, h.published⟩
        rw [List.filter_append, h.consensus]
        simp [hafter]
  | actual w =>
      have hafter : t < w.publishedNs := by simpa [Write.late, Write.publicationNs] using hlate
      refine ⟨?_, h.consensus, ?_, h.published⟩
      · rw [h.events]
        exact (update_of_notMem hreleases (·.released) CalendarEvent.eventId_released).symm
      · intro id hid
        simp only [EconomicCalendar.write, recordActual] at hid ⊢
        by_cases heq : id = w.eventId
        · subst heq
          have hrow := hid _ (Dict.get?_set_self _ _ _)
          exact absurd hrow (not_le.mpr hafter)
        · rw [Dict.get?_set_of_ne _ heq] at hid ⊢
          exact h.actuals id hid

/-! ## What a surprise shows -/

theorem get_of_mem {u : EventTable} {r : CalendarEvent} (hr : r ∈ u.rows) :
    u.get r.eventId = some r := by
  obtain ⟨rows, hnodup⟩ := u
  rw [EventTable.get]
  cases hfind : rows.find? fun other => other.eventId = r.eventId with
  | none =>
      have hnone := List.find?_eq_none.mp hfind r hr
      simp at hnone
  | some other =>
      have hid : other.eventId = r.eventId := by simpa using List.find?_some hfind
      have hmem := List.mem_of_find?_eq_some hfind
      rw [List.inj_on_of_nodup_map hnodup hmem hr hid]

theorem mem_of_get {u : EventTable} {id : String} {r : CalendarEvent} (h : u.get id = some r) :
    r ∈ u.rows ∧ r.eventId = id :=
  ⟨List.mem_of_find?_eq_some h, by simpa using List.find?_some h⟩

def Surprise.observed (s : Surprise) : Option (Dec × ℤ) :=
  if s.valid then some (s.consensus, s.consensusRecordedNs) else none

theorem observed_surpriseOf (c : EconomicCalendar) (r : CalendarEvent)
    (row : ActualRow) (q : SurpriseQuery) :
    (c.surpriseOf sd r row q).observed = c.valuedConsensus r.eventId r.eventNs := by
  rw [surpriseOf]
  cases c.valuedConsensus r.eventId r.eventNs <;> rfl

theorem publishedNs_surpriseOf (c : EconomicCalendar) (r : CalendarEvent)
    (row : ActualRow) (q : SurpriseQuery) :
    (c.surpriseOf sd r row q).publishedNs = row.publishedNs := by
  rw [surpriseOf]
  cases c.valuedConsensus r.eventId r.eventNs <;> rfl

theorem surprise_eq {c : EconomicCalendar} {r : CalendarEvent} {row : ActualRow}
    (hr : r ∈ c.events.rows) (hrow : c.actuals.get? r.eventId = some row)
    (sd : List Dec → Dec) (q : SurpriseQuery) :
    c.surprise sd r.eventId q = some (c.surpriseOf sd r row q) := by
  simp [surprise, hrow, get_of_mem hr]

theorem surprise_eq_some {c : EconomicCalendar} {sd : List Dec → Dec} {eventId : String}
    {q : SurpriseQuery} {s : Surprise} (h : c.surprise sd eventId q = some s) :
    ∃ row r, c.actuals.get? eventId = some row ∧ c.events.get eventId = some r ∧
      s = c.surpriseOf sd r row q := by
  rw [surprise] at h
  cases hrow : c.actuals.get? eventId with
  | none => simp [hrow] at h
  | some row =>
      cases hr : c.events.get eventId with
      | none => simp [hrow, hr] at h
      | some r =>
          refine ⟨row, r, rfl, rfl, ?_⟩
          simpa [hrow, hr, eq_comm] using h

theorem Linked.valuedConsensus_eq (h : Linked t full early) (eventId : String) (asOfNs : ℤ) :
    early.valuedConsensus eventId asOfNs = full.valuedConsensus eventId (min asOfNs t) := by
  have hfilter : (early.consensus.filter fun v => v.eventId = eventId &&
      v.recordedNs ≤ asOfNs) = full.consensus.filter fun v => v.eventId = eventId &&
      v.recordedNs ≤ min asOfNs t := by
    rw [h.consensus, List.filter_filter]
    apply List.filter_congr
    intro v _
    by_cases hasOf : v.recordedNs ≤ asOfNs <;> by_cases hby : v.recordedNs ≤ t <;>
      simp [hasOf, hby]
  rw [valuedConsensus, valuedConsensus, consensusAsOf, consensusAsOf, hfilter]

theorem Linked.exists_row (h : Linked t full early)
    {id : String} {row : ActualRow} (hrow : full.actuals.get? id = some row)
    (hby : row.publishedNs ≤ t) :
    ∃ row', early.actuals.get? id = some row' ∧ readColumns row' = readColumns row := by
  have hcolumns := h.actuals id (by
    intro row' hrow'
    rw [hrow] at hrow'
    cases hrow'
    exact hby)
  rw [hrow] at hcolumns
  exact Option.map_eq_some_iff.mp hcolumns

theorem Linked.get?_none (h : Linked t full early)
    {id : String} (hrow : full.actuals.get? id = none) : early.actuals.get? id = none := by
  have hcolumns := h.actuals id (by
    intro row' hrow'
    rw [hrow] at hrow'
    cases hrow')
  rw [hrow] at hcolumns
  exact Option.map_eq_none_iff.mp hcolumns

theorem Linked.releasedBy (h : Linked t full early)
    {sd : List Dec → Dec} (hsame : SameSurprises sd t full early) : full.ReleasedBy t := by
  intro r hr row hrow
  have hfull := surprise_eq hr hrow sd { decisionNs := some t }
  rw [hsame.1 r.eventId { decisionNs := some t } rfl] at hfull
  obtain ⟨row', r', hrow', hr', hshown⟩ := surprise_eq_some hfull
  rw [h.events, get_of_mem hr] at hr'
  cases hr'
  constructor
  · have hpublished := congrArg Surprise.publishedNs hshown
    rw [publishedNs_surpriseOf, publishedNs_surpriseOf] at hpublished
    rw [hpublished]
    exact h.published _ _ hrow'
  · have hobserved := congrArg Surprise.observed hshown
    rw [observed_surpriseOf, observed_surpriseOf, h.valuedConsensus_eq] at hobserved
    exact hobserved

theorem Linked.pastSurprise_eq (h : Linked t full early)
    (hby : full.ReleasedBy t) (seriesId : String) (excluded : Option String)
    {r : CalendarEvent} (hr : r ∈ full.events.rows) :
    full.pastSurprise seriesId t excluded r = early.pastSurprise seriesId t excluded r := by
  rw [pastSurprise, pastSurprise]
  cases hrow : full.actuals.get? r.eventId with
  | none => simp [h.get?_none hrow]
  | some row =>
      obtain ⟨hpublished, hconsensus⟩ := hby r hr row hrow
      obtain ⟨row', hrow', hcolumns⟩ := h.exists_row hrow hpublished
      rw [readColumns, readColumns, Prod.mk.injEq, Prod.mk.injEq] at hcolumns
      rw [hrow', h.valuedConsensus_eq, hconsensus]
      simp only [Option.bind_eq_bind, Option.bind_some, hcolumns.1, hcolumns.2.1]

theorem dispersionFor_congr {c c' : EconomicCalendar}
    (h : ∀ seriesId excluded,
      c.historicalSurprises seriesId t excluded = c'.historicalSurprises seriesId t excluded)
    (sd : List Dec → Dec) (r : CalendarEvent) {q : SurpriseQuery} (hq : q.decisionNs = some t) :
    c.dispersionFor sd r q = c'.dispersionFor sd r q := by
  rw [dispersionFor, dispersionFor, hq]
  cases q.historySd.filter (0 < ·) with
  | some supplied => rfl
  | none =>
      cases r.seriesId.filter (· ≠ "") with
      | none => rfl
      | some series =>
          simp only [Option.getD_some]
          rw [surpriseDispersion, surpriseDispersion, h]

theorem Linked.sameSurprises (h : Linked t full early)
    (sd : List Dec → Dec) (hby : full.ReleasedBy t) : SameSurprises sd t full early := by
  have hhistory : ∀ seriesId excluded, full.historicalSurprises seriesId t excluded =
      early.historicalSurprises seriesId t excluded := by
    intro seriesId excluded
    rw [historicalSurprises, historicalSurprises, h.events]
    congr 1
    apply List.filterMap_congr
    intro r hr
    exact h.pastSurprise_eq hby seriesId excluded hr
  refine ⟨?_, hhistory⟩
  intro eventId q hq
  rw [surprise, surprise, h.events]
  cases hrow : full.actuals.get? eventId with
  | none => simp [h.get?_none hrow]
  | some row =>
      cases hr : full.events.get eventId with
      | none => cases early.actuals.get? eventId <;> simp
      | some r =>
          obtain ⟨hmem, rfl⟩ := mem_of_get hr
          obtain ⟨hpublished, hconsensus⟩ := hby r hmem row hrow
          obtain ⟨row', hrow', hcolumns⟩ := h.exists_row hrow hpublished
          rw [readColumns, readColumns, Prod.mk.injEq, Prod.mk.injEq] at hcolumns
          have hscale := dispersionFor_congr hhistory sd r hq
          have hof : full.surpriseOf sd r row q = early.surpriseOf sd r row' q := by
            rw [surpriseOf, surpriseOf, h.valuedConsensus_eq, hconsensus, hscale, hcolumns.1,
              hcolumns.2.1, hcolumns.2.2]
          simp [hrow', hof]

/-! ## Histories -/

theorem not_sameSurprises_of_releases
    (h : Linked t full early) {w : Write} (hlate : w.late t = true)
    (hreleases : full.Releases w) (sd : List Dec → Dec) :
    ¬SameSurprises sd t (full.write w) early ∧ ¬(full.write w).ReleasedBy t := by
  cases w with
  | event e => cases hlate
  | reschedule fromNs toNs => cases hlate
  | consensus v => cases hreleases
  | actual w =>
      have hafter : t < w.publishedNs := by simpa [Write.late, Write.publicationNs] using hlate
      obtain ⟨r, hr, hid⟩ := List.mem_map.mp hreleases
      have hmem : r.released ∈ (full.write (.actual w)).events.rows := by
        apply List.mem_map.mpr
        refine ⟨r, hr, ?_⟩
        rw [if_pos hid]
      have hrow : (full.write (.actual w)).actuals.get? r.released.eventId =
          some (w.row (full.actuals.get? w.eventId)) := by
        rw [CalendarEvent.eventId_released, hid]
        exact Dict.get?_set_self _ _ _
      constructor
      · intro hsame
        have hshown := surprise_eq hmem hrow sd { decisionNs := some t }
        rw [hsame.1 _ _ rfl] at hshown
        obtain ⟨row', r', hrow', -, heq⟩ := surprise_eq_some hshown
        have hpublished := congrArg Surprise.publishedNs heq
        rw [publishedNs_surpriseOf, publishedNs_surpriseOf] at hpublished
        have hby := h.published _ _ hrow'
        rw [← hpublished] at hby
        exact absurd hby (not_le.mpr hafter)
      · intro hby
        have hpublished := (hby _ hmem _ hrow).1
        exact absurd hpublished (not_le.mpr hafter)

theorem written_append (writes : List Write) (w : Write) :
    written (writes ++ [w]) = (written writes).write w := by
  rw [written, List.foldl_append]
  rfl

theorem writtenBy_append (t : ℤ) (writes : List Write) (w : Write) :
    writtenBy t (writes ++ [w]) =
      if w.late t then writtenBy t writes else (writtenBy t writes).write w := by
  rw [writtenBy, List.filter_append]
  cases hlate : w.late t with
  | true => simp [hlate, writtenBy]
  | false =>
      rw [List.filter_cons_of_pos (by simp [hlate]), List.filter_nil, written_append]
      rfl

theorem linked_of_forall {writes : List Write}
    (h : ∀ pre, pre <+: writes →
      SameSurprises sd t (written pre) (writtenBy t pre) ∨ (written pre).ReleasedBy t) :
    Linked t (written writes) (writtenBy t writes) := by
  induction writes using List.reverseRecOn with
  | nil => exact linked_empty t
  | append_singleton writes w ih =>
      have hlinked := ih fun pre hpre => h pre (hpre.trans (List.prefix_append writes [w]))
      have hlast := h (writes ++ [w]) List.prefix_rfl
      rw [written_append, writtenBy_append] at hlast ⊢
      cases hlate : w.late t with
      | false => exact hlinked.write hlate
      | true =>
          rw [hlate, if_pos rfl] at hlast
          apply hlinked.writeLate hlate
          intro hreleases
          obtain ⟨hdiffer, hlater⟩ := not_sameSurprises_of_releases hlinked hlate hreleases sd
          exact hlast.elim hdiffer hlater

/-- At every point of a history the surprises for a decision are those without
the later writes, exactly when at every point the released events were released
by then and no later forecast stands at their time. -/
theorem sameSurprises_iff (t : ℤ) (writes : List Write) :
    (∀ pre, pre <+: writes → SameSurprises sd t (written pre) (writtenBy t pre)) ↔
      ∀ pre, pre <+: writes → (written pre).ReleasedBy t := by
  constructor
  · intro h pre hpre
    have hlinked := linked_of_forall sd fun pre' hpre' => .inl (h pre' (hpre'.trans hpre))
    exact hlinked.releasedBy (h pre hpre)
  · intro h pre hpre
    have hlinked := linked_of_forall sd fun pre' hpre' => .inr (h pre' (hpre'.trans hpre))
    exact hlinked.sameSurprises sd (h pre hpre)

def firstPrint : List Write :=
  [.event { eventId := "E", eventNs := 100, currency := "USD", name := "CPI",
            seriesId := some "CPI" },
    .consensus { eventId := "E", recordedNs := 50, consensus := some 2, previous := none },
    .actual { eventId := "E", actual := some 3, publishedNs := 100, receivedNs := 100 }]

def revisedPrint : List Write :=
  firstPrint ++
    [.actual { eventId := "E", actual := some 1, publishedNs := 200, receivedNs := 200 }]

/-- For a decision at 150 the revision of 200 replaces the first print, and
takes it out of the history of its series. -/
theorem not_sameSurprises_revised :
    ¬SameSurprises (fun _ => 0) 150 (written revisedPrint) (writtenBy 150 revisedPrint) := by
  intro h
  have hsurprise := h.1 "E" { decisionNs := some 150 } rfl
  exact absurd (congrArg (Option.map Surprise.publishedNs) hsurprise) (by decide +kernel)

end EconomicCalendar

end Sentinel
