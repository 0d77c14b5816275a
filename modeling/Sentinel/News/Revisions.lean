import Sentinel.News.Calendar
import Sentinel.Support.Runs

/-!
# The log of revisions

What a restatement changes is written to the log by one statement and to the row by
another, under guards of their own.  Replayed over an event's first version the log gives
its row as long as no restatement is weaker than the row, and none changes a column that
is not logged.
-/

namespace Sentinel

structure EventColumns where
  country : String
  unit : Option String := none
  source : String := "manual"
  deriving DecidableEq

inductive EventChange where
  | eventNs (old new : ℤ)
  | certainty (old new : Certainty)
  | forecast (old : Option Dec) (new : Dec)
  | previous (old : Option Dec) (new : Dec)
  | curatedImpact (old new : Impact)
  | name (old new : String)
  deriving DecidableEq

/-- A row of `event_revisions`. -/
structure EventRevision where
  eventId : String
  change : EventChange
  source : String
  deriving DecidableEq

namespace EventChange

def apply (r : CalendarEvent) : EventChange → CalendarEvent
  | eventNs _ new => { r with eventNs := new }
  | certainty _ new => { r with certainty := new }
  | forecast _ new => { r with forecast := some new }
  | previous _ new => { r with previous := some new }
  | curatedImpact _ new => { r with curatedImpact := new }
  | name _ new => { r with name := new }

def replay (r : CalendarEvent) (changes : List EventChange) : CalendarEvent :=
  changes.foldl apply r

theorem replay_append (r : CalendarEvent) (changes changes' : List EventChange) :
    replay r (changes ++ changes') = replay (replay r changes) changes' :=
  List.foldl_append

end EventChange

namespace CalendarEvent

/-- What `add_event` records of a restatement. -/
def changes (row e : CalendarEvent) : List EventChange :=
  (if row.eventNs ≠ e.eventNs then [.eventNs row.eventNs e.eventNs] else []) ++
  (if row.certainty ≠ e.certainty then [.certainty row.certainty e.certainty] else []) ++
  (match e.forecast with
    | some new => if row.forecast ≠ some new then [.forecast row.forecast new] else []
    | none => []) ++
  (match e.previous with
    | some new => if row.previous ≠ some new then [.previous row.previous new] else []
    | none => []) ++
  (if row.curatedImpact ≠ e.curatedImpact then
    [.curatedImpact row.curatedImpact e.curatedImpact] else []) ++
  (if row.name ≠ e.name then [.name row.name e.name] else [])

/-- What `reschedule_for_dst` records of a row. -/
def moved (fromNs toNs : ℤ) (r : CalendarEvent) : List EventChange :=
  if (r.rescheduled fromNs toNs).eventNs ≠ r.eventNs then
    [.eventNs r.eventNs (r.rescheduled fromNs toNs).eventNs]
  else []

def uncounted (r : CalendarEvent) : CalendarEvent := { r with revisionCount := 0 }

end CalendarEvent

structure RevisedCalendar where
  events : EventTable := .empty
  columns : String → EventColumns := fun _ => { country := "" }
  revisions : List EventRevision := []
  first : String → Option (CalendarEvent × EventColumns) := fun _ => none

/-- The calls that write events. -/
inductive CalendarMove where
  | add (e : CalendarEvent) (x : EventColumns)
  | reschedule (fromNs toNs : ℤ)

namespace RevisedCalendar

variable (c : RevisedCalendar)

/-- `add_event`; a row that the index refuses changes nothing. -/
def addEvent (e : CalendarEvent) (x : EventColumns) : RevisedCalendar :=
  match c.events.restates e with
  | none =>
      if c.events.conflicts e then c
      else
        { c with
          events := c.events.afterAdd e
          columns := fun id => if id = e.eventId then x else c.columns id
          first := fun id => if id = e.eventId then some (e.uncounted, x) else c.first id }
  | some row =>
      { c with
        events := c.events.afterAdd e
        columns := fun id =>
          if id = row.eventId then { x with unit := (c.columns id).unit } else c.columns id
        revisions :=
          c.revisions ++ (row.changes e).map fun change => ⟨row.eventId, change, x.source⟩ }

def rescheduleForDst (c : RevisedCalendar) (fromNs toNs : ℤ) : RevisedCalendar :=
  { c with
    events := (c.events.rescheduleForDst fromNs toNs).2
    revisions := c.revisions ++ c.events.rows.flatMap fun r =>
      (r.moved fromNs toNs).map fun change => ⟨r.eventId, change, "dst_recompute"⟩ }

def step : CalendarMove → RevisedCalendar
  | .add e x => c.addEvent e x
  | .reschedule fromNs toNs => c.rescheduleForDst fromNs toNs

def changesOf (id : String) : List EventChange :=
  (c.revisions.filter fun rev => rev.eventId = id).map EventRevision.change

/-- Replayed over the first version of an event, its changes give its row. -/
def InSync : Prop :=
  ∀ row ∈ c.events.rows, ∃ first, c.first row.eventId = some first ∧
    EventChange.replay first.1 (c.changesOf row.eventId) = row.uncounted ∧
    first.2 = c.columns row.eventId

def Recorded : CalendarMove → Prop
  | .add e x => ∀ row, c.events.restates e = some row →
      row.weaker e = false ∧ e.currency = row.currency ∧
      (given row.measuredImpact = true ∨ e.impact = row.impact) ∧
      (e.zone = "" ∨ e.zone = row.zone) ∧ (e.localTime = "" ∨ e.localTime = row.localTime) ∧
      x.country = (c.columns row.eventId).country ∧ x.source = (c.columns row.eventId).source
  | .reschedule _ _ => True

end RevisedCalendar

/-! ## The changes of one call -/

theorem EventChange.replay_noted {α : Type} [DecidableEq α] {q : CalendarEvent}
    {change : EventChange} {old new : α} (set : α → CalendarEvent)
    (hnew : apply q change = set new) (hold : set old = q) :
    replay q (if old ≠ new then [change] else []) = set new := by
  split_ifs with hsame
  · exact hnew
  · rw [← not_not.mp hsame]
    exact hold.symm

namespace CalendarEvent

theorem replay_changes (row e : CalendarEvent) :
    EventChange.replay row.uncounted (row.changes e) =
      { row.uncounted with
        eventNs := e.eventNs
        certainty := e.certainty
        forecast := e.forecast.or row.forecast
        previous := e.previous.or row.previous
        curatedImpact := e.curatedImpact
        name := e.name } := by
  have htime : EventChange.replay row.uncounted
      (if row.eventNs ≠ e.eventNs then [.eventNs row.eventNs e.eventNs] else []) =
        { row.uncounted with eventNs := e.eventNs } :=
    EventChange.replay_noted (fun t => { row.uncounted with eventNs := t }) rfl rfl
  have hcertainty : ∀ q : CalendarEvent, q.certainty = row.certainty → EventChange.replay q
      (if row.certainty ≠ e.certainty then [.certainty row.certainty e.certainty] else []) =
        { q with certainty := e.certainty } := fun q hq =>
    EventChange.replay_noted (fun x => { q with certainty := x }) rfl (by rw [← hq])
  have hforecast : ∀ q : CalendarEvent, q.forecast = row.forecast →
      EventChange.replay q (match e.forecast with
        | some new => if row.forecast ≠ some new then [.forecast row.forecast new] else []
        | none => []) = { q with forecast := e.forecast.or row.forecast } := by
    intro q hq
    rcases e.forecast with _ | new
    · rw [Option.none_or, ← hq]
      rfl
    · exact EventChange.replay_noted (fun x => { q with forecast := x }) rfl (by rw [← hq])
  have hprevious : ∀ q : CalendarEvent, q.previous = row.previous →
      EventChange.replay q (match e.previous with
        | some new => if row.previous ≠ some new then [.previous row.previous new] else []
        | none => []) = { q with previous := e.previous.or row.previous } := by
    intro q hq
    rcases e.previous with _ | new
    · rw [Option.none_or, ← hq]
      rfl
    · exact EventChange.replay_noted (fun x => { q with previous := x }) rfl (by rw [← hq])
  have hcurated : ∀ q : CalendarEvent, q.curatedImpact = row.curatedImpact →
      EventChange.replay q (if row.curatedImpact ≠ e.curatedImpact then
        [.curatedImpact row.curatedImpact e.curatedImpact] else []) =
        { q with curatedImpact := e.curatedImpact } := fun q hq =>
    EventChange.replay_noted (fun x => { q with curatedImpact := x }) rfl (by rw [← hq])
  have hname : ∀ q : CalendarEvent, q.name = row.name → EventChange.replay q
      (if row.name ≠ e.name then [.name row.name e.name] else []) =
        { q with name := e.name } := fun q hq =>
    EventChange.replay_noted (fun x => { q with name := x }) rfl (by rw [← hq])
  rw [changes, EventChange.replay_append, EventChange.replay_append, EventChange.replay_append,
    EventChange.replay_append, EventChange.replay_append, htime, hcertainty _ (by rfl),
    hforecast _ (by rfl), hprevious _ (by rfl), hcurated _ (by rfl), hname _ (by rfl)]

theorem replay_changes_eq_iff (row e : CalendarEvent) :
    EventChange.replay row.uncounted (row.changes e) = (row.restated e).uncounted ↔
      row.weaker e = false ∧ e.currency = row.currency ∧
      (given row.measuredImpact = true ∨ e.impact = row.impact) ∧
      (e.zone = "" ∨ e.zone = row.zone) ∧ (e.localTime = "" ∨ e.localTime = row.localTime) := by
  have hcertainty : e.certainty = row.mergedCertainty e ↔ row.weaker e = false := by
    rw [mergedCertainty, weaker]
    rcases row.certainty with _ | _ | _ <;> rcases e.certainty with _ | _ | _ <;> decide
  have hkept : ∀ {α : Type} {p : Prop} [Decidable p] {old new : α},
      old = (if p then old else new) ↔ p ∨ new = old := by
    intro α p hp old new
    split_ifs with h
    · simp [h]
    · simp [h, eq_comm]
  rw [replay_changes]
  simp only [uncounted, restated, CalendarEvent.mk.injEq, true_and, and_true, hcertainty, hkept]
  constructor
  · rintro ⟨-, hcurrency, himpact, hzone, hlocal, hweaker⟩
    exact ⟨hweaker, hcurrency.symm, himpact, hzone, hlocal⟩
  · rintro ⟨hweaker, hcurrency, himpact, hzone, hlocal⟩
    exact ⟨by rw [hweaker]; rfl, hcurrency.symm, himpact, hzone, hlocal, hweaker⟩

theorem replay_moved (fromNs toNs : ℤ) (r : CalendarEvent) :
    EventChange.replay r.uncounted (r.moved fromNs toNs) =
      (r.rescheduled fromNs toNs).uncounted := by
  have hrow : r.rescheduled fromNs toNs =
      { r with eventNs := (r.rescheduled fromNs toNs).eventNs } := by
    rw [rescheduled]
    split_ifs
    · rfl
    · rfl
  rw [moved]
  split_ifs with hmoved
  · rw [hrow]
    rfl
  · rw [hrow, not_not.mp hmoved]
    rfl

end CalendarEvent

/-! ## The log of an event -/

namespace RevisedCalendar

def changesIn (id : String) (revisions : List EventRevision) : List EventChange :=
  (revisions.filter fun rev => rev.eventId = id).map EventRevision.change

theorem changesIn_append (id : String) (revisions revisions' : List EventRevision) :
    changesIn id (revisions ++ revisions') =
      changesIn id revisions ++ changesIn id revisions' := by
  rw [changesIn, List.filter_append, List.map_append]
  rfl

theorem changesIn_map (id eventId source : String) (changes : List EventChange) :
    changesIn id (changes.map fun change => ⟨eventId, change, source⟩) =
      if eventId = id then changes else [] := by
  rw [changesIn, List.filter_map, List.map_map]
  split_ifs with hid
  · rw [List.filter_eq_self.mpr (by simp [hid])]
    exact List.map_id changes
  · rw [List.filter_eq_nil_iff.mpr (by simp [hid])]
    rfl

theorem changesIn_flatMap {rows : List CalendarEvent}
    (hnodup : (rows.map CalendarEvent.eventId).Nodup) {row : CalendarEvent} (hrow : row ∈ rows)
    (source : String) (changes : CalendarEvent → List EventChange) :
    changesIn row.eventId (rows.flatMap fun r => (changes r).map fun change =>
      ⟨r.eventId, change, source⟩) = changes row := by
  induction rows with
  | nil => cases hrow
  | cons r rows ih =>
    rw [List.map_cons, List.nodup_cons] at hnodup
    rw [List.flatMap_cons, changesIn_append, changesIn_map]
    rcases List.mem_cons.mp hrow with rfl | hrest
    · have hothers : changesIn row.eventId (rows.flatMap fun r => (changes r).map fun change =>
          ⟨r.eventId, change, source⟩) = [] := by
        rw [changesIn, List.filter_eq_nil_iff.mpr, List.map_nil]
        intro rev hrev
        obtain ⟨r, hr, hrev⟩ := List.mem_flatMap.mp hrev
        obtain ⟨change, -, rfl⟩ := List.mem_map.mp hrev
        simp only [decide_eq_true_eq]
        intro hid
        exact hnodup.1 (hid ▸ List.mem_map_of_mem hr)
      rw [if_pos rfl, hothers, List.append_nil]
    · have hne : r.eventId ≠ row.eventId := by
        intro hid
        exact hnodup.1 (hid ▸ List.mem_map_of_mem hrest)
      rw [if_neg hne, List.nil_append]
      exact ih hnodup.2 hrest

theorem changesOf_eq (c : RevisedCalendar) (id : String) :
    c.changesOf id = changesIn id c.revisions := rfl

def Known (c : RevisedCalendar) : Prop :=
  ∀ rev ∈ c.revisions, rev.eventId ∈ c.events.rows.map CalendarEvent.eventId

variable {c : RevisedCalendar}

theorem Known.changesOf_eq_nil (h : c.Known) {id : String}
    (hid : id ∉ c.events.rows.map CalendarEvent.eventId) : c.changesOf id = [] := by
  rw [changesOf, List.filter_eq_nil_iff.mpr, List.map_nil]
  intro rev hrev
  rw [decide_eq_true_eq]
  intro heq
  exact hid (heq ▸ h rev hrev)

/-! ## One call -/

theorem eventIds_mapRows (t : EventTable) (f : CalendarEvent → CalendarEvent)
    (hf : ∀ r, (f r).eventId = r.eventId) :
    (t.mapRows f hf).rows.map CalendarEvent.eventId = t.rows.map CalendarEvent.eventId := by
  rw [EventTable.mapRows, List.map_map]
  exact List.map_congr_left fun r _ => hf r

theorem addEvent_of_restates {e row : CalendarEvent} (x : EventColumns)
    (h : c.events.restates e = some row) :
    c.addEvent e x =
      { c with
        events := c.events.afterAdd e
        columns := fun id =>
          if id = row.eventId then { x with unit := (c.columns id).unit } else c.columns id
        revisions :=
          c.revisions ++ (row.changes e).map fun change => ⟨row.eventId, change, x.source⟩ } := by
  rw [addEvent, h]

theorem addEvent_of_new {e : CalendarEvent} (x : EventColumns)
    (h : c.events.restates e = none) :
    c.addEvent e x =
      if c.events.conflicts e then c
      else
        { c with
          events := c.events.afterAdd e
          columns := fun id => if id = e.eventId then x else c.columns id
          first := fun id => if id = e.eventId then some (e.uncounted, x) else c.first id } := by
  rw [addEvent, h]

theorem eventIds_restated (t : EventTable) {e row : CalendarEvent} (h : t.restates e = some row) :
    (t.afterAdd e).rows.map CalendarEvent.eventId = t.rows.map CalendarEvent.eventId := by
  rw [EventTable.afterAdd_of_restates h]
  exact eventIds_mapRows t _ _

theorem Known.step (h : c.Known) (m : CalendarMove) : (c.step m).Known := by
  cases m with
  | add e x =>
    rw [RevisedCalendar.step]
    rcases hrestates : c.events.restates e with _ | row
    · rw [addEvent_of_new x hrestates]
      split_ifs with hconflicts
      · exact h
      · intro rev hrev
        simp only [EventTable.rows_afterAdd_of_new hrestates, if_neg hconflicts, List.map_append,
          List.mem_append]
        exact Or.inl (h rev hrev)
    · rw [addEvent_of_restates x hrestates]
      intro rev hrev
      simp only [eventIds_restated c.events hrestates]
      rcases List.mem_append.mp hrev with hold | hnew
      · exact h rev hold
      · obtain ⟨change, -, rfl⟩ := List.mem_map.mp hnew
        exact List.mem_map_of_mem (EventTable.restates_mem hrestates)
  | reschedule fromNs toNs =>
    intro rev hrev
    have hids : ((c.step (.reschedule fromNs toNs)).events.rows.map CalendarEvent.eventId) =
        c.events.rows.map CalendarEvent.eventId :=
      eventIds_mapRows c.events _ fun r => r.eventId_rescheduled fromNs toNs
    rw [hids]
    rcases List.mem_append.mp hrev with hold | hnew
    · exact h rev hold
    · obtain ⟨r, hr, hrev⟩ := List.mem_flatMap.mp hnew
      obtain ⟨change, -, rfl⟩ := List.mem_map.mp hrev
      exact List.mem_map_of_mem hr

theorem InSync.reschedule (h : c.InSync) (fromNs toNs : ℤ) :
    (c.rescheduleForDst fromNs toNs).InSync := by
  intro row' hrow'
  obtain ⟨row, hrow, rfl⟩ := List.mem_map.mp hrow'
  obtain ⟨first, hfirst, hreplay, hcolumns⟩ := h row hrow
  rw [row.eventId_rescheduled]
  refine ⟨first, hfirst, ?_, hcolumns⟩
  rw [changesOf_eq, rescheduleForDst, changesIn_append,
    changesIn_flatMap c.events.nodup hrow "dst_recompute" (CalendarEvent.moved fromNs toNs),
    EventChange.replay_append, ← changesOf_eq, hreplay, CalendarEvent.replay_moved]

theorem InSync.insert (hknown : c.Known) (h : c.InSync)
    {e : CalendarEvent} (x : EventColumns) (hnew : c.events.restates e = none) :
    (c.addEvent e x).InSync := by
  have hfresh := EventTable.eventId_notMem_of_restates hnew
  rw [addEvent_of_new x hnew]
  split_ifs with hconflicts
  · exact h
  · intro row hrow
    simp only [EventTable.rows_afterAdd_of_new hnew, if_neg hconflicts, List.mem_append,
      List.mem_singleton] at hrow
    rcases hrow with hold | rfl
    · have hne : row.eventId ≠ e.eventId := by
        intro hid
        exact hfresh (hid ▸ List.mem_map_of_mem hold)
      obtain ⟨first, hfirst, hreplay, hcolumns⟩ := h row hold
      refine ⟨first, ?_, hreplay, ?_⟩
      · simp only [if_neg hne]
        exact hfirst
      · simp only [if_neg hne]
        exact hcolumns
    · refine ⟨(e.uncounted, x), ?_, ?_, ?_⟩
      · simp only [if_true]
      · have hnone : c.changesOf e.eventId = [] := hknown.changesOf_eq_nil hfresh
        change EventChange.replay e.uncounted (c.changesOf e.eventId) = e.uncounted
        rw [hnone]
        rfl
      · simp only [if_true]

theorem InSync.restate_iff (h : c.InSync) {e row : CalendarEvent}
    (x : EventColumns) (hrestates : c.events.restates e = some row) :
    (c.addEvent e x).InSync ↔
      EventChange.replay row.uncounted (row.changes e) = (row.restated e).uncounted ∧
        x.country = (c.columns row.eventId).country ∧
        x.source = (c.columns row.eventId).source := by
  have hrow := EventTable.restates_mem hrestates
  have hmem : ∀ r', r' ∈ (c.addEvent e x).events.rows ↔
      ∃ r ∈ c.events.rows, (if r.eventId = row.eventId then r.restated e else r) = r' := by
    intro r'
    rw [addEvent_of_restates x hrestates]
    simp only [EventTable.afterAdd_of_restates hrestates]
    exact List.mem_map
  have hchanges : ∀ id, (c.addEvent e x).changesOf id =
      c.changesOf id ++ if row.eventId = id then row.changes e else [] := by
    intro id
    rw [addEvent_of_restates x hrestates, changesOf_eq, changesIn_append, changesIn_map]
    rfl
  have hcolumnsOf : ∀ id, (c.addEvent e x).columns id =
      if id = row.eventId then { x with unit := (c.columns id).unit } else c.columns id := by
    intro id
    rw [addEvent_of_restates x hrestates]
  have hfirstOf : (c.addEvent e x).first = c.first := by
    rw [addEvent_of_restates x hrestates]
  obtain ⟨first, hfirst, hreplay, hcolumns⟩ := h row hrow
  have hunlogged : first.2 = { x with unit := (c.columns row.eventId).unit } ↔
      x.country = (c.columns row.eventId).country ∧
        x.source = (c.columns row.eventId).source := by
    rw [hcolumns]
    rcases c.columns row.eventId with ⟨country, unit, source⟩
    simp [eq_comm]
  constructor
  · intro hsync
    have hself := hsync (row.restated e) ((hmem _).mpr ⟨row, hrow, if_pos rfl⟩)
    rw [row.eventId_restated, hfirstOf, hchanges, if_pos rfl, hcolumnsOf, if_pos rfl] at hself
    obtain ⟨first', hfirst', hreplay', hcolumns'⟩ := hself
    obtain rfl := Option.some.inj (hfirst.symm.trans hfirst')
    rw [EventChange.replay_append, hreplay] at hreplay'
    exact ⟨hreplay', hunlogged.mp hcolumns'⟩
  · rintro ⟨hself, hkept⟩ r' hr'
    obtain ⟨r, hr, rfl⟩ := (hmem r').mp hr'
    by_cases hid : r.eventId = row.eventId
    · obtain rfl : r = row := List.inj_on_of_nodup_map c.events.nodup hr hrow hid
      rw [if_pos rfl, r.eventId_restated, hfirstOf, hchanges, if_pos rfl, hcolumnsOf, if_pos rfl]
      refine ⟨first, hfirst, ?_, hunlogged.mpr hkept⟩
      rw [EventChange.replay_append, hreplay]
      exact hself
    · rw [if_neg hid, hfirstOf, hchanges, if_neg (Ne.symm hid), List.append_nil, hcolumnsOf,
        if_neg hid]
      exact h r hr

theorem inSync_step_iff (hknown : c.Known) (h : c.InSync)
    (m : CalendarMove) : (c.step m).InSync ↔ c.Recorded m := by
  cases m with
  | add e x =>
    rw [step, Recorded]
    rcases hrestates : c.events.restates e with _ | row
    · simp [h.insert hknown x hrestates]
    · rw [h.restate_iff x hrestates, CalendarEvent.replay_changes_eq_iff]
      simp only [Option.some.injEq, forall_eq', and_assoc]
  | reschedule fromNs toNs => exact ⟨fun _ => trivial, fun _ => h.reschedule fromNs toNs⟩

/-- In every state of a run the log gives the rows exactly where every call of the run is
recorded. -/
theorem inSync_run_iff (moves : List CalendarMove) :
    Along step (fun c m => (c.step m).InSync) {} moves ↔ Along step Recorded {} moves := by
  refine Along.iff_of_kept (I := fun c : RevisedCalendar => c.Known ∧ c.InSync) ?_ ?_ ?_
  · exact fun c m hc hsync => ⟨hc.1.step m, hsync⟩
  · exact fun c m hc => inSync_step_iff hc.1 hc.2 m
  · exact ⟨fun rev hrev => absurd hrev List.not_mem_nil,
      fun row hrow => absurd hrow List.not_mem_nil⟩

def confirmedRelease : CalendarEvent where
  eventId := "A"
  eventNs := 10
  currency := "USD"
  name := "Payrolls"

def guessedRelease : CalendarEvent :=
  { confirmedRelease with eventNs := 20, certainty := .approximate }

/-- The guess is logged and not applied; a change of the currency is applied and not
logged. -/
theorem guess_logged_currency_not :
    ¬ (([.add confirmedRelease { country := "US" }, .add guessedRelease { country := "US" }] :
        List CalendarMove).foldl step {}).InSync ∧
    ¬ (([.add confirmedRelease { country := "US" },
        .add { confirmedRelease with currency := "EUR" } { country := "US" }] :
        List CalendarMove).foldl step {}).InSync := by
  constructor
  · intro hsync
    obtain ⟨first, hfirst, hreplay, -⟩ := hsync confirmedRelease (by decide +kernel)
    obtain rfl : (confirmedRelease, _) = first := Option.some.inj hfirst
    exact absurd hreplay (by decide +kernel)
  · intro hsync
    obtain ⟨first, hfirst, hreplay, -⟩ :=
      hsync { confirmedRelease with currency := "EUR" } (by decide +kernel)
    obtain rfl : (confirmedRelease, _) = first := Option.some.inj hfirst
    exact absurd hreplay (by decide +kernel)

end RevisedCalendar

end Sentinel
