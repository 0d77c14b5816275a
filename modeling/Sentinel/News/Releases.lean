import Sentinel.News.Blackout
import Sentinel.News.Ingest

/-!
# Every release has its window

The rows of a source are statements about releases.  A release is named by its
series and its period where the source states the period, and by its series and
its instant where the period is only the calendar month of the instant.  The
table keeps one row for a series and a period, which shows the last statement
under them: every release has its window exactly when no two releases stand
under the same series and period with different windows.
-/

namespace Sentinel

structure Release where
  seriesId : Option String
  period : Option String
  instant : Option ℤ
  deriving DecidableEq

/-- A row that a source hands over, with the labels of its release. -/
structure Statement where
  raw : RawRow
  periodStated : Bool
  labelled : raw.seriesId.isSome = true ∧ raw.period.isSome = true

namespace Statement

variable (L : List Statement) (s : Statement)

def release : Release :=
  { seriesId := s.raw.seriesId
    period := s.raw.period
    instant := if s.periodStated then none else some s.raw.eventNs }

def SameLabels (s s' : Statement) : Prop :=
  s.raw.seriesId = s'.raw.seriesId ∧ s.raw.period = s'.raw.period

def window : String × ℤ × Option Impact :=
  (s.raw.currency, s.raw.eventNs, s.raw.tier)

theorem SameLabels.symm {s s' : Statement} (h : s.SameLabels s') : s'.SameLabels s :=
  ⟨h.1.symm, h.2.symm⟩

theorem sameLabels_of_release {s s' : Statement} (h : s.release = s'.release) :
    s.SameLabels s' := ⟨congrArg Release.seriesId h, congrArg Release.period h⟩

/-- The last statement about its release. -/
def Standing : Prop :=
  ∃ before after, L = before ++ s :: after ∧ ∀ f ∈ after, f.release ≠ s.release

def LastUnder : Prop :=
  ∃ before after, L = before ++ s :: after ∧ ∀ f ∈ after, ¬ f.SameLabels s

theorem Standing.mem {L : List Statement} {s : Statement} (h : Standing L s) : s ∈ L := by
  obtain ⟨before, after, rfl, -⟩ := h
  simp

theorem LastUnder.standing {L : List Statement} {s : Statement} (h : LastUnder L s) :
    Standing L s := by
  obtain ⟨before, after, hL, hafter⟩ := h
  exact ⟨before, after, hL, fun f hf heq => hafter f hf (sameLabels_of_release heq)⟩

theorem lastUnder_concat : LastUnder (L ++ [s]) s :=
  ⟨L, [], rfl, by simp⟩

theorem LastUnder.concat {L : List Statement} {f s : Statement} (h : LastUnder L f)
    (hs : ¬ s.SameLabels f) : LastUnder (L ++ [s]) f := by
  obtain ⟨before, after, rfl, hafter⟩ := h
  refine ⟨before, after ++ [s], by simp, ?_⟩
  intro g hg
  rcases List.mem_append.mp hg with hg | hg
  · exact hafter g hg
  · rw [List.mem_singleton.mp hg]
    exact hs

end Statement

/-! ## The sources -/

inductive DatedSource where
  | historical (lines : List CsvLine)
  | recurring (series : List ReleaseSeries)

variable {ops : SourceOps} {l : CsvLine} {raw : RawRow}

theorem CsvLine.labelled_of_read
    (h : l.read ops = .ok raw) : raw.seriesId.isSome = true ∧ raw.period.isSome = true := by
  rw [CsvLine.read] at h
  split at h
  · cases h
  · simp only at h
    split_ifs at h
    rw [← Except.ok.inj h]
    exact ⟨rfl, rfl⟩

theorem CsvLine.read_spec (h : l.read ops = .ok raw) : ∃ series period, raw.seriesId = some series ∧
      raw.period = some period ∧ raw.id = series ++ ":" ++ period ++ ":" ++ toString raw.eventNs ∧
      raw.certainty = Certainty.confirmed.text ∧ ∃ e, raw.event = .ok e := by
  rw [CsvLine.read] at h
  split at h
  · cases h
  · rename_i stamp _
    simp only at h
    split_ifs at h with hbad
    rw [not_or, not_or, not_not] at hbad
    rw [← Except.ok.inj h]
    refine ⟨_, _, rfl, rfl, ?_, rfl, ?_⟩
    · rw [RawRow.id, orText, if_neg]
      intro hempty
      have hlength := congrArg String.length hempty
      simp [String.length_append] at hlength
    · obtain ⟨-, -, himpact⟩ := hbad
      simp only [List.mem_cons, List.not_mem_nil, or_false] at himpact
      rcases himpact with himpact | himpact | himpact <;>
      · rw [himpact]
        exact ⟨_, rfl⟩

def CsvLine.statement (ops : SourceOps) (l : CsvLine) : Except LineError Statement :=
  match h : l.read ops with
  | .error why => .error why
  | .ok raw => .ok ⟨raw, given l.period, labelled_of_read h⟩

theorem CsvLine.statement_of_read (h : l.read ops = .ok raw) :
    l.statement ops = .ok ⟨raw, given l.period, labelled_of_read h⟩ := by
  rw [CsvLine.statement]
  split
  · rename_i hread
    rw [h] at hread
    cases hread
  · rename_i raw' hread
    have heq : raw = raw' := Except.ok.inj (h.symm.trans hread)
    subst heq
    rfl

def ReleaseSeries.statement (s : ReleaseSeries) (d : ℤ × ℤ) : Statement :=
  ⟨s.row d, false, rfl, rfl⟩

namespace DatedSource

variable (ops : SourceOps)

def source : DatedSource → Except LineError CalendarSource
  | historical lines => (readRows ops lines).map historicalCalendarSource
  | recurring series => .ok (recurringScheduleSource ops series)

def statements (call : ℤ × ℤ) : DatedSource → List Statement
  | historical lines =>
      (((lines.mapM (CsvLine.statement ops)).toOption.getD []).mergeSort
        fun s s' => s.raw.sooner s'.raw).filter
          fun s => call.1 ≤ s.raw.eventNs ∧ s.raw.eventNs ≤ call.2
  | recurring series =>
      let occurrences := series.mapM fun s =>
        (s.dated ops call.1 call.2).map fun dates => dates.map s.statement
      (occurrences.toOption.getD []).flatten.mergeSort fun s s' => s.raw.sooner s'.raw

def stream (d : DatedSource) (calls : List (ℤ × ℤ)) : List Statement :=
  calls.flatMap fun call => d.statements ops call

theorem map_raw_sorted (L : List Statement) :
    (L.mergeSort fun s s' => s.raw.sooner s'.raw).map Statement.raw =
      (L.map Statement.raw).mergeSort RawRow.sooner :=
  List.map_mergeSort fun _ _ _ _ => rfl

theorem map_raw_statement (l : CsvLine) :
    (l.statement ops).map Statement.raw = l.read ops := by
  rw [CsvLine.statement]
  split
  · rename_i h
    exact h.symm
  · rename_i h
    exact h.symm

theorem expand_eq (s : ReleaseSeries) (call : ℤ × ℤ) :
    ((s.dated ops call.1 call.2).map fun dates => dates.map s.statement).map
        (List.map Statement.raw) = s.expand ops call.1 call.2 := by
  rw [ReleaseSeries.expand]
  rcases s.dated ops call.1 call.2 with why | dates
  · rfl
  · simp only [Except.map, List.map_map]
    rfl

theorem rowsOf_source {d : DatedSource} {source : CalendarSource}
    (h : d.source ops = .ok source) (call : ℤ × ℤ) :
    EventTable.rowsOf source call = (d.statements ops call).map Statement.raw := by
  cases d with
  | historical lines =>
      have hread := map_mapM _ _ _ (map_raw_statement ops) lines
      rw [DatedSource.source, readRows, ← hread] at h
      rw [statements]
      rcases hlines : lines.mapM (CsvLine.statement ops) with why | L
      · rw [hlines] at h
        cases h
      · rw [hlines] at h
        rw [← Except.ok.inj h]
        simp only [EventTable.rowsOf, historicalCalendarSource, Except.toOption, Option.getD_some,
          ← map_raw_sorted, List.filter_map]
        rfl
  | recurring series =>
      have hexpand := map_mapM _ _ _ (fun s => expand_eq ops s call) series
      rw [← Except.ok.inj h, EventTable.rowsOf, statements]
      simp only [recurringScheduleSource, ← hexpand]
      rcases series.mapM _ with why | groups
      · simp [Except.map, bind, Except.bind, Except.toOption]
      · simp only [Except.map, bind, Except.bind, pure, Except.pure, Except.toOption,
          Option.getD_some, map_raw_sorted, List.map_flatten]

theorem read_of_mem_stream {lines : List CsvLine}
    {calls : List (ℤ × ℤ)} {s : Statement} (h : s ∈ (historical lines).stream ops calls) :
    ∃ l ∈ lines, l.read ops = .ok s.raw := by
  obtain ⟨call, -, hs⟩ := List.mem_flatMap.mp h
  rw [statements] at hs
  have hmem := List.mem_mergeSort.mp (List.mem_filter.mp hs).1
  rcases hlines : lines.mapM (CsvLine.statement ops) with why | L
  · rw [hlines] at hmem
    cases hmem
  · rw [hlines] at hmem
    obtain ⟨l, hl, hread⟩ := exists_of_mem_mapM hlines hmem
    refine ⟨l, hl, ?_⟩
    rw [← map_raw_statement, hread]
    rfl

theorem stream_of_refused {d : DatedSource} {why : LineError} (h : d.source ops = .error why)
    (calls : List (ℤ × ℤ)) : d.stream ops calls = [] := by
  cases d with
  | historical lines =>
      have hread := map_mapM _ _ _ (map_raw_statement ops) lines
      rw [DatedSource.source, readRows, ← hread] at h
      rcases hlines : lines.mapM (CsvLine.statement ops) with why' | L
      · rw [stream, List.flatMap_eq_nil_iff]
        intro call _
        rw [statements, hlines]
        simp [Except.toOption]
      · rw [hlines] at h
        cases h
  | recurring series => cases h

end DatedSource

/-! ## The table shows the last statement under each label -/

def CalendarEvent.Labelled (r : CalendarEvent) (s : Statement) : Prop :=
  r.seriesId = s.raw.seriesId ∧ r.period = s.raw.period

structure CalendarEvent.Shows (r : CalendarEvent) (s : Statement) : Prop where
  labelled : r.Labelled s
  currency : r.currency = s.raw.currency
  eventNs : r.eventNs = s.raw.eventNs
  impact : some r.impact = s.raw.tier
  certainty : some r.certainty = Certainty.ofText s.raw.certainty
  measured : r.measuredImpact = none

namespace Statement

structure Consistent (L : List Statement) : Prop where
  accepted : ∀ s ∈ L, ∃ e, s.raw.event = .ok e
  ids : ∀ s ∈ L, ∀ s' ∈ L, s.raw.id = s'.raw.id → s.SameLabels s'
  certainties : ∀ s ∈ L, ∀ s' ∈ L, s.SameLabels s' → s.raw.certainty = s'.raw.certainty

/-- A restatement under another id has labels to be found by. -/
def Named (L : List Statement) : Prop :=
  ∀ s ∈ L, ∀ s' ∈ L, s.SameLabels s' → s.raw.id = s'.raw.id ∨
    given s.raw.seriesId = true ∧ given s.raw.period = true

/-- Releases that stand under one series and period have one window. -/
def Apart (L : List Statement) : Prop :=
  ∀ s s', Standing L s → Standing L s' → s.SameLabels s' → s.raw.blocks = true →
    s.window = s'.window

theorem Consistent.left {L L' : List Statement} (h : Consistent (L ++ L')) : Consistent L where
  accepted s hs := h.accepted s (List.mem_append_left L' hs)
  ids s hs s' hs' := h.ids s (List.mem_append_left L' hs) s' (List.mem_append_left L' hs')
  certainties s hs s' hs' :=
    h.certainties s (List.mem_append_left L' hs) s' (List.mem_append_left L' hs')

theorem Named.left {L L' : List Statement} (h : Named (L ++ L')) : Named L :=
  fun s hs s' hs' => h s (List.mem_append_left L' hs) s' (List.mem_append_left L' hs')

end Statement

open Statement

theorem colon_notMem_toString (n : ℤ) : ':' ∉ (toString n).toList := by
  have hdigits : ∀ k : ℕ, ':' ∉ Nat.toDigits 10 k := by
    intro k hmem
    have hdigit := Nat.isDigit_of_mem_toDigits (by norm_num) (by norm_num) hmem
    revert hdigit
    decide
  rcases n with n | n
  · simpa [toString, Int.repr, Nat.repr] using hdigits n
  · simpa [toString, Int.repr, Nat.repr] using hdigits (n + 1)

theorem consistent_historical {lines : List CsvLine} {calls : List (ℤ × ℤ)}
    (hplain : ∀ s ∈ (DatedSource.historical lines).stream ops calls,
      ∀ period, s.raw.period = some period → ':' ∉ period.toList) :
    Consistent ((DatedSource.historical lines).stream ops calls) where
  accepted s hs := by
    obtain ⟨l, -, hread⟩ := DatedSource.read_of_mem_stream ops hs
    obtain ⟨series, period, -, -, -, -, haccepted⟩ := CsvLine.read_spec hread
    exact haccepted
  ids s hs s' hs' hid := by
    obtain ⟨l, -, hread⟩ := DatedSource.read_of_mem_stream ops hs
    obtain ⟨l', -, hread'⟩ := DatedSource.read_of_mem_stream ops hs'
    obtain ⟨series, period, hseries, hperiod, heq, -, -⟩ := CsvLine.read_spec hread
    obtain ⟨series', period', hseries', hperiod', heq', -, -⟩ := CsvLine.read_spec hread'
    rw [heq, heq'] at hid
    have hchars := congrArg String.toList hid
    simp only [String.toList_append, List.append_assoc] at hchars
    have hcolon : ":".toList = [':'] := rfl
    rw [hcolon] at hchars
    have hjoined : (series.toList ++ ':' :: period.toList) ++
        ':' :: (toString s.raw.eventNs).toList =
          (series'.toList ++ ':' :: period'.toList) ++ ':' :: (toString s'.raw.eventNs).toList := by
      simpa using hchars
    have hlast := append_separator_inj (colon_notMem_toString s.raw.eventNs)
      (colon_notMem_toString s'.raw.eventNs) hjoined
    have hfirst := append_separator_inj (hplain s hs period hperiod)
      (hplain s' hs' period' hperiod') hlast.1
    rw [SameLabels, hseries, hseries', hperiod, hperiod', String.toList_inj.mp hfirst.1,
      String.toList_inj.mp hfirst.2]
    exact ⟨rfl, rfl⟩
  certainties s hs s' hs' _ := by
    obtain ⟨l, -, hread⟩ := DatedSource.read_of_mem_stream ops hs
    obtain ⟨l', -, hread'⟩ := DatedSource.read_of_mem_stream ops hs'
    obtain ⟨-, -, -, -, -, hcertain, -⟩ := CsvLine.read_spec hread
    obtain ⟨-, -, -, -, -, hcertain', -⟩ := CsvLine.read_spec hread'
    rw [hcertain, hcertain']

namespace EventTable

structure Mirrors (t : EventTable) (L : List Statement) : Prop where
  alone : ∀ r ∈ t.rows, ∀ r' ∈ t.rows, r.seriesId = r'.seriesId → r.period = r'.period → r = r'
  shows : ∀ r ∈ t.rows, ∃ s, LastUnder L s ∧ r.Shows s
  ids : ∀ r ∈ t.rows, ∃ s ∈ L, s.raw.id = r.eventId ∧ r.Labelled s
  stated : ∀ s ∈ L, ∃ r ∈ t.rows, r.Labelled s

theorem mirrors_empty : empty.Mirrors [] where
  alone := by simp [empty]
  shows := by simp [empty]
  ids := by simp [empty]
  stated := by simp

variable {t : EventTable} {L : List Statement} {s : Statement}

theorem Mirrors.labelled_of_restates
    {e row : CalendarEvent} (hm : t.Mirrors L) (hids : ∀ f ∈ L, f.raw.id = s.raw.id →
      f.SameLabels s) (hsaid : s.raw.Says e) (h : t.restates e = some row) :
    row.Labelled s := by
  rw [restates, Option.or_eq_some_iff] at h
  rcases h with h | ⟨-, h⟩
  · obtain ⟨f, hf, hid, hlabelled⟩ := hm.ids row (List.mem_of_find?_eq_some h)
    have hrow : row.eventId = e.eventId := by simpa using List.find?_some h
    have hsame := hids f hf (by rw [hid, hrow, hsaid.id])
    exact ⟨hlabelled.1.trans hsame.1, hlabelled.2.trans hsame.2⟩
  · split_ifs at h
    have hrow := List.find?_some h
    simp only [CalendarEvent.sameRelease, Bool.and_eq_true, decide_eq_true_eq] at hrow
    exact ⟨hrow.1.trans hsaid.seriesId, hrow.2.trans hsaid.period⟩

theorem restates_ne_none {s f : Statement} {e r : CalendarEvent}
    (hr : r ∈ t.rows) (hlabelled : r.Labelled s) (hsaid : s.raw.Says e)
    (hid : f.raw.id = r.eventId)
    (hnamed : s.raw.id = f.raw.id ∨ given s.raw.seriesId = true ∧ given s.raw.period = true) :
    t.restates e ≠ none := by
  intro hnone
  rw [restates, Option.or_eq_none_iff] at hnone
  rcases hnamed with hsame | ⟨hseries, hperiod⟩
  · have hmiss := List.find?_eq_none.mp hnone.1 r hr
    apply hmiss
    simp [hsaid.id, hsame, hid]
  · have hby := hnone.2
    rw [hsaid.seriesId, hsaid.period, hseries, hperiod] at hby
    have hmiss := List.find?_eq_none.mp hby r hr
    apply hmiss
    simp [CalendarEvent.sameRelease, hlabelled.1, hlabelled.2, hsaid.seriesId, hsaid.period]

theorem mem_rows_update {id : String} {f : CalendarEvent → CalendarEvent}
    {hf : ∀ r, (f r).eventId = r.eventId} {r' : CalendarEvent} :
    r' ∈ (t.update id f hf).rows ↔
      ∃ r ∈ t.rows, (if r.eventId = id then f r else r) = r' := List.mem_map

theorem shows_restated {row e : CalendarEvent} {f s : Statement} (hrow : row.Shows f)
    (hlabelled : row.Labelled s) (hsaid : s.raw.Says e)
    (hcertain : f.raw.certainty = s.raw.certainty) : (row.restated e).Shows s := by
  have hsame : row.certainty = e.certainty := by
    apply Option.some.inj
    rw [hrow.certainty, hcertain, hsaid.certainty]
  have hweaker : row.weaker e = false := by
    rw [CalendarEvent.weaker, hsame]
    simp
  have hmerged : row.mergedCertainty e = e.certainty := by
    rw [CalendarEvent.mergedCertainty, hsame]
    simp
  refine ⟨hlabelled, hsaid.currency, ?_, ?_, ?_, hrow.measured⟩
  · simp only [CalendarEvent.restated, hweaker]
    exact hsaid.eventNs
  · simp only [CalendarEvent.restated, hrow.measured]
    exact hsaid.impact.symm
  · simp only [CalendarEvent.restated, hmerged]
    exact hsaid.certainty.symm

theorem conflicts_iff {e : CalendarEvent}
    (hsaid : s.raw.Says e) : t.conflicts e = true ↔ ∃ r ∈ t.rows, r.Labelled s := by
  rw [conflicts, hsaid.seriesId, hsaid.period, s.labelled.1, s.labelled.2, Bool.true_and,
    Bool.true_and, List.any_eq_true]
  apply exists_congr
  intro r
  apply and_congr_right
  intro _
  rw [CalendarEvent.sameRelease, hsaid.seriesId, hsaid.period, CalendarEvent.Labelled]
  simp

theorem Mirrors.update {e row : CalendarEvent} (hm : t.Mirrors L) (hc : Consistent (L ++ [s]))
    (hsaid : s.raw.Says e) (hrestates : t.restates e = some row) :
    (t.update row.eventId (·.restated e) fun r => r.eventId_restated e).Mirrors (L ++ [s]) := by
  have hs : s ∈ L ++ [s] := by simp
  have hL : ∀ f ∈ L, f ∈ L ++ [s] := fun f hf => List.mem_append_left [s] hf
  have hrow := restates_mem hrestates
  have hlabelled : row.Labelled s :=
    hm.labelled_of_restates (fun f hf => hc.ids f (hL f hf) s hs) hsaid hrestates
  -- the rows of the new table: the restated one, and the others of the old table
  have hcases : ∀ r' ∈ (t.update row.eventId (·.restated e)
      fun r => r.eventId_restated e).rows,
      r' = row.restated e ∨ r' ∈ t.rows ∧ ¬ r'.Labelled s := by
    intro r' hr'
    obtain ⟨r, hr, heq⟩ := mem_rows_update.mp hr'
    by_cases hlab : r.Labelled s
    · have hsame : r = row :=
        hm.alone r hr row hrow (hlab.1.trans hlabelled.1.symm) (hlab.2.trans hlabelled.2.symm)
      rw [hsame, if_pos rfl] at heq
      exact .inl heq.symm
    · have hother : r.eventId ≠ row.eventId := by
        intro hid
        apply hlab
        rw [List.inj_on_of_nodup_map t.nodup hr hrow hid]
        exact hlabelled
      rw [if_neg hother] at heq
      rw [← heq]
      exact .inr ⟨hr, hlab⟩
  have hnew : (row.restated e).Labelled s := hlabelled
  refine ⟨?_, ?_, ?_, ?_⟩
  · intro r hr r' hr' hseries hperiod
    rcases hcases r hr with rfl | ⟨hold, hlab⟩
    · rcases hcases r' hr' with rfl | ⟨hold', hlab'⟩
      · rfl
      · exact absurd ⟨hseries.symm.trans hnew.1, hperiod.symm.trans hnew.2⟩ hlab'
    · rcases hcases r' hr' with rfl | ⟨hold', hlab'⟩
      · exact absurd ⟨hseries.trans hnew.1, hperiod.trans hnew.2⟩ hlab
      · exact hm.alone r hold r' hold' hseries hperiod
  · intro r hr
    rcases hcases r hr with rfl | ⟨hold, hlab⟩
    · obtain ⟨f, hlast, hshows⟩ := hm.shows row hrow
      have hf := hlast.standing.mem
      have hsame : f.SameLabels s :=
        ⟨hshows.labelled.1.symm.trans hlabelled.1, hshows.labelled.2.symm.trans hlabelled.2⟩
      exact ⟨s, lastUnder_concat L s, shows_restated hshows hlabelled hsaid
        (hc.certainties f (hL f hf) s hs hsame)⟩
    · obtain ⟨f, hlast, hshows⟩ := hm.shows r hold
      refine ⟨f, hlast.concat ?_, hshows⟩
      intro hsame
      exact hlab ⟨hshows.labelled.1.trans hsame.1.symm, hshows.labelled.2.trans hsame.2.symm⟩
  · intro r hr
    rcases hcases r hr with rfl | ⟨hold, hlab⟩
    · obtain ⟨f, hf, hid, hlab⟩ := hm.ids row hrow
      exact ⟨f, hL f hf, hid, hlab⟩
    · obtain ⟨f, hf, hid, hlab⟩ := hm.ids r hold
      exact ⟨f, hL f hf, hid, hlab⟩
  · intro f hf
    rcases List.mem_append.mp hf with hf | hf
    · obtain ⟨r, hr, hlab⟩ := hm.stated f hf
      refine ⟨_, mem_rows_update.mpr ⟨r, hr, rfl⟩, ?_⟩
      split_ifs
      · exact hlab
      · exact hlab
    · rw [List.mem_singleton.mp hf]
      exact ⟨_, mem_rows_update.mpr ⟨row, hrow, rfl⟩, by rw [if_pos rfl]; exact hnew⟩

theorem Mirrors.insert
    {e : CalendarEvent} (hm : t.Mirrors L) (hsaid : s.raw.Says e) (h : t.restates e = none)
    (hfree : t.conflicts e = false) : (t.insert e h).Mirrors (L ++ [s]) := by
  have hL : ∀ f ∈ L, f ∈ L ++ [s] := fun f hf => List.mem_append_left [s] hf
  have hnone : ∀ r ∈ t.rows, ¬ r.Labelled s := by
    intro r hr hlab
    rw [(conflicts_iff hsaid).mpr ⟨r, hr, hlab⟩] at hfree
    cases hfree
  have hcases : ∀ r ∈ (t.insert e h).rows, r ∈ t.rows ∨ r = { e with revisionCount := 0 } := by
    intro r hr
    rcases List.mem_append.mp hr with hr | hr
    · exact .inl hr
    · exact .inr (List.mem_singleton.mp hr)
  have hnew : CalendarEvent.Labelled { e with revisionCount := 0 } s :=
    ⟨hsaid.seriesId, hsaid.period⟩
  refine ⟨?_, ?_, ?_, ?_⟩
  · intro r hr r' hr' hseries hperiod
    rcases hcases r hr with hold | rfl
    · rcases hcases r' hr' with hold' | rfl
      · exact hm.alone r hold r' hold' hseries hperiod
      · exact absurd ⟨hseries.trans hnew.1, hperiod.trans hnew.2⟩ (hnone r hold)
    · rcases hcases r' hr' with hold' | rfl
      · exact absurd ⟨hseries.symm.trans hnew.1, hperiod.symm.trans hnew.2⟩ (hnone r' hold')
      · rfl
  · intro r hr
    rcases hcases r hr with hold | rfl
    · obtain ⟨f, hlast, hshows⟩ := hm.shows r hold
      refine ⟨f, hlast.concat ?_, hshows⟩
      intro hsame
      exact hnone r hold
        ⟨hshows.labelled.1.trans hsame.1.symm, hshows.labelled.2.trans hsame.2.symm⟩
    · exact ⟨s, lastUnder_concat L s, hnew, hsaid.currency, hsaid.eventNs, hsaid.impact.symm,
        hsaid.certainty.symm, hsaid.measured⟩
  · intro r hr
    rcases hcases r hr with hold | rfl
    · obtain ⟨f, hf, hid, hlab⟩ := hm.ids r hold
      exact ⟨f, hL f hf, hid, hlab⟩
    · exact ⟨s, by simp, hsaid.id.symm, hnew⟩
  · intro f hf
    rcases List.mem_append.mp hf with hf | hf
    · obtain ⟨r, hr, hlab⟩ := hm.stated f hf
      exact ⟨r, List.mem_append_left _ hr, hlab⟩
    · rw [List.mem_singleton.mp hf]
      exact ⟨_, List.mem_append_right _ (List.mem_singleton.mpr rfl), hnew⟩

theorem Mirrors.addRow {t t' : EventTable} {L : List Statement} {s : Statement}
    (hm : t.Mirrors L) (hc : Consistent (L ++ [s])) (h : t.addRow s.raw = .ok t') :
    t'.Mirrors (L ++ [s]) := by
  obtain ⟨e, he⟩ := hc.accepted s (by simp)
  have hsaid := RawRow.says_of_event he
  rw [EventTable.addRow, he] at h
  simp only [addEvent] at h
  split at h
  · rename_i hnone
    split_ifs at h with hconflict
    · cases h
    · rw [← Except.ok.inj h]
      exact hm.insert hsaid hnone (by simpa using hconflict)
  · rename_i row hrestates
    rw [← Except.ok.inj h]
    exact hm.update hc hsaid hrestates

theorem named_concat (hn : Named L)
    (hs : ∀ f ∈ L, f.SameLabels s → f.raw.id = s.raw.id ∨
      given s.raw.seriesId = true ∧ given s.raw.period = true) : Named (L ++ [s]) := by
  intro f hf g hg hsame
  rcases List.mem_append.mp hf with hf | hf
  · rcases List.mem_append.mp hg with hg | hg
    · exact hn f hf g hg hsame
    · rw [List.mem_singleton.mp hg] at hsame ⊢
      rw [hsame.1, hsame.2]
      exact hs f hf hsame
  · rw [List.mem_singleton.mp hf] at hsame ⊢
    rcases List.mem_append.mp hg with hg | hg
    · rcases hs g hg hsame.symm with hid | hgiven
      · exact .inl hid.symm
      · exact .inr hgiven
    · rw [List.mem_singleton.mp hg]
      exact .inl rfl

theorem Mirrors.addRow_returns
    (hm : t.Mirrors L) (hc : Consistent (L ++ [s])) (hn : Named (L ++ [s])) :
    ∃ t', t.addRow s.raw = .ok t' := by
  obtain ⟨e, he⟩ := hc.accepted s (by simp)
  have hsaid := RawRow.says_of_event he
  rw [EventTable.addRow, he]
  simp only [addEvent]
  split
  · rename_i hnone
    have hfree : t.conflicts e = false := by
      by_contra hconflict
      obtain ⟨r, hr, hlab⟩ := (conflicts_iff hsaid).mp (by simpa using hconflict)
      obtain ⟨f, hf, hid, hlab'⟩ := hm.ids r hr
      have hsame : s.SameLabels f :=
        ⟨hlab.1.symm.trans hlab'.1, hlab.2.symm.trans hlab'.2⟩
      exact restates_ne_none hr hlab hsaid hid
        (hn s (by simp) f (List.mem_append_left [s] hf) hsame) hnone
    rw [hfree]
    exact ⟨_, rfl⟩
  · exact ⟨_, rfl⟩

theorem Mirrors.named {t t' : EventTable} {L : List Statement} {s : Statement}
    (hm : t.Mirrors L) (hc : Consistent (L ++ [s])) (hn : Named L)
    (h : t.addRow s.raw = .ok t') : Named (L ++ [s]) := by
  obtain ⟨e, he⟩ := hc.accepted s (by simp)
  have hsaid := RawRow.says_of_event he
  apply named_concat hn
  intro f hf hsame
  obtain ⟨r, hr, hlab⟩ := hm.stated f hf
  have hlabelled : r.Labelled s := ⟨hlab.1.trans hsame.1, hlab.2.trans hsame.2⟩
  rw [EventTable.addRow, he] at h
  simp only [addEvent] at h
  split at h
  · rw [(conflicts_iff hsaid).mpr ⟨r, hr, hlabelled⟩] at h
    cases h
  · rename_i row hrestates
    have hrow := restates_mem hrestates
    have hrowLab : row.Labelled s := by
      apply hm.labelled_of_restates _ hsaid hrestates
      exact fun g hg => hc.ids g (List.mem_append_left [s] hg) s (by simp)
    have heq : row = r :=
      hm.alone row hrow r hr (hrowLab.1.trans hlabelled.1.symm) (hrowLab.2.trans hlabelled.2.symm)
    rw [restates, Option.or_eq_some_iff] at hrestates
    rcases hrestates with hget | ⟨-, hby⟩
    · -- found by its id, which is that of a statement with the same labels
      have hid : row.eventId = e.eventId := by simpa using List.find?_some hget
      obtain ⟨g, hg, hgid, hgLab⟩ := hm.ids r hr
      have hgs : g.raw.id = s.raw.id := by rw [hgid, ← heq, hid, hsaid.id]
      have hfg : f.SameLabels g := ⟨hlab.1.symm.trans hgLab.1, hlab.2.symm.trans hgLab.2⟩
      rcases hn f hf g hg hfg with hfid | hgiven
      · exact .inl (hfid.trans hgs)
      · rw [← hsame.1, ← hsame.2]
        exact .inr hgiven
    · split_ifs at hby with hgiven
      rw [hsaid.seriesId, hsaid.period, Bool.and_eq_true] at hgiven
      exact .inr hgiven

/-! ## Runs -/

theorem mirrors_of_added (hc : Consistent L) {t : EventTable}
    (h : (L.map Statement.raw).foldlM EventTable.addRow empty = .ok t) :
    t.Mirrors L ∧ Named L := by
  induction L using List.reverseRecOn generalizing t with
  | nil =>
      rw [← Except.ok.inj h]
      exact ⟨mirrors_empty, by simp [Named]⟩
  | append_singleton L s ih =>
      rw [List.map_append, List.foldlM_append] at h
      rcases hrun : (L.map Statement.raw).foldlM EventTable.addRow empty with refused | u
      · rw [hrun] at h
        cases h
      · rw [hrun] at h
        have hadd : u.addRow s.raw = .ok t := by
          rcases hlast : u.addRow s.raw with refused | u'
          · simp [bind, Except.bind, hlast] at h
          · simpa [bind, Except.bind, hlast, pure, Except.pure] using h
        obtain ⟨hm, hn⟩ := ih hc.left hrun
        exact ⟨hm.addRow hc hadd, hm.named hc hn hadd⟩

theorem added_of_named (hc : Consistent L) (hn : Named L) :
    ∃ t, (L.map Statement.raw).foldlM EventTable.addRow empty = .ok t := by
  induction L using List.reverseRecOn with
  | nil => exact ⟨empty, rfl⟩
  | append_singleton L s ih =>
      obtain ⟨u, hrun⟩ := ih hc.left hn.left
      obtain ⟨t, hadd⟩ := (mirrors_of_added hc.left hrun).1.addRow_returns hc hn
      refine ⟨t, ?_⟩
      rw [List.map_append, List.foldlM_append, hrun]
      simp [bind, Except.bind, hadd, pure, Except.pure]

def HasWindow (t : EventTable) (s : Statement) : Prop :=
  ∃ r ∈ t.rows, r.Labelled s ∧ r.currency = s.raw.currency ∧ r.eventNs = s.raw.eventNs ∧
    some r.impact = s.raw.tier ∧ r.certainty.blocks = true

theorem Mirrors.hasWindow_iff (hm : t.Mirrors L)
    (hc : Consistent L) :
    (∀ s, Standing L s → s.raw.blocks = true → t.HasWindow s) ↔ Apart L := by
  constructor
  · intro h s s' hs hs' hsame hblocks
    have hblocks' : s'.raw.blocks = true := by
      rw [RawRow.blocks, ← hc.certainties s hs.mem s' hs'.mem hsame]
      exact hblocks
    obtain ⟨r, hr, hlab, hcurrency, hns, htier, -⟩ := h s hs hblocks
    obtain ⟨r', hr', hlab', hcurrency', hns', htier', -⟩ := h s' hs' hblocks'
    have heq : r = r' := by
      apply hm.alone r hr r' hr'
      · exact hlab.1.trans (hsame.1.trans hlab'.1.symm)
      · exact hlab.2.trans (hsame.2.trans hlab'.2.symm)
    rw [← heq] at hcurrency' hns' htier'
    rw [window, window, ← hcurrency, ← hns, ← htier, hcurrency', hns', htier']
  · intro h s hs hblocks
    obtain ⟨r, hr, hlab⟩ := hm.stated s hs.mem
    obtain ⟨f, hlast, hshows⟩ := hm.shows r hr
    have hsame : s.SameLabels f :=
      ⟨hlab.1.symm.trans hshows.labelled.1, hlab.2.symm.trans hshows.labelled.2⟩
    have hwindow := h s f hs hlast.standing hsame hblocks
    simp only [window, Prod.mk.injEq] at hwindow
    obtain ⟨hcurrency, hns, htier⟩ := hwindow
    refine ⟨r, hr, hlab, hshows.currency.trans hcurrency.symm, hshows.eventNs.trans hns.symm,
      hshows.impact.trans htier.symm, ?_⟩
    have hcertain := hc.certainties s hs.mem f hlast.standing.mem hsame
    rw [RawRow.blocks, hcertain, ← hshows.certainty] at hblocks
    exact hblocks

end EventTable

def DatedSource.KeepsReleases (d : DatedSource) (ops : SourceOps) (calls : List (ℤ × ℤ)) : Prop :=
  ∀ source, d.source ops = .ok source →
    ∃ t, EventTable.empty.ingests ops source calls = (t, .ok ()) ∧
      ∀ s, Standing (d.stream ops calls) s → s.raw.blocks = true → t.HasWindow s

theorem DatedSource.ingests_iff {d : DatedSource} {source : CalendarSource}
    (h : d.source ops = .ok source) (calls : List (ℤ × ℤ)) (t : EventTable) :
    EventTable.empty.ingests ops source calls = (t, .ok ()) ↔
      ((d.stream ops calls).map Statement.raw).foldlM EventTable.addRow .empty = .ok t := by
  rw [EventTable.ingests_returns_iff, stream, List.map_flatMap]
  have hrows : EventTable.rowsOf source =
      fun call => (d.statements ops call).map Statement.raw :=
    funext (rowsOf_source ops h)
  rw [hrows]

theorem DatedSource.keepsReleases_iff {d : DatedSource}
    {calls : List (ℤ × ℤ)} (hc : Consistent (d.stream ops calls)) :
    d.KeepsReleases ops calls ↔ Apart (d.stream ops calls) ∧ Named (d.stream ops calls) := by
  constructor
  · intro hkeeps
    rcases hsource : d.source ops with why | source
    · rw [stream_of_refused ops hsource]
      refine ⟨?_, by simp [Named]⟩
      intro s _ hs
      cases hs.mem
    · obtain ⟨t, hrun, hwindows⟩ := hkeeps source hsource
      obtain ⟨hm, hnamed⟩ :=
        EventTable.mirrors_of_added hc ((ingests_iff hsource calls t).mp hrun)
      exact ⟨(hm.hasWindow_iff hc).mp hwindows, hnamed⟩
  · rintro ⟨hapart, hnamed⟩ source hsource
    obtain ⟨t, hrun⟩ := EventTable.added_of_named hc hnamed
    refine ⟨t, (ingests_iff hsource calls t).mpr hrun, ?_⟩
    exact ((EventTable.mirrors_of_added hc hrun).1.hasWindow_iff hc).mpr hapart

/-- Ingest keeps every release where each series and period is that of one
release: no two releases with different windows stand under one series and
period, and a restatement has labels to be found by.  Among rows that are
accepted, whose ids belong to one series and period and that are equally certain
about it, that is also necessary; the rows of a file whose periods have no colon
are such rows. -/
theorem ingest_keeps_releases_iff (ops : SourceOps) (d : DatedSource) (calls : List (ℤ × ℤ)) :
    (Consistent (d.stream ops calls) ∧ Apart (d.stream ops calls) ∧
        Named (d.stream ops calls) → d.KeepsReleases ops calls) ∧
      (Consistent (d.stream ops calls) → d.KeepsReleases ops calls →
        Apart (d.stream ops calls) ∧ Named (d.stream ops calls)) ∧
      ∀ lines, (∀ s ∈ (DatedSource.historical lines).stream ops calls,
          ∀ period, s.raw.period = some period → ':' ∉ period.toList) →
        ((DatedSource.historical lines).KeepsReleases ops calls ↔
          Apart ((DatedSource.historical lines).stream ops calls) ∧
            Named ((DatedSource.historical lines).stream ops calls)) := by
  refine ⟨?_, ?_, ?_⟩
  · rintro ⟨hc, hapart⟩
    exact (DatedSource.keepsReleases_iff hc).mpr hapart
  · exact fun hc => (DatedSource.keepsReleases_iff hc).mp
  · intro lines hplain
    exact DatedSource.keepsReleases_iff (consistent_historical hplain)

/-! ## A weekly release -/

def claimsOps : SourceOps where
  toNs text :=
    if text = "2024-03-07 13:30" then some 1709818200000000000
    else if text = "2024-03-14 13:30" then some 1710423000000000000
    else none
  upper := String.toUpper
  lower := String.toLower
  fromTimestamp := id

def claimsLine (timestamp : String) : CsvLine :=
  { timestampUtc := some timestamp, currency := some "USD", name := some "Jobless claims",
    impact := some "high" }

def claimsRow (ns : ℤ) : RawRow :=
  { eventId := some ("USD:Jobless claims:2024-03:" ++ toString ns)
    seriesId := some "USD:Jobless claims"
    eventNs := ns
    currency := "USD"
    name := "Jobless claims"
    curatedImpact := some "high"
    period := some "2024-03" }

def claimsStatement (ns : ℤ) : Statement := ⟨claimsRow ns, false, rfl, rfl⟩

theorem claims_sameLabels (ns ns' : ℤ) :
    (claimsStatement ns).SameLabels (claimsStatement ns') := ⟨rfl, rfl⟩

def claimsFile : DatedSource :=
  .historical [claimsLine "2024-03-07 13:30", claimsLine "2024-03-14 13:30"]

theorem claims_first : (claimsLine "2024-03-07 13:30").read claimsOps =
    .ok (claimsRow 1709818200000000000) := by decide +kernel

theorem claims_second : (claimsLine "2024-03-14 13:30").read claimsOps =
    .ok (claimsRow 1710423000000000000) := by decide +kernel

theorem claims_stream :
    claimsFile.stream claimsOps [(1709251200000000000, 1711929600000000000)] =
      [claimsStatement 1709818200000000000, claimsStatement 1710423000000000000] := by
  have hlines : [claimsLine "2024-03-07 13:30", claimsLine "2024-03-14 13:30"].mapM
      (CsvLine.statement claimsOps) =
        .ok [claimsStatement 1709818200000000000, claimsStatement 1710423000000000000] := by
    rw [List.mapM_cons, CsvLine.statement_of_read claims_first, List.mapM_cons,
      CsvLine.statement_of_read claims_second]
    rfl
  rw [DatedSource.stream, List.flatMap_singleton, claimsFile, DatedSource.statements, hlines]
  simp only [Except.toOption, Option.getD_some]
  rw [List.mergeSort_of_pairwise (by decide +kernel)]
  rfl

theorem claims_consistent :
    Consistent [claimsStatement 1709818200000000000, claimsStatement 1710423000000000000] where
  accepted s hs := by
    rcases List.mem_pair.mp hs with rfl | rfl
    · exact ⟨_, rfl⟩
    · exact ⟨_, rfl⟩
  ids s hs s' hs' _ := by
    rcases List.mem_pair.mp hs with rfl | rfl <;> rcases List.mem_pair.mp hs' with rfl | rfl <;>
      exact claims_sameLabels _ _
  certainties s hs s' hs' _ := by
    rcases List.mem_pair.mp hs with rfl | rfl <;> rcases List.mem_pair.mp hs' with rfl | rfl <;>
      rfl

/-- The second week's release takes the window of the first. -/
theorem weekly_release_loses_window :
    ¬ claimsFile.KeepsReleases claimsOps [(1709251200000000000, 1711929600000000000)] := by
  intro hkeeps
  obtain ⟨source, hsource⟩ : ∃ source, claimsFile.source claimsOps = .ok source := by
    rw [claimsFile, DatedSource.source, readRows, List.mapM_cons, claims_first, List.mapM_cons,
      claims_second]
    exact ⟨_, rfl⟩
  obtain ⟨t, hrun, hwindows⟩ := hkeeps source hsource
  rw [DatedSource.ingests_iff hsource, claims_stream] at hrun
  rw [claims_stream] at hwindows
  have hapart := ((EventTable.mirrors_of_added claims_consistent hrun).1.hasWindow_iff
    claims_consistent).mp hwindows
  have hfirst : Standing
      [claimsStatement 1709818200000000000, claimsStatement 1710423000000000000]
      (claimsStatement 1709818200000000000) := ⟨[], _, rfl, by decide +kernel⟩
  have hsecond : Standing
      [claimsStatement 1709818200000000000, claimsStatement 1710423000000000000]
      (claimsStatement 1710423000000000000) := ⟨[_], [], rfl, by simp⟩
  have hsame := hapart _ _ hfirst hsecond (claims_sameLabels _ _) (by decide +kernel)
  have hinstant : (1709818200000000000 : ℤ) = 1710423000000000000 :=
    congrArg (fun w => w.2.1) hsame
  omega

end Sentinel
