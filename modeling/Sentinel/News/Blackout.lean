import Sentinel.News.Calendar
import Sentinel.Support.Runs

/-!
# Restatements and blackout windows

A restatement that is less certain than the stored row keeps the row's time and
certainty, but writes its currency, impact, zone and local time.  Which
currencies and instruments are blocked then changes, at once or at the next
recomputation of the instants; it stays as it is where the restatement leaves the
columns that the windows are read from.
-/

namespace Sentinel

structure BlockKey where
  currency : String
  instant : ℤ
  tier : Impact
  certain : Bool

namespace CalendarEvent

def Blocks (r : CalendarEvent) (k : BlockKey) : Prop :=
  r.currency = k.currency ∧ r.eventNs = k.instant ∧ k.tier.level ≤ r.impact.level ∧
    (k.certain = true → r.certainty.blocks = true)

def afterCalls (calls : List (ℤ × ℤ)) (r : CalendarEvent) : CalendarEvent :=
  calls.foldl (fun r call => r.rescheduled call.1 call.2) r

end CalendarEvent

namespace EventTable

variable (t : EventTable)

def afterCalls (calls : List (ℤ × ℤ)) : EventTable :=
  calls.foldl (fun t call => (t.rescheduleForDst call.1 call.2).2) t

theorem rows_afterCalls (calls : List (ℤ × ℤ)) :
    (t.afterCalls calls).rows = t.rows.map (·.afterCalls calls) := by
  induction calls generalizing t with
  | nil => exact (List.map_id t.rows).symm
  | cons call calls ih =>
      rw [afterCalls, List.foldl_cons]
      refine (ih _).trans ?_
      change (t.rows.map _).map _ = _
      rw [List.map_map]
      rfl

/-! ## Which currencies are blocked -/

variable (q : BlackoutQuery)

theorem mem_keys_label (wanted : List String)
    (out : Dict String BlackoutLabel) (r : CalendarEvent) (currency : String) :
    currency ∈ (q.label wanted out r).keys ↔
      currency ∈ out.keys ∨ r.currency = currency ∧ currency ∈ wanted := by
  rw [BlackoutQuery.label]
  by_cases hwanted : r.currency ∈ wanted
  · rw [if_neg (not_not.mpr hwanted)]
    have hset : ∀ label : BlackoutLabel, currency ∈ (out.set r.currency label).keys ↔
        currency ∈ out.keys ∨ r.currency = currency ∧ currency ∈ wanted := by
      intro label
      rw [Dict.mem_keys_set, or_comm]
      apply or_congr_right
      constructor
      · rintro rfl
        exact ⟨rfl, hwanted⟩
      · rintro ⟨rfl, -⟩
        rfl
    cases hheld : out.get? r.currency with
    | none => exact hset _
    | some held =>
        simp only
        split_ifs with hnear
        · have hkey := Dict.mem_keys_of_get? hheld
          constructor
          · exact .inl
          · rintro (hold | ⟨rfl, -⟩)
            · exact hold
            · exact hkey
        · exact hset _
  · rw [if_pos hwanted]
    constructor
    · exact .inl
    · rintro (hold | ⟨rfl, hin⟩)
      · exact hold
      · exact absurd hin hwanted

theorem mem_keys_labels (wanted : List String) (rows : List CalendarEvent)
    (out : Dict String BlackoutLabel) (currency : String) :
    currency ∈ (rows.foldl (q.label wanted) out).keys ↔
      currency ∈ out.keys ∨ currency ∈ wanted ∧ ∃ r ∈ rows, r.currency = currency := by
  induction rows generalizing out with
  | nil => simp
  | cons r rows ih =>
      rw [List.foldl_cons, ih, mem_keys_label, or_assoc]
      apply or_congr_right
      simp only [List.mem_cons, exists_eq_or_imp]
      tauto

theorem mem_keys_blackout (currencies : List String)
    (currency : String) :
    currency ∈ (t.blackout q currencies).keys ↔
      currency ∈ currencies ∧ ∃ r ∈ t.rows, q.selects r = true ∧ r.currency = currency := by
  rw [blackout, mem_keys_labels]
  have hempty : currency ∉ (Dict.empty : Dict String BlackoutLabel).keys := by
    simp [Dict.empty, Dict.keys]
  rw [or_iff_right hempty]
  apply and_congr_right
  intro _
  simp only [List.mem_mergeSort, List.mem_filter, and_assoc]

theorem mem_keys_labelSymbol (byCurrency : Dict String BlackoutLabel)
    (out : Dict String (String × BlackoutLabel)) (head symbol : String) :
    symbol ∈ (labelSymbol byCurrency out head).keys ↔
      symbol ∈ out.keys ∨
        symbol = head ∧ ∃ currency ∈ byCurrency.keys, occursIn currency symbol = true := by
  have hfind : (byCurrency.items.find? fun entry => occursIn entry.1 head).isSome = true ↔
      ∃ currency ∈ byCurrency.keys, occursIn currency head = true := by
    simp [List.find?_isSome, Dict.keys]
  rw [labelSymbol]
  cases hhead : byCurrency.items.find? fun entry => occursIn entry.1 head with
  | none =>
      rw [hhead] at hfind
      constructor
      · exact .inl
      · rintro (hold | ⟨rfl, hoccurs⟩)
        · exact hold
        · cases hfind.mpr hoccurs
  | some entry =>
      rw [hhead] at hfind
      simp only
      rw [Dict.mem_keys_set, or_comm]
      apply or_congr_right
      constructor
      · rintro rfl
        exact ⟨rfl, hfind.mp rfl⟩
      · rintro ⟨heq, -⟩
        exact heq

theorem mem_keys_labelSymbols (byCurrency : Dict String BlackoutLabel)
    (instruments : List String) (out : Dict String (String × BlackoutLabel))
    (symbol : String) :
    symbol ∈ (instruments.foldl (labelSymbol byCurrency) out).keys ↔
      symbol ∈ out.keys ∨
        symbol ∈ instruments ∧
          ∃ currency ∈ byCurrency.keys, occursIn currency symbol = true := by
  induction instruments generalizing out with
  | nil => simp
  | cons head instruments ih =>
      rw [List.foldl_cons, ih, mem_keys_labelSymbol, or_assoc, List.mem_cons, or_and_right]

theorem mem_keys_instrumentBlackout (instruments : List String) (symbol : String) :
    symbol ∈ (t.instrumentBlackout q instruments).keys ↔
      symbol ∈ instruments ∧ ∃ currency ∈
        (t.blackout q (instruments.flatMap currenciesOf).dedup.mergeSort).keys,
        occursIn currency symbol = true := by
  rw [instrumentBlackout, mem_keys_labelSymbols]
  apply or_iff_right
  simp [Dict.empty, Dict.keys]

def SameWindows (t t' : EventTable) : Prop :=
  (∀ q currencies currency, currency ∈ (t.blackout q currencies).keys ↔
    currency ∈ (t'.blackout q currencies).keys) ∧
  ∀ q instruments symbol, symbol ∈ (t.instrumentBlackout q instruments).keys ↔
    symbol ∈ (t'.instrumentBlackout q instruments).keys

def Blocks (t : EventTable) (k : BlockKey) : Prop := ∃ r ∈ t.rows, r.Blocks k

theorem selects_iff_blocks (r : CalendarEvent) (currency : String) :
    q.selects r = true ∧ r.currency = currency ↔
      q.nowNs - q.afterMin * minuteNs ≤ r.eventNs ∧ r.eventNs ≤ q.nowNs + q.beforeMin * minuteNs ∧
        r.Blocks ⟨currency, r.eventNs, q.minImpact, q.requireCertain⟩ := by
  rw [BlackoutQuery.selects, CalendarEvent.Blocks]
  simp only [Bool.and_eq_true, decide_eq_true_eq, Bool.or_eq_true, Bool.not_eq_true', true_and]
  cases q.requireCertain <;> simp <;> tauto

theorem sameWindows_iff (t t' : EventTable) :
    t.SameWindows t' ↔ ∀ k, t.Blocks k ↔ t'.Blocks k := by
  constructor
  · intro h k
    have hone : ∀ u : EventTable, k.currency ∈ (u.blackout
        { nowNs := k.instant, beforeMin := 0, afterMin := 0, minImpact := k.tier,
          requireCertain := k.certain } [k.currency]).keys ↔ u.Blocks k := by
      intro u
      rw [mem_keys_blackout, Blocks]
      simp only [List.mem_singleton, true_and]
      apply exists_congr
      intro r
      apply and_congr_right
      intro _
      rw [selects_iff_blocks]
      simp only [CalendarEvent.Blocks, zero_mul, sub_zero, add_zero]
      constructor
      · rintro ⟨hlow, hhigh, hcurrency, -, htier⟩
        exact ⟨hcurrency, le_antisymm hhigh hlow, htier⟩
      · rintro ⟨hcurrency, hinstant, htier⟩
        exact ⟨hinstant.ge, hinstant.le, hcurrency, trivial, htier⟩
    rw [← hone, ← hone]
    exact h.1 _ _ _
  · intro h
    have hcurrency : ∀ q currencies currency, currency ∈ (t.blackout q currencies).keys ↔
        currency ∈ (t'.blackout q currencies).keys := by
      intro q currencies currency
      rw [mem_keys_blackout, mem_keys_blackout]
      apply and_congr_right
      intro _
      have hinstant : ∀ u : EventTable,
          (∃ r ∈ u.rows, q.selects r = true ∧ r.currency = currency) ↔
            ∃ n, q.nowNs - q.afterMin * minuteNs ≤ n ∧ n ≤ q.nowNs + q.beforeMin * minuteNs ∧
              u.Blocks ⟨currency, n, q.minImpact, q.requireCertain⟩ := by
        intro u
        constructor
        · rintro ⟨r, hr, hselects⟩
          obtain ⟨hlow, hhigh, hblocks⟩ := (selects_iff_blocks q r currency).mp hselects
          exact ⟨r.eventNs, hlow, hhigh, r, hr, hblocks⟩
        · rintro ⟨n, hlow, hhigh, r, hr, hblocks⟩
          have hn : r.eventNs = n := hblocks.2.1
          subst hn
          exact ⟨r, hr, (selects_iff_blocks q r currency).mpr ⟨hlow, hhigh, hblocks⟩⟩
      rw [hinstant, hinstant]
      simp only [h]
    refine ⟨hcurrency, ?_⟩
    intro q instruments symbol
    rw [mem_keys_instrumentBlackout, mem_keys_instrumentBlackout]
    simp only [hcurrency]

/-! ## A less certain restatement -/

theorem blocks_update_iff {t : EventTable} {row : CalendarEvent} (hrow : row ∈ t.rows)
    (f : CalendarEvent → CalendarEvent) (hf : ∀ r, (f r).eventId = r.eventId)
    (calls : List (ℤ × ℤ)) (k : BlockKey) :
    ((t.update row.eventId f hf).afterCalls calls).Blocks k ↔
      (∃ other ∈ t.rows, other.eventId ≠ row.eventId ∧ (other.afterCalls calls).Blocks k) ∨
        ((f row).afterCalls calls).Blocks k := by
  rw [Blocks, rows_afterCalls]
  simp only [update, mapRows, List.mem_map, exists_exists_and_eq_and]
  constructor
  · rintro ⟨r, hr, hblocks⟩
    by_cases hid : r.eventId = row.eventId
    · rw [if_pos hid, List.inj_on_of_nodup_map t.nodup hr hrow hid] at hblocks
      exact .inr hblocks
    · rw [if_neg hid] at hblocks
      exact .inl ⟨r, hr, hid, hblocks⟩
  · rintro (⟨other, hother, hid, hblocks⟩ | hblocks)
    · refine ⟨other, hother, ?_⟩
      rw [if_neg hid]
      exact hblocks
    · refine ⟨row, hrow, ?_⟩
      rw [if_pos rfl]
      exact hblocks

theorem blocks_iff_others {t : EventTable} {row : CalendarEvent} (hrow : row ∈ t.rows)
    (calls : List (ℤ × ℤ)) (k : BlockKey) :
    (t.afterCalls calls).Blocks k ↔
      (∃ other ∈ t.rows, other.eventId ≠ row.eventId ∧ (other.afterCalls calls).Blocks k) ∨
        (row.afterCalls calls).Blocks k := by
  have hsame : t.update row.eventId (fun r => r) (fun _ => rfl) = t := by
    obtain ⟨rows, hnodup⟩ := t
    simp [update, mapRows]
  rw [← blocks_update_iff hrow (fun r => r) (fun _ => rfl) calls k, hsame]

/-- A call that writes the calendar. -/
inductive Move where
  | addEvent (e : CalendarEvent)
  | rescheduleForDst (fromNs toNs : ℤ)

def step : Move → EventTable
  | .addEvent e => t.afterAdd e
  | .rescheduleForDst fromNs toNs => (t.rescheduleForDst fromNs toNs).2

def WindowsKept : Move → Prop
  | .rescheduleForDst _ _ => True
  | .addEvent e => ∀ row, t.restates e = some row → row.weaker e = true →
      ∀ calls, (t.afterCalls calls).SameWindows ((t.afterAdd e).afterCalls calls)

end EventTable

namespace CalendarEvent

/-- The restatement writes nothing else into the columns of the row that the
windows are read from: the currency, the impact unless it was measured, and, in a
row that is recomputed, the local time and its zone. -/
structure ColumnsKept (row e : CalendarEvent) : Prop where
  currency : e.currency = row.currency
  impact : e.impact = row.impact ∨ ∃ text ∈ row.measuredImpact, text ≠ ""
  localTime : row.status = "scheduled" → e.localTime = "" ∨ e.localTime = row.localTime
  zone : row.status = "scheduled" → row.localTime ≠ "" → e.zone = "" ∨ e.zone = row.zone

structure Alike (r r' : CalendarEvent) : Prop where
  currency : r'.currency = r.currency
  instant : r'.eventNs = r.eventNs
  impact : r'.impact = r.impact
  certainty : r'.certainty = r.certainty
  status : r'.status = r.status
  localTime : r.status = "scheduled" → r'.localTime = r.localTime
  zone : r.status = "scheduled" → r.localTime ≠ "" → r'.zone = r.zone

variable {r r' row e : CalendarEvent}

theorem Alike.blocks_iff (h : r.Alike r') (k : BlockKey) : r.Blocks k ↔ r'.Blocks k := by
  simp only [Blocks, h.currency, h.instant, h.impact, h.certainty]

theorem Alike.rescheduled (h : r.Alike r') (fromNs toNs : ℤ) :
    (r.rescheduled fromNs toNs).Alike (r'.rescheduled fromNs toNs) := by
  by_cases hdue : fromNs ≤ r.eventNs ∧ r.eventNs ≤ toNs ∧ r.localTime ≠ "" ∧
      r.status = "scheduled"
  · have hsame := h.localTime hdue.2.2.2
    have hdue' : fromNs ≤ r'.eventNs ∧ r'.eventNs ≤ toNs ∧ r'.localTime ≠ "" ∧
        r'.status = "scheduled" := by
      rwa [h.instant, hsame, h.status]
    have hrecomputed : r'.recomputed = r.recomputed := by
      rw [recomputed, recomputed, hsame, h.zone hdue.2.2.2 hdue.2.2.1, h.instant]
    rw [CalendarEvent.rescheduled, if_pos hdue, CalendarEvent.rescheduled, if_pos hdue']
    refine ⟨h.currency, ?_, h.impact, h.certainty, h.status, h.localTime, h.zone⟩
    change r'.recomputed.getD r'.eventNs = r.recomputed.getD r.eventNs
    rw [hrecomputed, h.instant]
  · have hnot : ¬(fromNs ≤ r'.eventNs ∧ r'.eventNs ≤ toNs ∧ r'.localTime ≠ "" ∧
        r'.status = "scheduled") := by
      rintro ⟨hlow, hhigh, hlocal, hstatus⟩
      rw [h.status] at hstatus
      rw [h.instant] at hlow hhigh
      rw [h.localTime hstatus] at hlocal
      exact hdue ⟨hlow, hhigh, hlocal, hstatus⟩
    rw [CalendarEvent.rescheduled, if_neg hdue, CalendarEvent.rescheduled, if_neg hnot]
    exact h

theorem Alike.afterCalls (h : r.Alike r') (calls : List (ℤ × ℤ)) :
    (r.afterCalls calls).Alike (r'.afterCalls calls) := by
  induction calls generalizing r r' with
  | nil => exact h
  | cons call calls ih => exact ih (h.rescheduled call.1 call.2)

theorem ColumnsKept.alike (h : row.ColumnsKept e) (hweaker : row.weaker e = true) :
    row.Alike (row.restated e) where
  currency := h.currency
  instant := if_pos hweaker
  impact := by
    rcases h.impact with hsame | ⟨text, htext, hne⟩
    · simp only [restated, hsame, ite_self]
    · have hgiven : given row.measuredImpact = true := by
        rw [Option.mem_def] at htext
        simp [given, htext, hne]
      exact if_pos hgiven
  certainty := by
    have hlevel : ¬row.certainty.level < e.certainty.level := by
      simp only [weaker, decide_eq_true_eq] at hweaker
      omega
    exact if_neg hlevel
  status := rfl
  localTime := by
    intro hstatus
    rcases h.localTime hstatus with hempty | hsame
    · exact if_pos hempty
    · simp only [restated, hsame, ite_self]
  zone := by
    intro hstatus hlocal
    rcases h.zone hstatus hlocal with hempty | hsame
    · exact if_pos hempty
    · simp only [restated, hsame, ite_self]

end CalendarEvent

namespace EventTable

variable (t : EventTable)

def RestatedAlike : Move → Prop
  | .rescheduleForDst _ _ => True
  | .addEvent e => ∀ row, t.restates e = some row → row.weaker e = true → row.ColumnsKept e

theorem windowsKept_of_restatedAlike {t : EventTable} {m : Move} (h : t.RestatedAlike m) :
    t.WindowsKept m := by
  cases m with
  | rescheduleForDst fromNs toNs => trivial
  | addEvent e =>
      intro row hrestates hweaker calls
      have hrow := restates_mem hrestates
      have halike := ((h row hrestates hweaker).alike hweaker).afterCalls calls
      rw [sameWindows_iff, afterAdd_of_restates hrestates]
      intro k
      rw [blocks_iff_others hrow, blocks_update_iff hrow]
      exact or_congr_right (halike.blocks_iff k)

/-- In a run of calls whose less certain restatements leave the columns of the
windows as they are, none of them changes a window, at once or after any later
recomputations. -/
theorem windowsKept_run {t : EventTable} {moves : List Move}
    (hmoves : Along step RestatedAlike t moves) : Along step WindowsKept t moves :=
  Along.mono (I := fun _ => True) (fun _ _ _ _ => trivial)
    (fun _ _ _ h => windowsKept_of_restatedAlike h) trivial hmoves

end EventTable

/-! ## A confirmed release -/

def payrolls : CalendarEvent :=
  { eventId := "A", eventNs := 1772803800 * 10 ^ 9, currency := "USD", name := "NFP",
    impact := .high, zone := "America/New_York", localTime := "08:30" }

def payrollsTable : EventTable := ⟨[payrolls], by simp⟩

def guessedCurrency : CalendarEvent :=
  { payrolls with currency := "EUR", certainty := .approximate }

def guessedZone : CalendarEvent :=
  { payrolls with zone := "Asia/Tokyo", certainty := .approximate }

def guessedTime : CalendarEvent :=
  { payrolls with eventNs := 0, zone := "", certainty := .approximate }

/-- A guess of the instant alone, stored before and after a recomputation. -/
theorem windowsKept_run_guessedTime :
    Along EventTable.step EventTable.WindowsKept payrollsTable
      [.addEvent guessedTime, .rescheduleForDst 0 (2 * payrolls.eventNs),
        .addEvent guessedTime] := by
  have hkept : ∀ row : CalendarEvent, row.currency = "USD" → row.impact = .high →
      row.localTime = "08:30" → row.ColumnsKept guessedTime := by
    intro row hcurrency himpact hlocal
    exact ⟨hcurrency.symm, .inl himpact.symm, fun _ => .inr hlocal.symm, fun _ _ => .inl rfl⟩
  refine EventTable.windowsKept_run ⟨?_, trivial, ?_, trivial⟩
  · intro row hrestates _
    obtain rfl : payrolls = row := Option.some.inj hrestates
    exact hkept _ rfl rfl rfl
  · intro row hrestates _
    have hfields : ∀ row ∈ (EventTable.step (EventTable.step payrollsTable
        (.addEvent guessedTime)) (.rescheduleForDst 0 (2 * payrolls.eventNs))).rows,
        row.currency = "USD" ∧ row.impact = .high ∧ row.localTime = "08:30" := by
      decide +kernel
    obtain ⟨hcurrency, himpact, hlocal⟩ := hfields row (EventTable.restates_mem hrestates)
    exact hkept row hcurrency himpact hlocal

/-- The guessed currency takes the window away at once, the guessed zone at the
next recomputation. -/
theorem not_windowsKept_guessed :
    ¬payrollsTable.WindowsKept (.addEvent guessedCurrency) ∧
      ¬payrollsTable.WindowsKept (.addEvent guessedZone) := by
  constructor
  · intro h
    have hnow := (h payrolls rfl rfl []).1 ⟨payrolls.eventNs, 0, 0, .high, true⟩ ["USD"] "USD"
    have hblocked : "USD" ∈ (payrollsTable.blackout ⟨payrolls.eventNs, 0, 0, .high, true⟩
        ["USD"]).keys := by decide +kernel
    have hfree : "USD" ∉ ((payrollsTable.afterAdd guessedCurrency).blackout
        ⟨payrolls.eventNs, 0, 0, .high, true⟩ ["USD"]).keys := by decide +kernel
    exact hfree (hnow.mp hblocked)
  · intro h
    have hlater := (h payrolls rfl rfl [(0, 2 * payrolls.eventNs)]).1
      ⟨payrolls.eventNs, 0, 0, .high, true⟩ ["USD"] "USD"
    have hblocked : "USD" ∈ ((payrollsTable.afterCalls [(0, 2 * payrolls.eventNs)]).blackout
        ⟨payrolls.eventNs, 0, 0, .high, true⟩ ["USD"]).keys := by decide +kernel
    have hfree : "USD" ∉ (((payrollsTable.afterAdd guessedZone).afterCalls
        [(0, 2 * payrolls.eventNs)]).blackout
        ⟨payrolls.eventNs, 0, 0, .high, true⟩ ["USD"]).keys := by decide +kernel
    exact hfree (hlater.mp hblocked)

end Sentinel
