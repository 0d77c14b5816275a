import Sentinel.Core.Float64
import Sentinel.Core.Jalali
import Sentinel.Support.Grouping
import Mathlib.Data.List.Dedup
import Mathlib.Data.List.Sort

/-!
# Monthly results

The ledger keeps one row a day, and the return of a Persian month is measured from the
last row of the month recorded before it.  That month need not be the month right
before.
-/

namespace Sentinel

structure EquityDay (F : Type) where
  day : ℤ
  account : String
  firstTsNs : ℤ
  firstEquity : F
  lastTsNs : ℤ
  lastEquity : F
  lastBalance : F

/-- The table: a day is a primary key, and a date. -/
structure EquityLedger (F : Type) where
  rows : List (EquityDay F)
  primaryKey : (rows.map EquityDay.day).Nodup
  dated : ∀ r ∈ rows, Jalali.firstDate ≤ r.day

/-- What the dashboard is shown; a month without a value is `none`. -/
structure MonthlyReport (F : Type) where
  rows : List (ℤ × List (Option F))
  partialMonths : List Jalali.Month
  sinceNs : Option ℤ
  days : ℕ
  deriving DecidableEq

def MonthlyReport.value {F : Type} (report : MonthlyReport F) (m : Jalali.Month) : Option F :=
  ((report.rows.lookup m.year).bind fun values => values[(m.month - 1).toNat]?).join

namespace EquityLedger

section

variable {F : Type}

/-- `SELECT * FROM equity_days ORDER BY day`. -/
def days (l : EquityLedger F) : List (EquityDay F) :=
  l.rows.mergeSort fun r s => decide (r.day ≤ s.day)

/-- `months[key].append(d)`. -/
def noteDay (months : Dict Jalali.Month (List (EquityDay F))) (d : EquityDay F) :
    Except Jalali.YearError (Dict Jalali.Month (List (EquityDay F))) :=
  match Jalali.monthOfDay d.day with
  | .error e => .error e
  | .ok key => .ok (months.append key d)

def months (days : List (EquityDay F)) :
    Except Jalali.YearError (Dict Jalali.Month (List (EquityDay F))) :=
  days.foldlM noteDay Dict.empty

/-! ## The months of the rows -/

def monthKey (r : EquityDay F) : Jalali.Month :=
  match Jalali.monthOfDay r.day with
  | .ok m => m
  | .error _ => ⟨0, 0⟩

theorem monthKey_eq {r : EquityDay F} {m : Jalali.Month} (h : Jalali.monthOfDay r.day = .ok m) :
    monthKey r = m := by
  rw [monthKey, h]

theorem noteDay_eq_ok {months d : Dict Jalali.Month (List (EquityDay F))} {r : EquityDay F}
    (h : noteDay months r = .ok d) :
    ∃ m, Jalali.monthOfDay r.day = .ok m ∧ d = months.append m r := by
  rw [noteDay] at h
  split at h
  · cases h
  · next m hmonth => exact ⟨m, hmonth, (Except.ok.inj h).symm⟩

theorem months_eq {days : List (EquityDay F)} {d : Dict Jalali.Month (List (EquityDay F))}
    (h : months days = .ok d) :
    (∀ r ∈ days, Jalali.monthOfDay r.day = .ok (monthKey r)) ∧
      d = Dict.groupBy monthKey days := by
  have hrun : ∀ (days : List (EquityDay F)) (d₀ d : Dict Jalali.Month (List (EquityDay F))),
      days.foldlM noteDay d₀ = .ok d →
      (∀ r ∈ days, Jalali.monthOfDay r.day = .ok (monthKey r)) ∧
        d = days.foldl (fun d n => d.append (monthKey n) n) d₀ := by
    intro days
    induction days with
    | nil =>
      intro d₀ d h
      exact ⟨by simp, (Except.ok.inj h).symm⟩
    | cons r days ih =>
      intro d₀ d h
      rw [List.foldlM_cons] at h
      rcases hnote : noteDay d₀ r with e | d₁
      · rw [hnote] at h
        cases h
      · rw [hnote] at h
        obtain ⟨m, hmonth, rfl⟩ := noteDay_eq_ok hnote
        obtain ⟨hrest, hd⟩ := ih _ d h
        rw [List.forall_mem_cons, List.foldl_cons, monthKey_eq hmonth]
        exact ⟨⟨hmonth, hrest⟩, hd⟩
  exact hrun days Dict.empty d h

theorem mem_days {l : EquityLedger F} {r : EquityDay F} : r ∈ l.days ↔ r ∈ l.rows :=
  List.mem_mergeSort

theorem pairwise_days (l : EquityLedger F) : l.days.Pairwise fun r s => r.day < s.day := by
  have hsorted : l.days.Pairwise fun r s => r.day ≤ s.day := by
    refine (List.pairwise_mergeSort ?_ ?_ l.rows).imp of_decide_eq_true
    · simpa using fun (a b c : EquityDay F) (hab : a.day ≤ b.day) (hbc : b.day ≤ c.day) =>
        le_trans hab hbc
    · simpa using fun (a b : EquityDay F) => le_total a.day b.day
  have hperm := (List.mergeSort_perm l.rows fun r s => decide (r.day ≤ s.day)).map EquityDay.day
  have hdistinct := List.pairwise_map.mp (hperm.nodup_iff.mpr l.primaryKey)
  exact hsorted.and hdistinct |>.imp fun h => lt_of_le_of_ne h.1 h.2

def groups (l : EquityLedger F) : List (Jalali.Month × List (EquityDay F)) :=
  (Dict.groupBy monthKey l.days).items

def Supported (l : EquityLedger F) : Prop :=
  ∀ r ∈ l.rows, Jalali.monthOfDay r.day = .ok (monthKey r)

variable {l : EquityLedger F}

theorem Supported.bounds (h : l.Supported) {r : EquityDay F} (hr : r ∈ l.rows) :
    1 ≤ (monthKey r).month ∧ (monthKey r).month ≤ 12 :=
  Jalali.month_bounds (l.dated r hr) (h r hr)

theorem Supported.mono (h : l.Supported) {r s : EquityDay F} (hr : r ∈ l.rows)
    (hs : s ∈ l.rows) (hle : r.day ≤ s.day) :
    (monthKey r).number ≤ (monthKey s).number :=
  Jalali.month_mono (l.dated r hr) hle (h r hr) (h s hs)

theorem Supported.groups_ordered (h : l.Supported) :
    (l.groups.map Prod.snd).flatten = l.days ∧
      (l.groups.map Prod.fst).Pairwise fun m m' => m.number < m'.number := by
  refine Dict.groupBy_of_ordered ?_ ?_
  · refine (pairwise_days l).imp_of_mem ?_
    intro r s hr hs hlt
    exact h.mono (mem_days.mp hr) (mem_days.mp hs) hlt.le
  · intro r hr s hs heq
    exact Jalali.Month.number_inj (h.bounds (mem_days.mp hr)) (h.bounds (mem_days.mp hs)) heq

theorem mem_groups {month : Jalali.Month × List (EquityDay F)} (hm : month ∈ l.groups) :
    (∀ r, r ∈ month.2 ↔ r ∈ l.rows ∧ monthKey r = month.1) ∧ month.2 ≠ [] := by
  have hget : (Dict.groupBy monthKey l.days).get? month.1 = some month.2 :=
    (Dict.mem_items_iff _ _ _).mp hm
  have hrows := Dict.getD_groupBy monthKey l.days month.1
  rw [Dict.getD, hget, Option.getD_some] at hrows
  have hmem : ∀ r, r ∈ month.2 ↔ r ∈ l.rows ∧ monthKey r = month.1 := by
    intro r
    rw [hrows, List.mem_filter, mem_days, decide_eq_true_iff]
  refine ⟨hmem, ?_⟩
  obtain ⟨r, hr, hkey⟩ := (Dict.mem_keys_groupBy monthKey l.days month.1).mp
    (Dict.mem_keys_of_get? hget)
  exact List.ne_nil_of_mem ((hmem r).mpr ⟨mem_days.mp hr, hkey⟩)

theorem exists_group {r : EquityDay F} (hr : r ∈ l.rows) :
    ∃ rows, (monthKey r, rows) ∈ l.groups := by
  have hmem := (Dict.mem_keys_groupBy monthKey l.days (monthKey r)).mpr ⟨r, mem_days.mpr hr, rfl⟩
  obtain ⟨rows, hget⟩ := Dict.exists_get?_of_mem hmem
  exact ⟨rows, (Dict.mem_items_iff _ _ _).mpr hget⟩

/-! ## Months after months -/

def LastOf (l : EquityLedger F) (m : Jalali.Month) (r : EquityDay F) : Prop :=
  r ∈ l.rows ∧ Jalali.monthOfDay r.day = .ok m ∧
    ∀ q ∈ l.rows, Jalali.monthOfDay q.day = .ok m → q.day ≤ r.day

def LastOn (l : EquityLedger F) (m : Jalali.Month) (account : String) (r : EquityDay F) : Prop :=
  r ∈ l.rows ∧ Jalali.monthOfDay r.day = .ok m ∧ r.account = account ∧
    ∀ q ∈ l.rows, Jalali.monthOfDay q.day = .ok m → q.account = account → q.day ≤ r.day

def NoMonthSkipped (l : EquityLedger F) : Prop :=
  ∀ p ∈ l.rows, ∀ r ∈ l.rows, p.day < r.day →
    (∀ q ∈ l.rows, q.day ≤ p.day ∨ r.day ≤ q.day) →
    ∀ m m', Jalali.monthOfDay p.day = .ok m → Jalali.monthOfDay r.day = .ok m' → m ≠ m' →
      (∀ q ∈ l.rows, Jalali.monthOfDay q.day = .ok m' → q.account = p.account) →
      m.next = m'

def endOf (before : List (Jalali.Month × List (EquityDay F))) : Option (EquityDay F) :=
  (before.map Prod.snd).flatten.getLast?

theorem Supported.monthOfDay_eq (h : l.Supported) {r : EquityDay F} (hr : r ∈ l.rows)
    {m : Jalali.Month} : Jalali.monthOfDay r.day = .ok m ↔ monthKey r = m := by
  rw [h r hr, Except.ok.injEq]

theorem le_getLast {days : List (EquityDay F)} {p : EquityDay F}
    (h : days.Pairwise fun r s => r.day < s.day) (hp : days.getLast? = some p) :
    p ∈ days ∧ ∀ q ∈ days, q.day ≤ p.day := by
  obtain ⟨before, rfl⟩ := List.getLast?_eq_some_iff.mp hp
  rw [List.pairwise_append] at h
  refine ⟨by simp, fun q hq => ?_⟩
  rcases List.mem_append.mp hq with hbefore | hself
  · exact (h.2.2 q hbefore p (List.mem_singleton_self p)).le
  · rw [List.mem_singleton.mp hself]

theorem Supported.split (h : l.Supported) {m : Jalali.Month} {rows : List (EquityDay F)}
    (hm : (m, rows) ∈ l.groups) :
    ∃ before after first last, l.groups = before ++ (m, rows) :: after ∧
      rows.head? = some first ∧ rows.getLast? = some last ∧ l.LastOf m last ∧
      (∀ q ∈ l.rows, monthKey q = m → first.day ≤ q.day) ∧
      (∀ q ∈ l.rows, q.day < first.day ↔ q ∈ (before.map Prod.snd).flatten) ∧
      ∀ p, endOf before = some p → p ∈ l.rows ∧ p.day < first.day ∧ monthKey p ≠ m ∧
        ∀ q ∈ l.rows, q.day ≤ p.day ∨ first.day ≤ q.day := by
  obtain ⟨before, after, hsplit⟩ := List.append_of_mem hm
  obtain ⟨hflatten, hordered⟩ := h.groups_ordered
  obtain ⟨hmem, hne⟩ := mem_groups hm
  have hpairs := pairwise_days l
  have hdays : l.days = (before.map Prod.snd).flatten ++
      (rows ++ (after.map Prod.snd).flatten) := by
    rw [← hflatten, hsplit]
    simp
  rw [hsplit, List.map_append, List.map_cons, List.pairwise_append, List.pairwise_cons]
    at hordered
  rw [hdays, List.pairwise_append, List.pairwise_append] at hpairs
  obtain ⟨hbefore, ⟨hrows, -, hafter⟩, hcross⟩ := hpairs
  obtain ⟨first, hfirst⟩ := Option.ne_none_iff_exists'.mp
    (fun hnone => hne (List.head?_eq_none_iff.mp hnone))
  obtain ⟨last, hlast⟩ := Option.ne_none_iff_exists'.mp
    (fun hnone => hne (List.getLast?_eq_none_iff.mp hnone))
  have hfirstMem : first ∈ rows := List.mem_of_head? hfirst
  have hfirstLe : ∀ q ∈ rows, first.day ≤ q.day := by
    intro q hq
    obtain ⟨rest, rfl⟩ := List.head?_eq_some_iff.mp hfirst
    rcases List.mem_cons.mp hq with rfl | hrest
    · exact le_rfl
    · exact ((List.pairwise_cons.mp hrows).1 q hrest).le
  have hplace : ∀ q ∈ l.rows, q ∈ (before.map Prod.snd).flatten ∨ first.day ≤ q.day := by
    intro q hq
    rw [← mem_days, hdays, List.mem_append, List.mem_append] at hq
    rcases hq with hq | hq | hq
    · exact Or.inl hq
    · exact Or.inr (hfirstLe q hq)
    · exact Or.inr (hafter first hfirstMem q hq).le
  have hbeforeRows : ∀ q ∈ (before.map Prod.snd).flatten, q ∈ l.rows ∧ q.day < first.day := by
    intro q hq
    refine ⟨?_, hcross q hq first (List.mem_append_left _ hfirstMem)⟩
    rw [← mem_days, hdays]
    exact List.mem_append_left _ hq
  obtain ⟨hlastMem, hlastLe⟩ := le_getLast hrows hlast
  refine ⟨before, after, first, last, hsplit, hfirst, hlast, ?_, ?_, ?_, ?_⟩
  · obtain ⟨hlastRow, hlastKey⟩ := (hmem last).mp hlastMem
    refine ⟨hlastRow, (h.monthOfDay_eq hlastRow).mpr hlastKey, fun q hq hkey => ?_⟩
    exact hlastLe q ((hmem q).mpr ⟨hq, (h.monthOfDay_eq hq).mp hkey⟩)
  · exact fun q hq hkey => hfirstLe q ((hmem q).mpr ⟨hq, hkey⟩)
  · intro q hq
    exact ⟨fun hlt => (hplace q hq).resolve_right (not_le.mpr hlt), fun hq => (hbeforeRows q hq).2⟩
  · intro p hp
    obtain ⟨hpMem, hpLe⟩ := le_getLast hbefore hp
    obtain ⟨hpRow, hpLt⟩ := hbeforeRows p hpMem
    refine ⟨hpRow, hpLt, ?_, fun q hq => (hplace q hq).imp (hpLe q) id⟩
    rintro rfl
    obtain ⟨rs, hrs, hprs⟩ := List.mem_flatten.mp hpMem
    obtain ⟨month, hmonth, rfl⟩ := List.mem_map.mp hrs
    have hgroup : month ∈ l.groups := by
      rw [hsplit]
      exact List.mem_append_left _ hmonth
    have hkey := (((mem_groups hgroup).1 p).mp hprs).2
    have hlt := hordered.2.2 month.1 (List.mem_map.mpr ⟨month, hmonth, rfl⟩) (monthKey p)
      List.mem_cons_self
    rw [hkey] at hlt
    exact lt_irrefl _ hlt

/-! ## The report -/

def yearRows (months : List Jalali.Month) (values : Dict Jalali.Month (Option F)) :
    List (ℤ × List (Option F)) :=
  ((months.map Jalali.Month.year).dedup.insertionSort fun y z => y ≤ z).map fun y =>
    (y, (List.range 12).map fun i : ℕ => (values.get? ⟨y, (i : ℤ) + 1⟩).join)

theorem value_yearRows {months : List Jalali.Month} {values : Dict Jalali.Month (Option F)}
    {m : Jalali.Month} (hm : m ∈ months) (hbounds : 1 ≤ m.month ∧ m.month ≤ 12)
    {partialMonths : List Jalali.Month} {sinceNs : Option ℤ} {days : ℕ} :
    MonthlyReport.value ⟨yearRows months values, partialMonths, sinceNs, days⟩ m =
      (values.get? m).join := by
  have hyear : m.year ∈ (months.map Jalali.Month.year).dedup.insertionSort fun y z => y ≤ z := by
    rw [List.mem_insertionSort, List.mem_dedup]
    exact List.mem_map.mpr ⟨m, hm, rfl⟩
  have hlookup : ∀ (years : List ℤ) (f : ℤ → List (Option F)) (y : ℤ), y ∈ years →
      (years.map fun z => (z, f z)).lookup y = some (f y) := by
    intro years f y
    induction years with
    | nil =>
      intro h
      cases h
    | cons z years ih =>
      intro h
      rw [List.map_cons, List.lookup_cons]
      by_cases hz : y = z
      · subst hz
        simp
      · rw [beq_eq_false_iff_ne.mpr hz]
        exact ih ((List.mem_cons.mp h).resolve_left hz)
  have hindex : (m.month - 1).toNat < 12 := by omega
  have hmonth : (⟨m.year, ((m.month - 1).toNat : ℤ) + 1⟩ : Jalali.Month) = m := by
    rw [Int.toNat_of_nonneg (by omega), sub_add_cancel]
  rw [MonthlyReport.value, yearRows, hlookup _ _ _ hyear, Option.bind_some, List.getElem?_map,
    List.getElem?_range hindex, Option.map_some, hmonth]
  rfl

def continues (previousEnd : Option (EquityDay F)) (rows : List (EquityDay F))
    (last : EquityDay F) : Option F :=
  match previousEnd with
  | some p =>
      if p.account = last.account ∧ ∀ r ∈ rows, r.account = last.account then some p.lastEquity
      else none
  | none => none

theorem continues_eq_some {previousEnd : Option (EquityDay F)} {rows : List (EquityDay F)}
    {last : EquityDay F} {base : F} (h : continues previousEnd rows last = some base) :
    ∃ p, previousEnd = some p ∧ base = p.lastEquity ∧ p.account = last.account ∧
      ∀ r ∈ rows, r.account = last.account := by
  rcases previousEnd with _ | p
  · cases h
  · rw [continues] at h
    split_ifs at h with haccounts
    exact ⟨p, rfl, (Option.some.inj h).symm, haccounts.1, haccounts.2⟩

variable [Float64 F] (round2 : F → F)

def change (base final : F) : Option F :=
  if Float64.lt (Float64.ofRat 0) base then
    some (round2 ((final / base - Float64.ofRat 1) * Float64.ofRat 100))
  else none

structure Tally (F : Type) where
  values : Dict Jalali.Month (Option F)
  partialMonths : List Jalali.Month
  previousEnd : Option (EquityDay F)

def stretchStart (rows : List (EquityDay F)) (last : EquityDay F) : F :=
  ((rows.reverse.takeWhile fun r => r.account = last.account).getLast?.getD last).firstEquity

def tallyMonth (t : Tally F) (month : Jalali.Month × List (EquityDay F)) : Tally F :=
  match month.2.getLast? with
  | none => t
  | some last =>
      match continues t.previousEnd month.2 last with
      | some base =>
          { t with
            values := t.values.set month.1 (change round2 base last.lastEquity)
            previousEnd := some last }
      | none =>
          { values :=
              t.values.set month.1 (change round2 (stretchStart month.2 last) last.lastEquity)
            partialMonths := t.partialMonths ++ [month.1]
            previousEnd := some last }

def tally (months : List (Jalali.Month × List (EquityDay F))) : Tally F :=
  months.foldl (tallyMonth round2) ⟨Dict.empty, [], none⟩

def monthly (l : EquityLedger F) : Except Jalali.YearError (MonthlyReport F) :=
  match l.days with
  | [] => .ok ⟨[], [], none, 0⟩
  | first :: rest => do
      let months ← months (first :: rest)
      let t := tally round2 months.items
      return ⟨yearRows months.keys t.values, t.partialMonths, some first.firstTsNs,
        (first :: rest).length⟩

/-! ## What a report says of a month -/

def shown (previousEnd : Option (EquityDay F)) (rows : List (EquityDay F))
    (last : EquityDay F) : Option F :=
  match continues previousEnd rows last with
  | some base => change round2 base last.lastEquity
  | none => change round2 (stretchStart rows last) last.lastEquity

theorem tallyMonth_eq (t : Tally F) {m : Jalali.Month} {rows : List (EquityDay F)}
    {last : EquityDay F} (h : rows.getLast? = some last) :
    tallyMonth round2 t (m, rows) =
      ⟨t.values.set m (shown round2 t.previousEnd rows last),
        if continues t.previousEnd rows last = none then t.partialMonths ++ [m]
        else t.partialMonths, some last⟩ := by
  rw [tallyMonth]
  simp only [h]
  rcases hcontinues : continues t.previousEnd rows last with _ | base
  · simp [shown, hcontinues]
  · simp [shown, hcontinues]

theorem tally_of_notMem {months : List (Jalali.Month × List (EquityDay F))} {m : Jalali.Month}
    (h : m ∉ months.map Prod.fst) (t : Tally F) :
    (months.foldl (tallyMonth round2) t).values.get? m = t.values.get? m ∧
      (m ∈ (months.foldl (tallyMonth round2) t).partialMonths ↔ m ∈ t.partialMonths) := by
  induction months generalizing t with
  | nil => exact ⟨rfl, Iff.rfl⟩
  | cons month months ih =>
    obtain ⟨m', rows⟩ := month
    rw [List.map_cons, List.mem_cons, not_or] at h
    rw [List.foldl_cons]
    obtain ⟨hvalue, hpartial⟩ := ih h.2 (tallyMonth round2 t (m', rows))
    rw [hvalue, hpartial]
    rcases hlast : rows.getLast? with _ | last
    · have hskip : tallyMonth round2 t (m', rows) = t := by
        simp only [tallyMonth, hlast]
      rw [hskip]
      exact ⟨rfl, Iff.rfl⟩
    · rw [tallyMonth_eq round2 t hlast]
      refine ⟨Dict.get?_set_of_ne _ h.1 _, ?_⟩
      simp only
      split_ifs
      · simp [h.1]
      · rfl

theorem previousEnd_tally {months : List (Jalali.Month × List (EquityDay F))}
    (h : ∀ month ∈ months, month.2 ≠ []) (t : Tally F) :
    (months.foldl (tallyMonth round2) t).previousEnd =
      (endOf months).or t.previousEnd := by
  induction months using List.reverseRecOn with
  | nil => simp [endOf]
  | append_singleton months month ih =>
    obtain ⟨m, rows⟩ := month
    have hrows : rows ≠ [] := h (m, rows) (by simp)
    have hlast := List.getLast?_eq_some_getLast hrows
    rw [List.foldl_append, List.foldl_cons, List.foldl_nil, tallyMonth_eq round2 _ hlast]
    simp [endOf, List.getLast?_append, hlast]

theorem tally_of_split {before after : List (Jalali.Month × List (EquityDay F))}
    {m : Jalali.Month} {rows : List (EquityDay F)} {last : EquityDay F}
    (hdistinct : ((before ++ (m, rows) :: after).map Prod.fst).Nodup)
    (hfull : ∀ month ∈ before, month.2 ≠ []) (hlast : rows.getLast? = some last) :
    (tally round2 (before ++ (m, rows) :: after)).values.get? m =
        some (shown round2 (endOf before) rows last) ∧
      (m ∈ (tally round2 (before ++ (m, rows) :: after)).partialMonths ↔
        continues (endOf before) rows last = none) := by
  rw [List.map_append, List.map_cons, List.nodup_append] at hdistinct
  have hafter : m ∉ after.map Prod.fst := (List.nodup_cons.mp hdistinct.2.1).1
  have hbefore : m ∉ before.map Prod.fst := fun hm =>
    hdistinct.2.2 m hm m List.mem_cons_self rfl
  rw [tally, List.foldl_append, List.foldl_cons]
  obtain ⟨hvalue, hpartial⟩ := tally_of_notMem round2 hafter
    (tallyMonth round2 (before.foldl (tallyMonth round2) ⟨Dict.empty, [], none⟩) (m, rows))
  obtain ⟨-, hbeforePartial⟩ := tally_of_notMem round2 hbefore
    ⟨Dict.empty, [], none⟩
  have hprevious := previousEnd_tally round2 hfull ⟨Dict.empty, [], none⟩
  rw [Option.or_none] at hprevious
  rw [hvalue, hpartial, tallyMonth_eq round2 _ hlast, hprevious]
  refine ⟨Dict.get?_set_self _ _ _, ?_⟩
  simp only
  split_ifs with hnone
  · simp [hnone]
  · simp only [hnone, iff_false]
    exact fun hm => List.not_mem_nil (hbeforePartial.mp hm)

variable {round2}

theorem monthly_eq_ok {report : MonthlyReport F}
    (h : l.monthly round2 = .ok report) :
    l.Supported ∧
      report.partialMonths = (tally round2 l.groups).partialMonths ∧
      ∀ m ∈ l.groups.map Prod.fst, 1 ≤ m.month ∧ m.month ≤ 12 →
        report.value m = ((tally round2 l.groups).values.get? m).join := by
  rw [monthly] at h
  rcases hdays : l.days with _ | ⟨first, rest⟩
  · rw [hdays] at h
    obtain rfl := Except.ok.inj h
    refine ⟨?_, ?_, ?_⟩
    · intro r hr
      rw [← mem_days, hdays] at hr
      cases hr
    · rw [groups, hdays]
      rfl
    · rw [groups, hdays]
      intro m hm
      cases hm
  · rw [hdays] at h
    simp only [bind, Except.bind, pure, Except.pure] at h
    rcases hmonths : months (first :: rest) with e | d
    · rw [hmonths] at h
      cases h
    · rw [hmonths] at h
      obtain rfl := Except.ok.inj h
      obtain ⟨hkeys, rfl⟩ := months_eq hmonths
      rw [← hdays] at hkeys ⊢
      refine ⟨fun r hr => hkeys r (mem_days.mpr hr), rfl, ?_⟩
      intro m hm hbounds
      exact value_yearRows hm hbounds

def MeasuredFromPrevious (round2 : F → F) (l : EquityLedger F) (report : MonthlyReport F) :
    Prop :=
  ∀ m last, l.LastOf m last → m ∉ report.partialMonths →
    ∃ m' base, m'.next = m ∧ l.LastOn m' last.account base ∧
      report.value m = change round2 base.lastEquity last.lastEquity

theorem report_of_split {report : MonthlyReport F} (h : l.monthly round2 = .ok report)
    {before after : List (Jalali.Month × List (EquityDay F))} {m : Jalali.Month}
    {rows : List (EquityDay F)} {last : EquityDay F}
    (hsplit : l.groups = before ++ (m, rows) :: after) (hlast : rows.getLast? = some last) :
    report.value m = shown round2 (endOf before) rows last ∧
      (m ∈ report.partialMonths ↔ continues (endOf before) rows last = none) := by
  obtain ⟨hsupported, hpartial, hvalue⟩ := monthly_eq_ok h
  have hdistinct : (l.groups.map Prod.fst).Nodup := (Dict.groupBy monthKey l.days).nodup
  have hmem : ∀ {month}, month ∈ before ++ (m, rows) :: after → month ∈ l.groups := by
    intro month hmonth
    rwa [hsplit]
  have hgroup := hmem (by simp : (m, rows) ∈ before ++ (m, rows) :: after)
  have hlastMem := ((mem_groups hgroup).1 last).mp (List.mem_of_getLast? hlast)
  have hbounds := hsupported.bounds hlastMem.1
  rw [hlastMem.2] at hbounds
  have hm : m ∈ l.groups.map Prod.fst := List.mem_map.mpr ⟨(m, rows), hgroup, rfl⟩
  have hfull : ∀ month ∈ before, month.2 ≠ [] := fun month hmonth =>
    (mem_groups (hmem (List.mem_append_left _ hmonth))).2
  rw [hsplit] at hdistinct hpartial hvalue hm
  obtain ⟨hget, hflag⟩ := tally_of_split round2 hdistinct hfull hlast
  rw [hvalue m hm hbounds, hpartial, hget]
  exact ⟨rfl, hflag⟩

/-- Every month that is not flagged is measured from the month right before exactly
where no month was skipped on one account. -/
theorem measured_iff (round2 : F → F) (l : EquityLedger F) (report : MonthlyReport F)
    (h : l.monthly round2 = .ok report) :
    MeasuredFromPrevious round2 l report ↔ l.NoMonthSkipped := by
  have hsupported := (monthly_eq_ok h).1
  constructor
  · intro hmeasured p hp r hr hlt hconsecutive m m' hm hm' hne haccounts
    rw [hsupported.monthOfDay_eq hp] at hm
    rw [hsupported.monthOfDay_eq hr] at hm'
    subst hm hm'
    obtain ⟨rows, hgroup⟩ := exists_group hr
    obtain ⟨before, after, first, last, hsplit, hfirst, hlast, hlastOf, hfirstLe, hbefore, hend⟩ :=
      hsupported.split hgroup
    have hmem := (mem_groups hgroup).1
    have hfirstMem := (hmem first).mp (List.mem_of_head? hfirst)
    have hlastMem := (hmem last).mp (List.mem_of_getLast? hlast)
    have hsame : ∀ q ∈ rows, q.account = p.account := fun q hq =>
      haccounts q ((hmem q).mp hq).1 ((hsupported.monthOfDay_eq ((hmem q).mp hq).1).mpr
        ((hmem q).mp hq).2)
    have hless : (monthKey p).number < (monthKey r).number := by
      refine lt_of_le_of_ne (hsupported.mono hp hr hlt.le) fun heq => hne ?_
      exact Jalali.Month.number_inj (hsupported.bounds hp) (hsupported.bounds hr) heq
    have hrFirst : r.day ≤ first.day := by
      refine (hconsecutive first hfirstMem.1).resolve_left fun hle => ?_
      have hmono := hsupported.mono hfirstMem.1 hp hle
      rw [hfirstMem.2] at hmono
      exact absurd hless (not_lt.mpr hmono)
    -- the row before is the end of the month before
    have hprevious : endOf before = some p := by
      have hpBefore := (hbefore p hp).mp (hlt.trans_le hrFirst)
      obtain ⟨z, hz⟩ := Option.ne_none_iff_exists'.mp
        (fun hnone => List.ne_nil_of_mem hpBefore (List.getLast?_eq_none_iff.mp hnone))
      obtain ⟨hzMem, hzLt, -, hzLast⟩ := hend z hz
      have hpz := (hzLast p hp).resolve_right (not_le.mpr (hlt.trans_le hrFirst))
      have hzp := (hconsecutive z hzMem).resolve_right
        (not_le.mpr (hzLt.trans_le (hfirstLe r hr rfl)))
      rw [List.inj_on_of_nodup_map l.primaryKey hp hzMem (le_antisymm hpz hzp)]
      exact hz
    have hcontinues : continues (endOf before) rows last = some p.lastEquity := by
      have hlastAccount := hsame last (List.mem_of_getLast? hlast)
      rw [hprevious, continues, if_pos ⟨hlastAccount.symm, fun q hq =>
        (hsame q hq).trans hlastAccount.symm⟩]
    have hunflagged : monthKey r ∉ report.partialMonths := by
      rw [(report_of_split h hsplit hlast).2, hcontinues]
      exact Option.some_ne_none _
    obtain ⟨m, base, hnext, ⟨hbase, hbaseMonth, -, -⟩, -⟩ := hmeasured _ last hlastOf hunflagged
    rw [hsupported.monthOfDay_eq hbase] at hbaseMonth
    subst hbaseMonth
    have hnumber := Jalali.Month.number_next (monthKey base)
    rw [hnext] at hnumber
    have hbaseLe : base.day ≤ p.day := by
      refine (hconsecutive base hbase).resolve_right fun hle => ?_
      have hmono := hsupported.mono hr hbase hle
      omega
    have hmono := hsupported.mono hbase hp hbaseLe
    rw [← hnext, Jalali.Month.number_inj (hsupported.bounds hp) (hsupported.bounds hbase)
      (by omega)]
  · intro hskipped m last hlastOf hunflagged
    obtain ⟨hlastRow, hlastMonth, hlastLatest⟩ := hlastOf
    rw [hsupported.monthOfDay_eq hlastRow] at hlastMonth
    subst hlastMonth
    obtain ⟨rows, hgroup⟩ := exists_group hlastRow
    obtain ⟨before, after, first, last', hsplit, hfirst, hlast, hlastOf', hfirstLe, hbefore,
      hend⟩ := hsupported.split hgroup
    have hmem := (mem_groups hgroup).1
    have hfirstMem := (hmem first).mp (List.mem_of_head? hfirst)
    obtain rfl : last = last' := by
      refine List.inj_on_of_nodup_map l.primaryKey hlastRow hlastOf'.1 (le_antisymm ?_ ?_)
      · exact hlastOf'.2.2 last hlastRow ((hsupported.monthOfDay_eq hlastRow).mpr rfl)
      · exact hlastLatest last' hlastOf'.1 hlastOf'.2.1
    obtain ⟨hvalue, hflag⟩ := report_of_split h hsplit hlast
    obtain ⟨base, hbase⟩ :=
      Option.ne_none_iff_exists'.mp (fun hnone => hunflagged (hflag.mpr hnone))
    obtain ⟨p, hp, rfl, haccount, hsame⟩ := continues_eq_some hbase
    obtain ⟨hpRow, hpFirst, hpMonth, hpLast⟩ := hend p hp
    have hnext : (monthKey p).next = monthKey last := by
      refine hskipped p hpRow first hfirstMem.1 hpFirst hpLast _ _ (hsupported p hpRow)
        ((hsupported.monthOfDay_eq hfirstMem.1).mpr hfirstMem.2) hpMonth ?_
      intro q hq hqMonth
      rw [hsame q ((hmem q).mpr ⟨hq, (hsupported.monthOfDay_eq hq).mp hqMonth⟩), haccount]
    refine ⟨monthKey p, p, hnext, ⟨hpRow, hsupported p hpRow, haccount, ?_⟩, ?_⟩
    · intro q hq hqMonth _
      refine (hpLast q hq).resolve_right fun hle => ?_
      have hmono := hsupported.mono hfirstMem.1 hq hle
      have hnumber := Jalali.Month.number_next (monthKey p)
      rw [(hsupported.monthOfDay_eq hq).mp hqMonth, hfirstMem.2] at hmono
      rw [hnext] at hnumber
      exact absurd hmono (by simp only [hnumber]; omega)
    · rw [hvalue, shown, hbase]

end

def springLedger : EquityLedger (Option ℚ) where
  rows := [⟨CivilDate.toDay ⟨2026, 3, 25⟩, "demo", 1, some 100, 2, some 100, some 100⟩,
    ⟨CivilDate.toDay ⟨2026, 5, 25⟩, "demo", 3, some 150, 4, some 150, some 150⟩]
  primaryKey := by decide
  dated := by decide

def springReport : MonthlyReport (Option ℚ) :=
  ⟨[(1405, [some (some 0), none, some (some 50), none, none, none, none, none, none, none,
    none, none])], [⟨1405, 1⟩], some 1, 2⟩

theorem monthly_springLedger : springLedger.monthly id = .ok springReport := by
  have hdays : springLedger.days = springLedger.rows :=
    List.mergeSort_of_pairwise (by decide +kernel)
  rw [monthly, hdays]
  decide +kernel

def steadyLedger : EquityLedger (Option ℚ) where
  rows := [⟨CivilDate.toDay ⟨2026, 3, 25⟩, "demo", 1, some 100, 2, some 100, some 100⟩,
    ⟨CivilDate.toDay ⟨2026, 4, 25⟩, "demo", 3, some 120, 4, some 120, some 120⟩,
    ⟨CivilDate.toDay ⟨2026, 7, 25⟩, "live", 5, some 80, 6, some 80, some 80⟩]
  primaryKey := by decide
  dated := by decide

theorem measured_iff_steady : ∃ report, steadyLedger.monthly id = .ok report ∧
    MeasuredFromPrevious id steadyLedger report := by
  have hdays : steadyLedger.days = steadyLedger.rows :=
    List.mergeSort_of_pairwise (by decide +kernel)
  obtain ⟨report, hreport⟩ : ∃ report, steadyLedger.monthly id = .ok report := by
    have hread : (steadyLedger.monthly id).toOption.isSome := by
      rw [monthly, hdays]
      decide +kernel
    rcases hreport : steadyLedger.monthly id with why | report
    · rw [hreport] at hread
      cases hread
    · exact ⟨report, rfl⟩
  refine ⟨report, hreport, (measured_iff id steadyLedger report hreport).mpr ?_⟩
  intro p hp r hr hlt hconsecutive m m' hm hm' hne haccounts
  have hchecked : ∀ p ∈ steadyLedger.rows, ∀ r ∈ steadyLedger.rows, p.day < r.day →
      (∀ q ∈ steadyLedger.rows, q.day ≤ p.day ∨ r.day ≤ q.day) → r.account = p.account →
        (Jalali.monthOfDay p.day).map Jalali.Month.next = Jalali.monthOfDay r.day := by
    decide +kernel
  have hnext := hchecked p hp r hr hlt hconsecutive (haccounts r hr hm')
  rw [hm, hm'] at hnext
  exact Except.ok.inj hnext

/-- A month is measured from two months before, and is not flagged. -/
theorem skippedMonth_unflagged : springLedger.monthly id = .ok springReport ∧
    ¬ MeasuredFromPrevious id springLedger springReport := by
  refine ⟨monthly_springLedger, fun hmeasured => ?_⟩
  have hdates : springLedger.rows.map (fun r => Jalali.monthOfDay r.day) =
      [.ok ⟨1405, 1⟩, .ok ⟨1405, 3⟩] := by
    decide +kernel
  have hmonths : ∀ r ∈ springLedger.rows, Jalali.monthOfDay r.day = .ok ⟨1405, 1⟩ ∨
      Jalali.monthOfDay r.day = .ok ⟨1405, 3⟩ := by
    intro r hr
    have hmem := List.mem_map_of_mem (f := fun r => Jalali.monthOfDay r.day) hr
    rw [hdates] at hmem
    simpa using hmem
  obtain ⟨m, base, hnext, ⟨hbase, hmonth, -, -⟩, -⟩ :=
    hmeasured ⟨1405, 3⟩ ⟨CivilDate.toDay ⟨2026, 5, 25⟩, "demo", 3, some 150, 4, some 150, some 150⟩
      ⟨by simp [springLedger], by decide +kernel, by decide +kernel⟩ (by decide)
  rcases hmonths base hbase with hfirst | hthird
  · rw [hfirst] at hmonth
    obtain rfl := Except.ok.inj hmonth
    exact absurd hnext (by decide)
  · rw [hthird] at hmonth
    obtain rfl := Except.ok.inj hmonth
    exact absurd hnext (by decide)

end EquityLedger

end Sentinel
