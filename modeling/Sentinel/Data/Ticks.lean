import Sentinel.Core.Money
import Sentinel.Strategy.Series
import Sentinel.Support.KeyedRows

/-!
# Bars from ticks

`bars_from_ticks` groups the clean ticks by the grid of a timeframe and builds a
bar of each group that is large enough.  `export_history` does this window by
window, and of the bars with one start it keeps that of the last window.
-/

namespace Sentinel

open Float64 KeyedRows

namespace Ticks

variable {F : Type}

/-! ## One aggregation -/

structure Tick (F : Type) where
  ms : ℤ
  bid : F
  ask : F

structure TickBar (F : Type) where
  mid : Ohlc F
  bid : Ohlc F
  ask : Ohlc F
  volume : ℕ

def timeframeSeconds : String → Option ℤ
  | "M1" => some 60
  | "M5" => some 300
  | "M15" => some 900
  | "M30" => some 1800
  | "H1" => some 3600
  | "H4" => some 14400
  | "D1" => some 86400
  | "W1" => some 604800
  | _ => none

theorem timeframeSeconds_pos {timeframe : String} {seconds : ℤ}
    (h : timeframeSeconds timeframe = some seconds) : 0 < seconds := by
  unfold timeframeSeconds at h
  split at h
  case h_9 => cases h
  all_goals
    obtain rfl := Option.some.inj h
    decide

section Aggregation

variable [Float64 F]

def clean (t : Tick F) : Bool :=
  isFinite t.bid && isFinite t.ask && lt (ofRat 0) t.bid && le t.bid t.ask

def ohlcOf (prices : List F) : Ohlc F where
  openPrice := prices.headD nan
  high := prices.foldl larger nan
  low := prices.foldl smaller nan
  close := prices.getLastD nan

def barOf (ticks : List (Tick F)) : TickBar F where
  mid := ohlcOf (ticks.map fun t => (t.bid + t.ask) / ofRat 2)
  bid := ohlcOf (ticks.map Tick.bid)
  ask := ohlcOf (ticks.map Tick.ask)
  volume := ticks.length

def ordered (ticks : List (Tick F)) : List (Tick F) :=
  (ticks.filter clean).insertionSort fun a b => a.ms ≤ b.ms

def bucket (widthMs : ℤ) (t : Tick F) : ℤ := t.ms / widthMs

def group (widthMs : ℤ) (ticks : List (Tick F)) (b : ℤ) : List (Tick F) :=
  (ordered ticks).filter fun t => bucket widthMs t = b

def buckets (widthMs : ℤ) (ticks : List (Tick F)) : List ℤ :=
  ((ordered ticks).map (bucket widthMs)).dedup.insertionSort (· ≤ ·)

def aggregate (widthMs minTicks : ℤ) (ticks : List (Tick F)) : List (ℤ × TickBar F) :=
  ((buckets widthMs ticks).map fun b => (b * widthMs, barOf (group widthMs ticks b))).filter
    fun row => minTicks ≤ row.2.volume

def barsFromTicks (timeframe : String) (minTicks : ℤ) (ticks : List (Tick F)) :
    Except ValueError (List (ℤ × TickBar F)) :=
  match timeframeSeconds timeframe with
  | none => .error ⟨"unknown timeframe '" ++ timeframe ++ "'"⟩
  | some seconds => .ok (aggregate (seconds * 1000) minTicks ticks)

end Aggregation

/-! ## The export -/

structure TickVenue (F : Type) where
  ticks : String → List (Tick F)
  within : ℤ → ℤ → ℤ → Bool
  within_mono : ∀ {lo hi lo' hi' ms}, lo' ≤ lo → hi ≤ hi' → within lo hi ms = true →
    within lo' hi' ms = true

def TickVenue.fetchTicks (v : TickVenue F) (symbol : String) (lo hi : ℤ) : List (Tick F) :=
  (v.ticks symbol).filter fun t => v.within lo hi t.ms

def windows (stop step : ℤ) (hstep : 0 < step) (lo : ℤ) : List (ℤ × ℤ) :=
  if lo < stop then
    (lo, min stop (lo + step)) :: windows stop step hstep (min stop (lo + step))
  else []
termination_by (stop - lo).toNat
decreasing_by omega

def chunkNs (chunkDays : ℕ+) : ℤ := chunkDays * 86400 * 10 ^ 9

theorem chunkNs_pos (chunkDays : ℕ+) : 0 < chunkNs chunkDays := by
  have hpos : (0 : ℤ) < chunkDays := by exact_mod_cast chunkDays.pos
  rw [chunkNs]
  omega

variable [Float64 F]

/-- What `export_history` writes for one symbol and one timeframe: nothing when
no window gives a bar. -/
def exportSeries (v : TickVenue F) (symbol timeframe : String) (startNs endNs : ℤ)
    (chunkDays : ℕ+) (minTicks : ℤ) : Except ValueError (Option (List (ℤ × TickBar F))) := do
  let frames ← (windows endNs (chunkNs chunkDays) (chunkNs_pos chunkDays) startNs).mapM fun w =>
    let ticks := v.fetchTicks symbol w.1 w.2
    if ticks.isEmpty then .ok [] else barsFromTicks timeframe minTicks ticks
  let gathered := frames.filter fun bars => !bars.isEmpty
  if gathered.isEmpty then .ok none
  else .ok (some ((lastRows gathered.flatten).insertionSort fun a b => a.1 ≤ b.1))

/-! ## What an aggregation holds -/

section Aggregated

variable {widthMs minTicks : ℤ} {ticks : List (Tick F)}

def Enough (minTicks : ℤ) (n : ℕ) : Prop := 0 < n ∧ minTicks ≤ n

theorem mem_buckets {b : ℤ} : b ∈ buckets widthMs ticks ↔ 0 < (group widthMs ticks b).length := by
  rw [buckets, List.mem_insertionSort, List.mem_dedup, List.mem_map, List.length_pos_iff_exists_mem]
  simp only [group, List.mem_filter, decide_eq_true_eq]

theorem mem_aggregate {row : ℤ × TickBar F} :
    row ∈ aggregate widthMs minTicks ticks ↔
      ∃ b, Enough minTicks (group widthMs ticks b).length ∧
        row = (b * widthMs, barOf (group widthMs ticks b)) := by
  rw [aggregate, List.mem_filter, List.mem_map]
  simp only [decide_eq_true_eq]
  constructor
  · rintro ⟨⟨b, hb, rfl⟩, hmany⟩
    exact ⟨b, ⟨mem_buckets.1 hb, hmany⟩, rfl⟩
  · rintro ⟨b, ⟨hpos, hmany⟩, rfl⟩
    exact ⟨⟨b, mem_buckets.2 hpos, rfl⟩, hmany⟩

theorem pairwise_aggregate (hwidth : 0 < widthMs) :
    (aggregate widthMs minTicks ticks).Pairwise fun a b => a.1 < b.1 := by
  refine List.Pairwise.filter _ ?_
  rw [List.pairwise_map]
  have hnodup : (buckets widthMs ticks).Nodup :=
    (List.perm_insertionSort _ _).nodup_iff.2 (List.nodup_dedup _)
  have hsorted := (List.pairwise_insertionSort (· ≤ ·)
    ((ordered ticks).map (bucket widthMs)).dedup).and hnodup
  exact hsorted.imp fun hlt => mul_lt_mul_of_pos_right (lt_of_le_of_ne hlt.1 hlt.2) hwidth

theorem nodup_keys_aggregate (hwidth : 0 < widthMs) :
    ((aggregate widthMs minTicks ticks).map Prod.fst).Nodup := by
  rw [List.Nodup, List.pairwise_map]
  exact (pairwise_aggregate hwidth).imp fun hlt => hlt.ne

theorem mem_keys_aggregate (hwidth : 0 < widthMs) {b : ℤ} :
    b * widthMs ∈ (aggregate widthMs minTicks ticks).map Prod.fst ↔
      Enough minTicks (group widthMs ticks b).length := by
  rw [List.mem_map]
  constructor
  · rintro ⟨row, hrow, hkey⟩
    obtain ⟨b', henough, rfl⟩ := mem_aggregate.1 hrow
    rw [mul_right_cancel₀ hwidth.ne' hkey] at henough
    exact henough
  · intro henough
    exact ⟨_, mem_aggregate.2 ⟨b, henough, rfl⟩, rfl⟩

end Aggregated

/-! ## The windows against the whole range -/

section Windows

variable {v : TickVenue F} {symbol : String} {widthMs minTicks : ℤ}

def bucketTicks (v : TickVenue F) (symbol : String) (widthMs : ℤ) (w : ℤ × ℤ) (b : ℤ) :
    List (Tick F) :=
  group widthMs (v.fetchTicks symbol w.1 w.2) b

theorem bucketTicks_eq_filter {lo hi lo' hi' : ℤ} (hlo : lo' ≤ lo) (hhi : hi ≤ hi') (b : ℤ) :
    bucketTicks v symbol widthMs (lo, hi) b =
      (bucketTicks v symbol widthMs (lo', hi') b).filter fun t => v.within lo hi t.ms := by
  have hwindow : v.fetchTicks symbol lo hi =
      (v.fetchTicks symbol lo' hi').filter fun t => v.within lo hi t.ms := by
    rw [TickVenue.fetchTicks, TickVenue.fetchTicks, List.filter_filter]
    refine List.filter_congr fun t _ => ?_
    cases h : v.within lo hi t.ms
    · rfl
    · rw [v.within_mono hlo hhi h]
      rfl
  have htotal : Std.Total fun a b : Tick F => a.ms ≤ b.ms := ⟨fun a b => le_total a.ms b.ms⟩
  have htrans : IsTrans (Tick F) fun a b => a.ms ≤ b.ms := ⟨fun a b c => le_trans⟩
  rw [bucketTicks, bucketTicks, group, group, ordered, ordered, hwindow, List.filter_comm,
    ← filter_insertionSort, List.filter_comm]

omit [Float64 F] in
theorem le_of_mem_windows {stop step lo : ℤ} {hstep : 0 < step} {w : ℤ × ℤ}
    (h : w ∈ windows stop step hstep lo) : lo ≤ w.1 ∧ w.2 ≤ stop := by
  induction lo using windows.induct stop step hstep with
  | case1 lo hlt ih =>
      rw [windows, if_pos hlt] at h
      rcases List.mem_cons.1 h with rfl | h
      · exact ⟨le_rfl, min_le_left _ _⟩
      · have hnext := ih h
        exact ⟨by omega, hnext.2⟩
  | case2 lo hge =>
      rw [windows, if_neg hge] at h
      cases h

def Undivided (v : TickVenue F) (symbol : String) (widthMs minTicks : ℤ) (ws : List (ℤ × ℤ))
    (startNs endNs b : ℤ) : Prop :=
  ∃ before w later, ws = before ++ w :: later ∧
    (∀ t ∈ bucketTicks v symbol widthMs (startNs, endNs) b, v.within w.1 w.2 t.ms = true) ∧
    ∀ w' ∈ later, ¬ Enough minTicks (bucketTicks v symbol widthMs w' b).length

def exported (v : TickVenue F) (symbol : String) (widthMs minTicks : ℤ) (ws : List (ℤ × ℤ)) :
    List (ℤ × TickBar F) :=
  (lastRows (ws.flatMap fun w =>
    aggregate widthMs minTicks (v.fetchTicks symbol w.1 w.2))).insertionSort fun a b => a.1 ≤ b.1

theorem mem_exported (hwidth : 0 < widthMs) {ws : List (ℤ × ℤ)} {row : ℤ × TickBar F} :
    row ∈ exported v symbol widthMs minTicks ws ↔
      ∃ before w later b, ws = before ++ w :: later ∧
        Enough minTicks (bucketTicks v symbol widthMs w b).length ∧
        row = (b * widthMs, barOf (bucketTicks v symbol widthMs w b)) ∧
        ∀ w' ∈ later, ¬ Enough minTicks (bucketTicks v symbol widthMs w' b).length := by
  rw [exported, List.mem_insertionSort,
    mem_lastRows_flatMap fun w => nodup_keys_aggregate hwidth]
  constructor
  · rintro ⟨before, w, later, hws, hrow, hnone⟩
    obtain ⟨b, henough, rfl⟩ := mem_aggregate.1 hrow
    exact ⟨before, w, later, b, hws, henough, rfl,
      fun w' hw' h => hnone w' hw' ((mem_keys_aggregate hwidth).2 h)⟩
  · rintro ⟨before, w, later, b, hws, henough, rfl, hnone⟩
    exact ⟨before, w, later, hws, mem_aggregate.2 ⟨b, henough, rfl⟩,
      fun w' hw' h => hnone w' hw' ((mem_keys_aggregate hwidth).1 h)⟩

theorem pairwise_exported (ws : List (ℤ × ℤ)) :
    (exported v symbol widthMs minTicks ws).Pairwise fun a b => a.1 < b.1 :=
  pairwise_insertionSort (nodup_keys_lastRows _)

theorem exported_eq_aggregate_iff (hwidth : 0 < widthMs) {ws : List (ℤ × ℤ)} {startNs endNs : ℤ}
    (hws : ∀ w ∈ ws, startNs ≤ w.1 ∧ w.2 ≤ endNs) :
    exported v symbol widthMs minTicks ws =
        aggregate widthMs minTicks (v.fetchTicks symbol startNs endNs) ↔
      ∀ b, Enough minTicks (bucketTicks v symbol widthMs (startNs, endNs) b).length →
        Undivided v symbol widthMs minTicks ws startNs endNs b := by
  have hinside : ∀ w ∈ ws, ∀ b, bucketTicks v symbol widthMs w b =
      (bucketTicks v symbol widthMs (startNs, endNs) b).filter
        fun t => v.within w.1 w.2 t.ms := by
    intro w hw b
    exact bucketTicks_eq_filter (hws w hw).1 (hws w hw).2 b
  constructor
  · intro heq b henough
    have hwhole : (b * widthMs, barOf (bucketTicks v symbol widthMs (startNs, endNs) b)) ∈
        exported v symbol widthMs minTicks ws := by
      rw [heq]
      exact mem_aggregate.2 ⟨b, henough, rfl⟩
    obtain ⟨before, w, later, b', hsplit, -, hrow, hnone⟩ := (mem_exported hwidth).1 hwhole
    obtain ⟨hkey, hbar⟩ := Prod.mk.inj hrow
    obtain rfl := mul_right_cancel₀ hwidth.ne' hkey
    have hlength : (bucketTicks v symbol widthMs (startNs, endNs) b).length =
        (bucketTicks v symbol widthMs w b).length := congrArg TickBar.volume hbar
    have hw : w ∈ ws := by
      rw [hsplit]
      exact List.mem_append_right _ List.mem_cons_self
    refine ⟨before, w, later, hsplit, ?_, hnone⟩
    rw [hinside w hw b] at hlength
    exact List.filter_eq_self.1 (List.filter_sublist.eq_of_length hlength.symm)
  · intro hundivided
    have hkept : ∀ b, Enough minTicks (bucketTicks v symbol widthMs (startNs, endNs) b).length →
        (b * widthMs, barOf (bucketTicks v symbol widthMs (startNs, endNs) b)) ∈
          exported v symbol widthMs minTicks ws := by
      intro b henough
      obtain ⟨before, w, later, hsplit, hall, hnone⟩ := hundivided b henough
      have hw : w ∈ ws := by
        rw [hsplit]
        exact List.mem_append_right _ List.mem_cons_self
      have hsame : bucketTicks v symbol widthMs w b =
          bucketTicks v symbol widthMs (startNs, endNs) b := by
        rw [hinside w hw b]
        exact List.filter_eq_self.2 hall
      refine (mem_exported hwidth).2 ⟨before, w, later, b, hsplit, ?_, ?_, hnone⟩
      · rw [hsame]
        exact henough
      · rw [hsame]
    apply eq_of_same_rows (pairwise_exported ws) (pairwise_aggregate hwidth)
    intro row
    constructor
    · intro hrow
      obtain ⟨before, w, later, b, hsplit, henough, rfl, -⟩ := (mem_exported hwidth).1 hrow
      have hw : w ∈ ws := by
        rw [hsplit]
        exact List.mem_append_right _ List.mem_cons_self
      have hle : (bucketTicks v symbol widthMs w b).length ≤
          (bucketTicks v symbol widthMs (startNs, endNs) b).length := by
        rw [hinside w hw b]
        exact List.length_filter_le _ _
      have hwhole : Enough minTicks (bucketTicks v symbol widthMs (startNs, endNs) b).length :=
        ⟨henough.1.trans_le hle, henough.2.trans (by exact_mod_cast hle)⟩
      -- two exported bars of one start are the same
      have hsame := List.inj_on_of_nodup_map
        (List.pairwise_map.2 ((pairwise_exported ws).imp fun hlt => hlt.ne))
        hrow (hkept b hwhole) rfl
      rw [hsame]
      exact mem_aggregate.2 ⟨b, hwhole, rfl⟩
    · intro hrow
      obtain ⟨b, henough, rfl⟩ := mem_aggregate.1 hrow
      exact hkept b henough

variable (v symbol minTicks) in
theorem exportSeries_eq {timeframe : String} {seconds : ℤ}
    (h : timeframeSeconds timeframe = some seconds) (startNs endNs : ℤ) (chunkDays : ℕ+) :
    ∃ written, exportSeries v symbol timeframe startNs endNs chunkDays minTicks = .ok written ∧
      written.getD [] = exported v symbol (seconds * 1000) minTicks
        (windows endNs (chunkNs chunkDays) (chunkNs_pos chunkDays) startNs) := by
  set ws := windows endNs (chunkNs chunkDays) (chunkNs_pos chunkDays) startNs with hws
  have hframe : (fun w : ℤ × ℤ =>
      if (v.fetchTicks symbol w.1 w.2).isEmpty then Except.ok []
      else barsFromTicks timeframe minTicks (v.fetchTicks symbol w.1 w.2)) =
      fun w => (pure (aggregate (seconds * 1000) minTicks (v.fetchTicks symbol w.1 w.2)) :
        Except ValueError _) := by
    funext w
    split
    · rename_i hempty
      rw [List.isEmpty_iff.1 hempty]
      rfl
    · rw [barsFromTicks, h]
      rfl
  have hflat : ((ws.map fun w =>
      aggregate (seconds * 1000) minTicks (v.fetchTicks symbol w.1 w.2)).filter
        fun bars => !bars.isEmpty).flatten =
      ws.flatMap fun w => aggregate (seconds * 1000) minTicks (v.fetchTicks symbol w.1 w.2) := by
    rw [List.flatten_filter_not_isEmpty, List.flatMap_def]
  simp only [exportSeries, ← hws, hframe, List.mapM_pure, pure_bind]
  split
  · rename_i hnone
    refine ⟨none, rfl, ?_⟩
    rw [List.isEmpty_iff] at hnone
    rw [hnone] at hflat
    rw [exported, ← hflat]
    rfl
  · refine ⟨_, rfl, ?_⟩
    rw [exported, ← hflat]
    rfl

variable (v symbol minTicks) in
/-- The bars that are written are those of all ticks of the range at once. -/
def FaithfulExport (timeframe : String) (startNs endNs : ℤ) (chunkDays : ℕ+) : Prop :=
  ∃ written, exportSeries v symbol timeframe startNs endNs chunkDays minTicks = .ok written ∧
    barsFromTicks timeframe minTicks (v.fetchTicks symbol startNs endNs) = .ok (written.getD [])

variable (v symbol minTicks) in
/-- Whatever the ticks, the range, the chunks and the timeframe, an export is
faithful exactly when no bar of the range is divided. -/
theorem faithfulExport_iff {timeframe : String} {seconds : ℤ}
    (h : timeframeSeconds timeframe = some seconds) (startNs endNs : ℤ) (chunkDays : ℕ+) :
    FaithfulExport v symbol minTicks timeframe startNs endNs chunkDays ↔
      ∀ b, Enough minTicks (bucketTicks v symbol (seconds * 1000) (startNs, endNs) b).length →
        Undivided v symbol (seconds * 1000) minTicks
          (windows endNs (chunkNs chunkDays) (chunkNs_pos chunkDays) startNs) startNs endNs b := by
  have hwidth : 0 < seconds * 1000 := by
    have hpos := timeframeSeconds_pos h
    omega
  obtain ⟨written, hexport, hgot⟩ := exportSeries_eq v symbol minTicks h startNs endNs chunkDays
  have hwhole : barsFromTicks timeframe minTicks (v.fetchTicks symbol startNs endNs) =
      .ok (aggregate (seconds * 1000) minTicks (v.fetchTicks symbol startNs endNs)) := by
    rw [barsFromTicks, h]
  rw [← exported_eq_aggregate_iff hwidth fun w hw => le_of_mem_windows hw, ← hgot]
  constructor
  · rintro ⟨written', hexport', hbars⟩
    rw [hexport] at hexport'
    cases hexport'
    rw [hwhole] at hbars
    exact (Except.ok.inj hbars).symm
  · intro hsame
    exact ⟨written, hexport, hwhole.trans (congrArg Except.ok hsame.symm)⟩

end Windows

/-! ## Windows on the grid -/

def halfOpen (ticks : String → List (Tick F)) : TickVenue F where
  ticks
  within lo hi ms := decide (lo ≤ ms * 10 ^ 6 ∧ ms * 10 ^ 6 < hi)
  within_mono := by
    intro lo hi lo' hi' ms hlo hhi h
    rw [decide_eq_true_iff] at h ⊢
    omega

/-! ## An export that begins at half past -/

def twoQuotes : List (Tick (Option ℚ)) :=
  [⟨259800000, some 1, some 2⟩, ⟨261600000, some 3, some 4⟩]

/-- The first chunk of three days ends between them, and the bar of that hour
opens with the second. -/
theorem export_divides_hour :
    ¬ FaithfulExport (halfOpen fun _ => twoQuotes) "EUR_USD" 1 "H1" (1800 * 10 ^ 9)
      (347400 * 10 ^ 9) 3 := by
  have hwindows : windows (347400 * 10 ^ 9) (chunkNs 3) (chunkNs_pos 3) (1800 * 10 ^ 9) =
      [(1800 * 10 ^ 9, 261000 * 10 ^ 9), (261000 * 10 ^ 9, 347400 * 10 ^ 9)] := by
    rw [windows, if_pos (by decide), windows, if_pos (by decide), windows, if_neg (by decide)]
    rfl
  have hquotes : bucketTicks (halfOpen fun _ => twoQuotes) "EUR_USD" (3600 * 1000)
      (1800 * 10 ^ 9, 347400 * 10 ^ 9) 72 = twoQuotes := rfl
  rw [faithfulExport_iff _ _ _ rfl, hwindows]
  intro hundivided
  obtain ⟨before, w, later, hsplit, hall, -⟩ := hundivided 72 (by
    rw [hquotes]
    exact ⟨by decide, by decide⟩)
  rw [hquotes] at hall
  have hw : w ∈ [((1800 * 10 ^ 9 : ℤ), (261000 * 10 ^ 9 : ℤ)),
      (261000 * 10 ^ 9, 347400 * 10 ^ 9)] := by
    rw [hsplit]
    exact List.mem_append_right _ List.mem_cons_self
  have hfirst := of_decide_eq_true (hall ⟨259800000, some 1, some 2⟩ List.mem_cons_self)
  have hsecond := of_decide_eq_true (hall ⟨261600000, some 3, some 4⟩
    (List.mem_cons_of_mem _ List.mem_cons_self))
  rcases List.mem_cons.1 hw with rfl | hw
  · exact absurd hsecond.2 (by decide)
  · rw [List.mem_singleton.1 hw] at hfirst
    exact absurd hfirst.1 (by decide)

/-- From the hour on, the second chunk has them both. -/
theorem faithfulExport_iff_twoQuotes :
    FaithfulExport (halfOpen fun _ => twoQuotes) "EUR_USD" 1 "H1" 0 (347400 * 10 ^ 9) 3 := by
  have hwindows : windows (347400 * 10 ^ 9) (chunkNs 3) (chunkNs_pos 3) 0 =
      [(0, 259200 * 10 ^ 9), (259200 * 10 ^ 9, 347400 * 10 ^ 9)] := by
    rw [windows, if_pos (by decide), windows, if_pos (by decide), windows, if_neg (by decide)]
    rfl
  rw [faithfulExport_iff _ _ _ rfl, hwindows]
  intro b _
  refine ⟨[(0, 259200 * 10 ^ 9)], (259200 * 10 ^ 9, 347400 * 10 ^ 9), [], rfl, ?_, nofun⟩
  intro t ht
  have hquote : t ∈ twoQuotes := by
    rw [bucketTicks, group, List.mem_filter, ordered, List.mem_insertionSort, List.mem_filter] at ht
    exact (List.mem_filter.mp ht.1.1).1
  simp only [twoQuotes, List.mem_cons, List.not_mem_nil, or_false] at hquote
  rcases hquote with rfl | rfl
  · rfl
  · rfl

end Ticks

end Sentinel
