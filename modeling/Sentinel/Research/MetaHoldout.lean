import Sentinel.Research.NoLookAhead
import Sentinel.Support.Shortlist

/-!
# The holdout of the meta-label filter

The lab backtests every allocation on the stored bars and keeps the logs of
their signals.  The rows whose forward return is known are put in the order of
their bars, the first three fifths train the filter and the rest judge it.  A
training row is purged when its label ends at or after the first row of the
holdout; the end is reckoned as so many nominal bars after the row's own, while
the label was read from the close so many rows ahead.
-/

namespace Sentinel

open Float64 Backtest

namespace Lab

variable {F : Type}

/-! ## The logs and their rows -/

/-- `TF_SECONDS.get(timeframe, 3600)`. -/
def tfSeconds : String → ℤ
  | "M1" => 60
  | "M5" => 300
  | "M15" => 900
  | "M30" => 1800
  | "H1" => 3600
  | "H4" => 14400
  | "D1" => 86400
  | "W1" => 604800
  | _ => 3600

structure SignalLog (F : Type) where
  strategy : String
  timeframe : String
  clock : List ℤ
  entries : List (SignalEntry F)
  inOrder : clock.Pairwise (· < ·)
  stamped : ∀ e ∈ entries, e.tsNs = clock.getD e.index 0
  ahead : ∀ e ∈ entries, 1 ≤ e.horizonBars
  labelled : ∀ e ∈ entries, e.fwdRetH.isSome → e.index + e.horizonBars < clock.length

structure LabRow (F : Type) extends SignalEntry F where
  strategy : String
  labelEndNs : ℤ
  barNs : ℤ
  clock : List ℤ

def rowOf (log : SignalLog F) (e : SignalEntry F) : LabRow F where
  toSignalEntry := e
  strategy := log.strategy
  labelEndNs := e.tsNs + e.horizonBars * tfSeconds log.timeframe * 10 ^ 9
  barNs := tfSeconds log.timeframe * 10 ^ 9
  clock := log.clock

def signalLogs (logs : List (SignalLog F)) : List (LabRow F) :=
  logs.flatMap fun log => log.entries.map (rowOf log)

/-! ## The split -/

variable (rows : List (LabRow F))

def orderedRows : List (LabRow F) :=
  (rows.filter fun r => r.fwdRetH.isSome).insertionSort fun a b => a.tsNs ≤ b.tsNs

/-- `int(len(rows) * 0.6)`. -/
def cut (rows : List (LabRow F)) : ℕ := 3 * (orderedRows rows).length / 5

def firstRows : List (LabRow F) := (orderedRows rows).take (cut rows)

def holdout (rows : List (LabRow F)) : List (LabRow F) := (orderedRows rows).drop (cut rows)

def holdStart : ℤ := ((holdout rows).head?.map fun r => r.tsNs).getD 0

structure MetaSplit (F : Type) where
  train : List (LabRow F)
  hold : List (LabRow F)
  nPurged : ℕ

/-- `_train_meta` up to the fit: too few rows are refused. -/
def trainMeta : Except String (MetaSplit F) :=
  if (orderedRows rows).length < 250 then
    .error ("only " ++ toString (orderedRows rows).length ++ " labelled signals (need 250)")
  else
    let purged := (firstRows rows).filter fun r => r.labelEndNs < holdStart rows
    .ok
      { train := purged
        hold := holdout rows
        nPurged := (firstRows rows).length - purged.length }

/-! ## What a row has seen -/

def closedNs (r : LabRow F) : ℤ := r.clock.getD (r.index + r.horizonBars) 0 + r.barNs

def HoldoutUnseen : Prop :=
  ∀ split, trainMeta rows = .ok split → ∀ r ∈ split.train, closedNs r ≤ holdStart rows

/-! ### Told by the logs -/

def SignalLog.labelledEntries (log : SignalLog F) : List (SignalEntry F) :=
  log.entries.filter fun e => e.fwdRetH.isSome

def labelledTimes (logs : List (SignalLog F)) : List ℤ :=
  logs.flatMap fun log => log.labelledEntries.map fun e => e.tsNs

/-- Three fifths of the labelled signals, and no more, lie before `t`, in the order of
their times. -/
def SplitsAt (logs : List (SignalLog F)) (t : ℤ) : Prop :=
  (labelledTimes logs).countP (· < t) ≤ 3 * (labelledTimes logs).length / 5 ∧
    3 * (labelledTimes logs).length / 5 < (labelledTimes logs).countP (· ≤ t)

/-- The bars of the log that have closed by `t`. -/
def SignalLog.closedBy (log : SignalLog F) (t : ℤ) : ℕ :=
  log.clock.countP fun start => start + tfSeconds log.timeframe * 10 ^ 9 ≤ t

/-- Where `t` is later than a signal by more than its horizon in full bars, the signal's
own bar and so many after it have closed by `t`. -/
def BarsKeepUp (log : SignalLog F) (t : ℤ) (e : SignalEntry F) : Prop :=
  e.horizonBars * (tfSeconds log.timeframe * 10 ^ 9) < t - e.tsNs →
    e.index + 1 + e.horizonBars ≤ log.closedBy t

variable {rows : List (LabRow F)}

theorem mem_orderedRows {r : LabRow F} : r ∈ orderedRows rows ↔ r ∈ rows ∧ r.fwdRetH.isSome := by
  rw [orderedRows, List.mem_insertionSort, List.mem_filter]

theorem mem_signalLogs {logs : List (SignalLog F)} {r : LabRow F} :
    r ∈ signalLogs logs ↔ ∃ log ∈ logs, ∃ e ∈ log.entries, rowOf log e = r := by
  simp only [signalLogs, List.mem_flatMap, List.mem_map]

theorem mem_train {split : MetaSplit F} (h : trainMeta rows = .ok split)
    {r : LabRow F} : r ∈ split.train ↔ r ∈ firstRows rows ∧ r.labelEndNs < holdStart rows := by
  rw [trainMeta] at h
  split at h
  · cases h
  · cases h
    rw [List.mem_filter, decide_eq_true_iff]

theorem trainMeta_eq_ok :
    (∃ split, trainMeta rows = .ok split) ↔ 250 ≤ (orderedRows rows).length := by
  rw [trainMeta]
  split
  · rename_i hfew
    simp [hfew]
  · rename_i hmany
    simpa using hmany

/-! ## The cut in the order of time -/

variable {logs : List (SignalLog F)}

theorem orderedTimes_perm :
    ((orderedRows (signalLogs logs)).map fun r => r.tsNs).Perm (labelledTimes logs) := by
  have hrows : ((signalLogs logs).filter fun r => r.fwdRetH.isSome).map (fun r => r.tsNs) =
      labelledTimes logs := by
    rw [signalLogs, labelledTimes, List.filter_flatMap, List.map_flatMap]
    congr 1
    funext log
    rw [List.filter_map, List.map_map]
    rfl
  rw [← hrows]
  exact (List.perm_insertionSort _ _).map _

theorem orderedTimes_sorted (rows : List (LabRow F)) :
    ((orderedRows rows).map fun r => r.tsNs).Pairwise (· ≤ ·) := by
  rw [List.pairwise_map]
  exact List.pairwise_insertionSort _ _

theorem splitsAt_iff (hmany : 250 ≤ (labelledTimes logs).length) {t : ℤ} :
    SplitsAt logs t ↔ t = holdStart (signalLogs logs) := by
  have hperm : ((orderedRows (signalLogs logs)).map fun r => r.tsNs).Perm (labelledTimes logs) :=
    orderedTimes_perm
  have hsorted := orderedTimes_sorted (signalLogs logs)
  have hlength := hperm.length_eq
  have hcut : cut (signalLogs logs) = 3 * (labelledTimes logs).length / 5 := by
    rw [cut, ← hlength, List.length_map]
  have hlt : cut (signalLogs logs) <
      ((orderedRows (signalLogs logs)).map fun r => r.tsNs).length := by omega
  have hstart : ((orderedRows (signalLogs logs)).map fun r => r.tsNs)[cut (signalLogs logs)] =
      holdStart (signalLogs logs) := by
    rw [List.length_map] at hlt
    rw [holdStart, holdout, List.head?_drop, List.getElem?_eq_getElem hlt, List.getElem_map]
    rfl
  have hbelow := Ranks.getElem_iff_lt_countP hsorted (q := fun a => a < t)
    (fun a b hab hb => decide_eq_true (hab.trans_lt (of_decide_eq_true hb))) hlt
  have hupto := Ranks.getElem_iff_lt_countP hsorted (q := fun a => a ≤ t)
    (fun a b hab hb => decide_eq_true (hab.trans (of_decide_eq_true hb))) hlt
  rw [hstart, hperm.countP_eq, decide_eq_true_iff] at hbelow hupto
  rw [SplitsAt, ← hcut, ← not_lt, ← hbelow, ← hupto, not_lt]
  exact le_antisymm_iff.symm

/-! ## When the holdout is unseen -/

theorem barNs_pos (timeframe : String) : 0 < tfSeconds timeframe * 10 ^ 9 := by
  have hpos : 0 < tfSeconds timeframe := by
    unfold tfSeconds
    split <;> decide
  positivity

theorem mem_train_iff {split : MetaSplit F} (h : trainMeta (signalLogs logs) = .ok split)
    {r : LabRow F} :
    r ∈ split.train ↔
      r ∈ orderedRows (signalLogs logs) ∧ r.labelEndNs < holdStart (signalLogs logs) := by
  rw [mem_train h]
  refine ⟨fun hr => ⟨List.mem_of_mem_take hr.1, hr.2⟩, fun hr => ⟨?_, hr.2⟩⟩
  by_contra hlate
  have hdrop : r ∈ holdout (signalLogs logs) := by
    have hsplit := hr.1
    rw [← List.take_append_drop (cut (signalLogs logs)) (orderedRows (signalLogs logs)),
      List.mem_append] at hsplit
    exact hsplit.resolve_left hlate
  have hafter : holdStart (signalLogs logs) ≤ r.tsNs := by
    have hsorted : (holdout (signalLogs logs)).Pairwise fun a b => a.tsNs ≤ b.tsNs :=
      (List.pairwise_insertionSort _ _).sublist (List.drop_sublist _ _)
    rw [holdStart]
    rcases hhold : holdout (signalLogs logs) with - | ⟨first, rest⟩
    · rw [hhold] at hdrop
      cases hdrop
    · rw [hhold] at hdrop hsorted
      rcases List.mem_cons.1 hdrop with rfl | hmem
      · exact le_rfl
      · exact (List.pairwise_cons.1 hsorted).1 r hmem
  obtain ⟨log, -, e, -, rfl⟩ := mem_signalLogs.1 (mem_orderedRows.1 hr.1).1
  have hend := hr.2
  have hbar := barNs_pos log.timeframe
  have hahead : (0 : ℤ) ≤ e.horizonBars * tfSeconds log.timeframe * 10 ^ 9 := by
    rw [mul_assoc]
    positivity
  simp only [rowOf] at hend hafter
  linarith

theorem closedNs_le_iff {log : SignalLog F} {e : SignalEntry F} (he : e ∈ log.entries)
    (hlabel : e.fwdRetH.isSome) {t : ℤ} :
    closedNs (rowOf log e) ≤ t ↔ e.index + 1 + e.horizonBars ≤ log.closedBy t := by
  have hlt := log.labelled e he hlabel
  have hcount := Ranks.getElem_iff_lt_countP (log.inOrder.imp fun hab => hab.le)
    (q := fun start => start + tfSeconds log.timeframe * 10 ^ 9 ≤ t)
    (fun a b hab hb => decide_eq_true
      ((add_le_add_left hab _).trans (of_decide_eq_true hb))) hlt
  have hclosed : closedNs (rowOf log e) =
      log.clock[e.index + e.horizonBars] + tfSeconds log.timeframe * 10 ^ 9 := by
    simp only [closedNs, rowOf]
    rw [List.getD_eq_getElem?_getD, List.getElem?_eq_getElem hlt, Option.getD_some]
  rw [decide_eq_true_iff] at hcount
  rw [hclosed, hcount, SignalLog.closedBy]
  omega

/-- Whatever the logs, no kept row has seen the holdout exactly when, at the time that
splits the labelled signals, the bars of every log have kept up with the horizons. -/
theorem holdoutUnseen_iff (logs : List (SignalLog F)) :
    HoldoutUnseen (signalLogs logs) ↔
      (250 ≤ (labelledTimes logs).length → ∀ t, SplitsAt logs t →
        ∀ log ∈ logs, ∀ e ∈ log.labelledEntries, BarsKeepUp log t e) := by
  have hlength : (orderedRows (signalLogs logs)).length = (labelledTimes logs).length := by
    rw [← orderedTimes_perm.length_eq, List.length_map]
  have hkept : ∀ log : SignalLog F, ∀ e t,
      e.horizonBars * (tfSeconds log.timeframe * 10 ^ 9) < t - e.tsNs ↔
        (rowOf log e).labelEndNs < t := by
    intro log e t
    simp only [rowOf]
    rw [mul_assoc]
    constructor <;> intro h <;> linarith
  constructor
  · intro hunseen hmany t ht log hlog e he hfar
    obtain ⟨hmem, hlabel⟩ := List.mem_filter.1 he
    obtain rfl := (splitsAt_iff hmany).1 ht
    obtain ⟨split, hsplit⟩ := trainMeta_eq_ok.2 (hlength ▸ hmany)
    have hrow : rowOf log e ∈ orderedRows (signalLogs logs) :=
      mem_orderedRows.2 ⟨mem_signalLogs.2 ⟨log, hlog, e, hmem, rfl⟩, hlabel⟩
    exact (closedNs_le_iff hmem hlabel).1
      (hunseen split hsplit _ ((mem_train_iff hsplit).2 ⟨hrow, (hkept log e _).1 hfar⟩))
  · intro hkeep split hsplit r hr
    have hmany := hlength ▸ trainMeta_eq_ok.1 ⟨split, hsplit⟩
    obtain ⟨hordered, hend⟩ := (mem_train_iff hsplit).1 hr
    obtain ⟨hrow, hlabel⟩ := mem_orderedRows.1 hordered
    obtain ⟨log, hlog, e, he, rfl⟩ := mem_signalLogs.1 hrow
    exact (closedNs_le_iff he hlabel).2
      (hkeep hmany _ ((splitsAt_iff hmany).2 rfl) log hlog e (List.mem_filter.2 ⟨he, hlabel⟩)
        ((hkept log e _).2 hend))

/-! ## The log of a run -/

section Runs

variable {P : Type} [Float64 F] {bt : Backtest F P} {x : Prepared F P}

theorem raisedAt_of_mem_signalLog {s t : LoopState F} {result : Result F}
    (h : (bt.runLoop x).run s = .ok result t) {e : SignalEntry F} (he : e ∈ result.signalLog) :
    RaisedAt x e.index e.toRaised ∧ e = signalEntry x e.toRaised := by
  obtain ⟨reports, u, acct, hreports, -, rfl⟩ := runLoop_eq_ok h
  obtain ⟨r, hr, rfl⟩ := List.mem_map.1 he
  obtain ⟨-, hall⟩ := raisedAt_of_mapM hreports
  obtain ⟨j, -, hat⟩ := hall r hr
  refine ⟨⟨rfl, ?_, hat.ahead⟩, rfl⟩
  exact hat.stamped.trans (congrArg x.tsNs hat.index.symm)

theorem lt_length_of_forwardReturn {symbol : String} {i n : ℕ}
    (h : (forwardReturn x symbol i n).isSome) : i + n < x.length := by
  rw [forwardReturn] at h
  split at h
  · rename_i hknown
    exact hknown.1
  · cases h

/-- The log of a run, on a clock in order, as `prepare` makes it. -/
def SignalLog.ofRun (timeframe : String) (hclock : x.clock.Pairwise (· < ·))
    {s t : LoopState F} {result : Result F} (h : (bt.runLoop x).run s = .ok result t) : SignalLog F where
  strategy := bt.strategy.name
  timeframe
  clock := x.clock
  entries := result.signalLog
  inOrder := hclock
  stamped e he := (raisedAt_of_mem_signalLog h he).1.stamped
  ahead e he := (raisedAt_of_mem_signalLog h he).1.ahead
  labelled e he hlabel := by
    rw [(raisedAt_of_mem_signalLog h he).2] at hlabel
    exact lt_length_of_forwardReturn hlabel

end Runs

/-! ## A weekend at the cut -/

def weekendClock : List ℤ :=
  (List.range 252).map fun i : ℕ => if i < 150 then i * hourNs else (i + 48) * hourNs

def weekendEntry (i : ℕ) : SignalEntry (Option ℚ) where
  symbol := "EUR_USD"
  index := i
  tsNs := weekendClock.getD i 0
  signal := { instrument := "EUR_USD", side := some .buy, strength := some 1, horizonBars := 1 }
  side := .buy
  horizonBars := 1
  features := []
  fwdRet1 := some (some 0)
  fwdRetH := some (some 0)

theorem getD_weekendClock {i : ℕ} (h : i < 252) :
    weekendClock.getD i 0 = if i < 150 then i * hourNs else (i + 48) * hourNs := by
  rw [weekendClock, List.getD_eq_getElem?_getD, List.getElem?_map, List.getElem?_range h]
  rfl

def weekendLog : SignalLog (Option ℚ) where
  strategy := "always_long"
  timeframe := "H1"
  clock := weekendClock
  entries := (List.range 250).map weekendEntry
  inOrder := by
    rw [weekendClock, List.pairwise_map]
    refine List.pairwise_lt_range.imp fun {i j} hij => ?_
    have hour : (0 : ℤ) < hourNs := by decide
    split
    · split
      · exact mul_lt_mul_of_pos_right (by omega) hour
      · exact mul_lt_mul_of_pos_right (by omega) hour
    · rw [if_neg (by omega)]
      exact mul_lt_mul_of_pos_right (by omega) hour
  stamped := by
    intro e he
    obtain ⟨i, -, rfl⟩ := List.mem_map.1 he
    rfl
  ahead := by
    intro e he
    obtain ⟨i, -, rfl⟩ := List.mem_map.1 he
    exact le_rfl
  labelled := by
    intro e he _
    obtain ⟨i, hi, rfl⟩ := List.mem_map.1 he
    have hlength : weekendClock.length = 252 := by
      rw [weekendClock, List.length_map, List.length_range]
    rw [List.mem_range] at hi
    rw [hlength]
    exact Nat.add_lt_add_right hi 1 |>.trans (by decide)

theorem orderedRows_weekendLog :
    orderedRows (signalLogs [weekendLog]) =
      (List.range 250).map fun i => rowOf weekendLog (weekendEntry i) := by
  have hrows : signalLogs [weekendLog] =
      (List.range 250).map fun i => rowOf weekendLog (weekendEntry i) := by
    rw [signalLogs, List.flatMap_singleton, weekendLog, List.map_map]
    rfl
  have hlabelled : (signalLogs [weekendLog]).filter (fun r => r.fwdRetH.isSome) =
      signalLogs [weekendLog] := by
    rw [List.filter_eq_self, hrows]
    intro r hr
    obtain ⟨i, -, rfl⟩ := List.mem_map.1 hr
    rfl
  rw [orderedRows, hlabelled, hrows]
  apply List.Pairwise.insertionSort_eq
  rw [List.pairwise_map]
  refine (List.pairwise_lt_range).imp_of_mem ?_
  intro i j hi hj hij
  rw [List.mem_range] at hi hj
  change weekendClock.getD i 0 ≤ weekendClock.getD j 0
  rw [getD_weekendClock (by omega), getD_weekendClock (by omega)]
  have hour : (0 : ℤ) ≤ hourNs := by decide
  split
  · split
    · exact mul_le_mul_of_nonneg_right (by omega) hour
    · exact mul_le_mul_of_nonneg_right (by omega) hour
  · rw [if_neg (by omega)]
    exact mul_le_mul_of_nonneg_right (by omega) hour

/-- The last training row reads the close of the first bar of the holdout, and
is kept: its label is reckoned to end two days before. -/
theorem holdout_seen_over_weekend : ¬ HoldoutUnseen (signalLogs [weekendLog]) := by
  have hlength : (orderedRows (signalLogs [weekendLog])).length = 250 := by
    rw [orderedRows_weekendLog, List.length_map, List.length_range]
  have hcut : cut (signalLogs [weekendLog]) = 150 := by
    rw [cut, hlength]
  have hhead : (holdout (signalLogs [weekendLog])).head? =
      some (rowOf weekendLog (weekendEntry 150)) := by
    rw [holdout, hcut, List.head?_drop, orderedRows_weekendLog, List.getElem?_map,
      List.getElem?_range (by decide)]
    rfl
  have hstart : holdStart (signalLogs [weekendLog]) = 198 * hourNs := by
    rw [holdStart, hhead]
    exact getD_weekendClock (i := 150) (by decide)
  have hmem : rowOf weekendLog (weekendEntry 149) ∈ firstRows (signalLogs [weekendLog]) := by
    rw [firstRows, hcut, orderedRows_weekendLog, ← List.map_take, List.take_range]
    exact List.mem_map_of_mem (List.mem_range.2 (by decide))
  intro hunseen
  obtain ⟨split, hsplit⟩ := trainMeta_eq_ok.2 hlength.ge
  have hat : weekendClock.getD 149 0 = 149 * hourNs := getD_weekendClock (by decide)
  have hahead : weekendClock.getD 150 0 = 198 * hourNs := getD_weekendClock (by decide)
  have hclosed := hunseen split hsplit _ ((mem_train hsplit).2 ⟨hmem, by
    rw [hstart]
    change weekendClock.getD 149 0 + (1 : ℕ) * 3600 * 10 ^ 9 < 198 * hourNs
    rw [hat]
    decide⟩)
  rw [hstart] at hclosed
  change weekendClock.getD 150 0 + 3600 * 10 ^ 9 ≤ 198 * hourNs at hclosed
  rw [hahead] at hclosed
  exact absurd hclosed (by decide)

end Lab

end Sentinel
