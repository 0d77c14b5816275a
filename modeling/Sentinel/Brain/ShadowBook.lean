import Mathlib.Data.List.Sort
import Sentinel.Core.Types
import Sentinel.Data.BarFeed

/-!
# The shadow book

Every considered signal is kept as a row, taken or not, and scored against the
bars that followed it: `resolve_path` walks them until one touches the stop or
the target or the horizon runs out.  A call scores every open row again, from
whatever window of the series the feed holds at that moment, and expires by the
clock the rows it has not settled.
-/

namespace Sentinel

/-! ## Signals and paths -/

structure ShadowSignal where
  strategy : String
  instrument : String
  side : Side
  tsNs : ℤ
  timeframe : String
  entry : Dec
  stop : Dec
  target : Option Dec
  horizon : ℕ
  costR : Dec
  horizon_pos : 0 < horizon

/-- The values of the column `exit`. -/
inductive ExitKind where
  | gap
  | stop
  | target
  | horizon
  | stillOpen
  | invalid
  | expired
  deriving DecidableEq

/-- The answer of `resolve_path`, and what a call stores of a row. -/
structure PathResult where
  resolved : Bool
  outcomeR : Option Dec
  exit : ExitKind
  used : ℕ
  deriving DecidableEq

namespace ShadowSignal

variable (s : ShadowSignal)

/-- `shadow_key`. -/
def key : String :=
  s.strategy ++ "|" ++ s.instrument ++ "|" ++
    (match s.side with | .buy => "BUY" | .sell => "SELL") ++ "|" ++ toString s.tsNs

def risk (s : ShadowSignal) : Dec := |s.entry - s.stop|

def inRisk (price : Dec) : Dec :=
  match s.side with
  | .buy => (price - s.entry) / s.risk
  | .sell => (s.entry - price) / s.risk

def Invalid (s : ShadowSignal) : Prop :=
  s.risk ≤ 0 ∨ match s.side with
    | .buy => s.entry ≤ s.stop
    | .sell => s.stop ≤ s.entry

instance (s : ShadowSignal) : Decidable s.Invalid := by
  rcases s with ⟨_, _, _ | _⟩ <;> (delta Invalid; infer_instance)

def touch (bar : BarRow) : Option (Dec × ExitKind) :=
  match s.side with
  | .buy =>
      if bar.openPrice ≤ s.stop then some (s.inRisk bar.openPrice - s.costR, .gap)
      else if bar.low ≤ s.stop then some (s.inRisk s.stop - s.costR, .stop)
      else match s.target with
        | none => none
        | some target =>
            if target ≤ bar.high then
              let fill := if target ≤ bar.openPrice then max target bar.openPrice else target
              some (s.inRisk fill - s.costR, .target)
            else none
  | .sell =>
      if s.stop ≤ bar.openPrice then some (s.inRisk bar.openPrice - s.costR, .gap)
      else if s.stop ≤ bar.high then some (s.inRisk s.stop - s.costR, .stop)
      else match s.target with
        | none => none
        | some target =>
            if bar.low ≤ target then
              let fill := if bar.openPrice ≤ target then min target bar.openPrice else target
              some (s.inRisk fill - s.costR, .target)
            else none

/-- The loop of `resolve_path`, with the bars it has used. -/
def walk (s : ShadowSignal) (used : ℕ) : List BarRow → PathResult
  | [] => ⟨false, none, .stillOpen, used⟩
  | bar :: bars =>
      match s.touch bar with
      | some (r, exit) => ⟨true, some r, exit, used + 1⟩
      | none =>
          if s.horizon ≤ used + 1 then
            ⟨true, some (s.inRisk bar.close - s.costR), .horizon, used + 1⟩
          else s.walk (used + 1) bars

def resolvePath (bars : List BarRow) : PathResult :=
  if s.Invalid then ⟨true, none, .invalid, 0⟩ else s.walk 0 (bars.take s.horizon)

def after (frame : List (ℤ × BarRow)) : List BarRow :=
  (frame.filter fun row => decide (s.tsNs < row.1)).map Prod.snd

def span : ℤ := barSeconds s.timeframe * s.horizon * 1000000000

def Late (s : ShadowSignal) (nowNs : ℤ) : Prop := 3 * s.span < nowNs - s.tsNs

instance (s : ShadowSignal) (nowNs : ℤ) : Decidable (s.Late nowNs) := by
  delta Late
  infer_instance

end ShadowSignal

/-! ## The book -/

/-- A row of `shadow`. -/
structure ShadowRow where
  signal : ShadowSignal
  resolved : Bool := false
  outcomeR : Option Dec := none
  exit : Option ExitKind := none
  barsSeen : ℕ := 0

/-- The columns that `resolve_signal` updates. -/
def ShadowRow.store (r : ShadowRow) (o : PathResult) : ShadowRow :=
  { r with resolved := o.resolved, outcomeR := o.outcomeR, exit := some o.exit, barsSeen := o.used }

/-- The table `shadow`: every row under the key of its signal. -/
structure ShadowBook where
  rows : Dict String ShadowRow
  named : ∀ key r, rows.get? key = some r → r.signal.key = key

abbrev ShadowFrames := String → String → List (ℤ × BarRow)

def ShadowSignal.outcomeAt (s : ShadowSignal) (nowNs : ℤ) (bars : List BarRow) (last : BarRow) :
    PathResult :=
  let path := s.resolvePath bars
  if path.resolved = false ∧ s.Late nowNs then
    { path with
      resolved := true
      exit := .expired
      outcomeR := if 0 < s.risk then some (s.inRisk last.close - s.costR) else path.outcomeR }
  else path

def ShadowRow.score (r : ShadowRow) (frame : List (ℤ × BarRow)) (nowNs : ℤ) :
    Option PathResult :=
  if frame = [] then
    if r.signal.Late nowNs then some ⟨true, none, .expired, 0⟩ else none
  else
    match (r.signal.after frame).getLast? with
    | none => none
    | some last =>
        let o := r.signal.outcomeAt nowNs (r.signal.after frame) last
        if o.resolved = true ∨ o.used ≠ r.barsSeen then some o else none

namespace ShadowBook

def empty : ShadowBook := ⟨Dict.empty, by simp⟩

variable (b : ShadowBook)

/-- `record_signal`: the first sighting of a key is kept. -/
def recordSignal (s : ShadowSignal) : ShadowBook where
  rows := b.rows.setDefault s.key { signal := s }
  named := by
    intro key r hr
    rw [Dict.get?_setDefault] at hr
    split_ifs at hr with hkey
    · rcases hold : b.rows.get? s.key with _ | old
      · rw [hold] at hr
        exact Option.some.inj hr ▸ hkey.symm
      · rw [hold] at hr
        exact hkey ▸ Option.some.inj hr ▸ b.named s.key old hold
    · exact b.named key r hr

/-- `open_signals`: the oldest open rows. -/
def openSignals (limit : ℕ) : List ShadowRow :=
  let opened := b.rows.values.filter fun r : ShadowRow => !r.resolved
  (opened.insertionSort fun r r' => r.signal.tsNs ≤ r'.signal.tsNs).take limit

def resolveSignal (key : String) (o : PathResult) : ShadowBook where
  rows := b.rows.adjust key fun r => r.store o
  named := by
    intro key' r hr
    rw [Dict.get?_adjust] at hr
    split_ifs at hr with hkey
    · obtain ⟨old, hold, rfl⟩ := Option.map_eq_some_iff.mp hr
      exact b.named key' old hold
    · exact b.named key' r hr

/-- One row of the loop of `resolve`. -/
def scoreRow (frames : ShadowFrames) (nowNs : ℤ) (b : ShadowBook) (r : ShadowRow) : ShadowBook :=
  match r.score (frames r.signal.timeframe r.signal.instrument) nowNs with
  | none => b
  | some o => b.resolveSignal r.signal.key o

/-- `Brain.resolve`: the open rows are read once and scored one after another. -/
def resolve (enabled : Bool) (frames : ShadowFrames) (nowNs : ℤ) (limit : ℕ) : ShadowBook :=
  if enabled then (b.openSignals limit).foldl (scoreRow frames nowNs) b else b

theorem mem_openSignals {b : ShadowBook} {limit : ℕ} {r : ShadowRow}
    (hr : r ∈ b.openSignals limit) :
    b.rows.get? r.signal.key = some r ∧ r.resolved = false := by
  have hmem := (List.mem_insertionSort _).mp (List.mem_of_mem_take hr)
  obtain ⟨hvalue, hopen⟩ := List.mem_filter.mp hmem
  obtain ⟨key, hkey⟩ := (Dict.mem_values_iff _ _).mp hvalue
  refine ⟨?_, by simpa using hopen⟩
  rw [b.named key r hkey]
  exact hkey

end ShadowBook

/-! ## Along a path -/

namespace ShadowSignal

variable {s : ShadowSignal} {used : ℕ} {bars : List BarRow}

theorem walk_append_of_untouched (later : List BarRow)
    (hfree : ∀ bar ∈ bars, s.touch bar = none) (hlen : used + bars.length < s.horizon) :
    s.walk used (bars ++ later) = s.walk (used + bars.length) later := by
  induction bars generalizing used with
  | nil => rfl
  | cons bar bars ih =>
      rw [List.length_cons] at hlen ⊢
      rw [List.cons_append, walk, hfree bar List.mem_cons_self]
      simp only
      rw [if_neg (by omega), ih (fun b hb => hfree b (List.mem_cons_of_mem _ hb)) (by omega)]
      congr 1
      omega

theorem walk_of_first_touch {bar : BarRow}
    (later : List BarRow) {r : Dec} {exit : ExitKind}
    (hfree : ∀ b ∈ bars, s.touch b = none) (htouch : s.touch bar = some (r, exit))
    (hlen : used + bars.length < s.horizon) :
    s.walk used (bars ++ bar :: later) = ⟨true, some r, exit, used + bars.length + 1⟩ := by
  rw [walk_append_of_untouched _ hfree hlen, walk, htouch]

theorem walk_append_of_resolved (later : List BarRow)
    (h : (s.walk used bars).resolved = true) :
    s.walk used (bars ++ later) = s.walk used bars := by
  induction bars generalizing used with
  | nil => cases h
  | cons bar bars ih =>
      rw [walk] at h
      rw [List.cons_append, walk, walk]
      rcases htouch : s.touch bar with _ | ⟨r, exit⟩
      · rw [htouch] at h
        simp only at h ⊢
        split_ifs at h ⊢ with hend
        · rfl
        · exact ih h
      · rfl

theorem walk_take {used : ℕ} (bars : List BarRow) (hused : used < s.horizon) :
    s.walk used (bars.take (s.horizon - used)) = s.walk used bars := by
  induction bars generalizing used with
  | nil => rw [List.take_nil]
  | cons bar bars ih =>
      obtain ⟨left, hleft⟩ := Nat.exists_eq_succ_of_ne_zero (Nat.sub_ne_zero_of_lt hused)
      rw [hleft, List.take_succ_cons, walk, walk]
      rcases s.touch bar with _ | ⟨r, exit⟩
      · simp only
        split_ifs with hend
        · rfl
        · rw [← ih (by omega)]
          congr 2
          omega
      · rfl

theorem resolvePath_of_valid (h : ¬ s.Invalid) (bars : List BarRow) :
    s.resolvePath bars = s.walk 0 bars := by
  rw [resolvePath, if_neg h]
  exact walk_take bars s.horizon_pos

theorem resolvePath_of_invalid (h : s.Invalid) (bars : List BarRow) :
    s.resolvePath bars = ⟨true, none, .invalid, 0⟩ := if_pos h

theorem outcomeR_walk
    (h : (s.walk used bars).resolved = false) : (s.walk used bars).outcomeR = none := by
  induction bars generalizing used with
  | nil => rfl
  | cons bar bars ih =>
      rw [walk] at h ⊢
      rcases htouch : s.touch bar with _ | ⟨r, exit⟩
      · rw [htouch] at h
        simp only at h ⊢
        split_ifs at h ⊢ with hend
        exact ih h
      · rw [htouch] at h
        cases h

theorem outcomeR_resolvePath (h : (s.resolvePath bars).resolved = false) :
    (s.resolvePath bars).outcomeR = none := by
  by_cases hs : s.Invalid
  · rw [resolvePath_of_invalid hs]
  · rw [resolvePath_of_valid hs] at h ⊢
    exact outcomeR_walk h

theorem resolved_walk (hused : used < s.horizon) :
    (s.walk used bars).resolved = false ↔
      used + bars.length < s.horizon ∧ ∀ bar ∈ bars, s.touch bar = none := by
  induction bars generalizing used with
  | nil => simp [walk, hused]
  | cons bar bars ih =>
      rw [walk]
      rcases htouch : s.touch bar with _ | ⟨r, exit⟩
      · simp only [List.length_cons, List.forall_mem_cons, htouch, true_and]
        split_ifs with hend
        · simp only [false_iff, not_and]
          intro hlen
          omega
        · rw [ih (by omega), Nat.add_right_comm, Nat.add_assoc]
      · simp [htouch]

end ShadowSignal

end Sentinel
