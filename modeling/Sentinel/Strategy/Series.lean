import Sentinel.Core.Clock
import Sentinel.Core.Float64
import Sentinel.Support.Causal

/-!
# Bar frames and their series

A frame is the rows of a bar history, oldest first; a column of it is a series.
The windows, the exponential average and the groupings are those of the data
library, with its treatment of values that are not finite.
-/

namespace Sentinel

open Float64 Causal

/-- The prices of a bar. -/
structure Ohlc (F : Type) where
  openPrice : F
  high : F
  low : F
  close : F

structure FrameRow (F : Type) extends Ohlc F where
  tsNs : ℤ
  volume : F

abbrev Frame (F : Type) := List (FrameRow F)

variable {F : Type} [Float64 F]

/-- A row without a bar. -/
def Ohlc.missing : Ohlc F := ⟨nan, nan, nan, nan⟩

def Frame.bars (f : Frame F) : ℕ → Ohlc F := rows (f.map FrameRow.toOhlc) Ohlc.missing

def Frame.stamps (f : Frame F) : ℕ → ℤ := rows (f.map FrameRow.tsNs) 0

namespace Series

/-! ## Delay and difference -/

/-- `shift(n)`. -/
def shift (n : ℕ) (s : ℕ → F) : ℕ → F := delay n nan s

def diff (s : ℕ → F) (i : ℕ) : F := s i - shift 1 s i

/-! ## Rolling windows -/

/-- `rolling(w, min_periods=w)` and an aggregate of the window. -/
def rolling (w : ℕ) (agg : List F → F) (s : ℕ → F) (i : ℕ) : F :=
  let window := trailing w s i
  if window.length = w ∧ window.all isFinite then agg window else nan

variable (xs : List F)

def total : F := xs.foldl (· + ·) (ofRat 0)

def mean : F := total xs / ofRat xs.length

/-- `var(ddof=1)`. -/
def variance : F :=
  if xs.length ≤ 1 then nan
  else total (xs.map fun x => (x - mean xs) * (x - mean xs)) / ofRat (xs.length - 1 : ℕ)

/-- `std(ddof=1)`. -/
def std : F := sqrt (variance xs)

/-- `max()`, over the values that are numbers. -/
def largest : F := xs.foldl larger nan

/-- `min()`, over the values that are numbers. -/
def smallest : F := xs.foldl smaller nan

/-- `rank(pct=True)` of the last value; equal values share their average rank. -/
def rankPct : F :=
  let x := xs.getLast?.getD nan
  let below := xs.countP fun y => lt y x
  let equal := xs.countP fun y => eq y x
  ofRat (below + (equal + 1) / 2) / ofRat xs.length

/-! ## The exponential average -/

/-- The state of `ewm(adjust=False)`: the average, the weight it has kept, and
the number of values so far. -/
structure Ewm (F : Type) where
  weighted : F
  oldWeight : F
  observations : ℕ

def Ewm.first (x : F) : Ewm F :=
  if isFinite x then ⟨x, ofRat 1, 1⟩ else ⟨nan, ofRat 1, 0⟩

/-- A gap lowers the weight of what is behind it. -/
def Ewm.step (alpha : F) (e : Ewm F) (x : F) : Ewm F :=
  let decayed := e.oldWeight * (ofRat 1 - alpha)
  if isNan e.weighted then
    if isFinite x then ⟨x, e.oldWeight, e.observations + 1⟩ else e
  else if isFinite x then
    { weighted :=
        if eq e.weighted x then e.weighted
        else (decayed * e.weighted + alpha * x) / (decayed + alpha)
      oldWeight := ofRat 1
      observations := e.observations + 1 }
  else { e with oldWeight := decayed }

/-- `ewm(alpha, adjust=False, min_periods=n).mean()`. -/
def ewm (alpha : F) (minPeriods : ℕ) (s : ℕ → F) (i : ℕ) : F :=
  let e := scan Ewm.first (Ewm.step alpha) s i
  if max minPeriods 1 ≤ e.observations then e.weighted else nan

/-! ## Groups of rows -/

variable {κ : Type} [DecidableEq κ]

/-- The rows up to `i` that are in the group of row `i`. -/
def groupRows (key : ℕ → κ) (i : ℕ) : List ℕ :=
  (List.range (i + 1)).filter fun j => key j = key i

/-- `groupby(key).cumcount()`. -/
def cumCount (key : ℕ → κ) (i : ℕ) : ℕ := (groupRows key i).length - 1

/-- `groupby(key).cummax()` and `cummin()`. -/
def cumExtreme (pick : F → F → F) (key : ℕ → κ) (s : ℕ → F) (i : ℕ) : F :=
  if isNan (s i) then nan else ((groupRows key i).map s).foldl pick nan

/-- `groupby(key).ffill()`. -/
def forwardFill (key : ℕ → κ) (s : ℕ → F) (i : ℕ) : F :=
  ((groupRows key i).map s).foldl (fun last x => if isNan x then last else x) nan

/-! ## What the operations read -/

section Reading

variable {i : ℕ} {s t : ℕ → F}

theorem shift_agree (h : AgreeTo i s t) (n : ℕ) : AgreeTo i (shift n s) (shift n t) :=
  h.delay n nan

theorem diff_agree (h : AgreeTo i s t) : AgreeTo i (diff s) (diff t) :=
  h.map₂ (shift_agree h 1) (· - ·)

theorem rolling_agree (h : AgreeTo i s t) (w : ℕ) (agg : List F → F) :
    AgreeTo i (rolling w agg s) (rolling w agg t) := by
  intro j hj
  rw [rolling, rolling, h.trailing w j hj]

theorem ewm_agree (h : AgreeTo i s t) (alpha : F) (minPeriods : ℕ) :
    AgreeTo i (ewm alpha minPeriods s) (ewm alpha minPeriods t) := by
  intro j hj
  rw [ewm, ewm, h.scan Ewm.first (Ewm.step alpha) j hj]

variable {key key' : ℕ → κ}

theorem groupRows_agree (hkey : AgreeTo i key key') :
    AgreeTo i (groupRows key) (groupRows key') := by
  intro j hj
  apply List.filter_congr
  intro k hk
  have hkj : k ≤ j := Nat.le_of_lt_succ (List.mem_range.1 hk)
  rw [hkey j hj, hkey k (hkj.trans hj)]

theorem le_of_mem_groupRows {j k : ℕ} (h : k ∈ groupRows key j) : k ≤ j :=
  Nat.le_of_lt_succ (List.mem_range.1 (List.mem_filter.1 h).1)

theorem cumCount_agree (hkey : AgreeTo i key key') :
    AgreeTo i (cumCount key) (cumCount key') := by
  intro j hj
  rw [cumCount, cumCount, groupRows_agree hkey j hj]

theorem map_groupRows_agree {α : Type} {u v : ℕ → α} (hkey : AgreeTo i key key')
    (h : AgreeTo i u v) :
    AgreeTo i (fun j => (groupRows key j).map u) (fun j => (groupRows key' j).map v) := by
  intro j hj
  simp only [groupRows_agree hkey j hj]
  apply List.map_congr_left
  intro k hk
  exact h k ((le_of_mem_groupRows hk).trans hj)

theorem cumExtreme_agree (hkey : AgreeTo i key key') (h : AgreeTo i s t) (pick : F → F → F) :
    AgreeTo i (cumExtreme pick key s) (cumExtreme pick key' t) := by
  intro j hj
  have hgroup := map_groupRows_agree hkey h j hj
  simp only at hgroup
  rw [cumExtreme, cumExtreme, h j hj, hgroup]

theorem forwardFill_agree (hkey : AgreeTo i key key') (h : AgreeTo i s t) :
    AgreeTo i (forwardFill key s) (forwardFill key' t) := by
  intro j hj
  have hgroup := map_groupRows_agree hkey h j hj
  simp only at hgroup
  rw [forwardFill, forwardFill, hgroup]

end Reading

end Series

/-! ## Frames with the same rows -/

theorem Frame.bars_agree {f g : Frame F} {i : ℕ} (h : f.take (i + 1) = g.take (i + 1)) :
    AgreeTo i f.bars g.bars := by
  apply agreeTo_rows
  rw [← List.map_take, h, List.map_take]

theorem Frame.stamps_agree {G : Type} {f g : Frame G} {i : ℕ}
    (h : f.take (i + 1) = g.take (i + 1)) :
    AgreeTo i f.stamps g.stamps := by
  apply agreeTo_rows
  rw [← List.map_take, h, List.map_take]

end Sentinel
