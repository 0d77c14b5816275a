import Sentinel.Core.Money
import Sentinel.Support.Dict
import Sentinel.Support.Runs

/-!
# The bar feed

`MarketFeed` asks a venue for the bars that may have completed since the newest
one it stored, and `BarStore` keeps them under instrument, timeframe and start.
Only complete bars that have ended are stored, and only when the answer is a
strictly increasing series.
-/

namespace Sentinel

/-! ## Bars -/

/-- `Bar`, with the checks of its constructor. -/
structure Bar where
  instrument : String
  timeframe : String
  openPrice : Dec
  high : Dec
  low : Dec
  close : Dec
  volume : Dec
  startNs : ℤ
  endNs : ℤ
  complete : Bool := true
  source : String := "unknown"
  low_le_high : low ≤ high
  open_within : low ≤ openPrice ∧ openPrice ≤ high
  close_within : low ≤ close ∧ close ≤ high
  start_lt_end : startNs < endNs

/-- The primary key of `bars`. -/
structure BarKey where
  instrument : String
  timeframe : String
  startNs : ℤ
  deriving DecidableEq

def Bar.key (b : Bar) : BarKey := ⟨b.instrument, b.timeframe, b.startNs⟩

/-- A row of `bars`. -/
structure BarRow where
  endNs : ℤ
  openPrice : Dec
  high : Dec
  low : Dec
  close : Dec
  volume : Dec
  complete : Bool
  source : String
  receivedNs : ℤ

def Bar.row (b : Bar) (receivedNs : ℤ) : BarRow :=
  { b with receivedNs }

/-! ## The store -/

structure BarStore where
  rows : Dict BarKey BarRow := Dict.empty

namespace BarStore

/-- One row of `upsert`: a complete bar is not overwritten by an incomplete one,
and the source stays the first. -/
def put (receivedNs : ℤ) (s : BarStore) (b : Bar) : BarStore where
  rows :=
    match s.rows.get? b.key with
    | none => s.rows.set b.key (b.row receivedNs)
    | some old =>
        if old.complete && !b.complete then s.rows
        else s.rows.set b.key { b.row receivedNs with source := old.source }

def upsert (s : BarStore) (receivedNs : ℤ) (bars : List Bar) : BarStore :=
  bars.foldl (put receivedNs) s

def series (s : BarStore) (instrument timeframe : String) : List (ℤ × BarRow) :=
  s.rows.items.filterMap fun kv =>
    if kv.1.instrument = instrument ∧ kv.1.timeframe = timeframe ∧ kv.2.complete = true then
      some (kv.1.startNs, kv.2)
    else none

def latestStartNs (s : BarStore) (instrument timeframe : String) : Option ℤ :=
  ((s.series instrument timeframe).map Prod.fst).max?

/-- `frame`: the newest rows of a series, oldest first. -/
def frame (s : BarStore) (instrument timeframe : String) (limit : ℕ) : List (ℤ × BarRow) :=
  (((s.series instrument timeframe).mergeSort fun a b => decide (b.1 ≤ a.1)).take limit).reverse

end BarStore

/-! ## `validate_frame` -/

def ValidFrame (bars : List Bar) : Prop :=
  (bars.map Bar.startNs).Pairwise (· < ·) ∧
    ∀ b ∈ bars, 0 < b.low ∧ 0 ≤ b.volume

instance (bars : List Bar) : Decidable (ValidFrame bars) := by
  delta ValidFrame
  infer_instance

/-! ## `MarketFeed` -/

/-- `TIMEFRAME_SECONDS`, an hour for any other. -/
def barSeconds (timeframe : String) : ℤ :=
  match timeframe with
  | "M1" => 60
  | "M5" => 300
  | "M15" => 900
  | "M30" => 1800
  | "H1" => 3600
  | "H4" => 14400
  | "D1" => 86400
  | "W1" => 604800
  | _ => 3600

def intervalNs (timeframe : String) : ℤ := barSeconds timeframe * 1000000000

def minFetchGapNs : ℤ := 30 * 1000000000

structure MarketFeed where
  store : BarStore := {}
  history : ℕ := 1500
  lastFetchNs : Dict (String × String) ℤ := Dict.empty

namespace MarketFeed

def asks (s : MarketFeed) (instrument timeframe : String) (nowNs : ℤ) : Option ℕ :=
  let interval := intervalNs timeframe
  let lastFetch := s.lastFetchNs.getD (instrument, timeframe) 0
  match s.store.latestStartNs instrument timeframe with
  | none => some s.history
  | some last =>
      if nowNs < last + 2 * interval ∧ lastFetch ≠ 0 then none
      else if nowNs - lastFetch < minFetchGapNs then none
      else
        let elapsed := max 0 (nowNs - last) / interval
        some (min s.history (max 3 (elapsed + 2)).toNat)

/-- Only what has closed. -/
def fresh (bars : List Bar) (nowNs : ℤ) : List Bar :=
  bars.filter fun b => b.complete && decide (b.endNs ≤ nowNs)

/-- `_ingest`, with the venue's answer (none when it raises); the new bars, or
the error that `refresh` records. -/
def ingest (s : MarketFeed) (instrument timeframe : String) (nowNs : ℤ)
    (answer : Option (List Bar)) : MarketFeed × Except String ℕ :=
  match s.asks instrument timeframe nowNs with
  | none => (s, .ok 0)
  | some _ =>
      let last := s.store.latestStartNs instrument timeframe
      let asked := { s with lastFetchNs := s.lastFetchNs.set (instrument, timeframe) nowNs }
      match answer with
      | none => (asked, .error "fetch_bars")
      | some bars =>
          if fresh bars nowNs = [] then (asked, .ok 0)
          else if ValidFrame (fresh bars nowNs) then
            ({ asked with store := asked.store.upsert nowNs (fresh bars nowNs) },
              .ok ((fresh bars nowNs).countP fun b => last.all fun l => decide (l < b.startNs)))
          else (asked, .error "validate_frame")

def restart (s : MarketFeed) : MarketFeed := { s with lastFetchNs := Dict.empty }

end MarketFeed

end Sentinel
