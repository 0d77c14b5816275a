import Sentinel.Core.Types
import Sentinel.Support.Dict

/-!
# The position book of the CCXT adapter

The exchange lists its positions and its open orders.  A row without contracts
is left out; a row without a stop of its own takes the trigger of the stop order
on its symbol.
-/

namespace Sentinel

namespace Ccxt

/-- A row of `fetch_positions`. -/
structure Row where
  symbol : String
  contracts : Dec := 0
  /-- `side == "long"` -/
  long : Bool
  entryPrice : Dec := 0
  timestamp : ℤ := 0
  stopLossPrice : Option Dec := none
  takeProfitPrice : Option Dec := none
  deriving DecidableEq

/-- The exchange as the adapter sees it. -/
structure Venue where
  /-- `has["fetchPositions"]` -/
  hasFetchPositions : Bool := true
  /-- `_open_stops`: the trigger of each stop order; raises when the open orders
  cannot be read -/
  openStops : Except String (Dict String Dec)
  rows : List Row

def Row.position (stops : Dict String Dec) (row : Row) : Position :=
  let stop := (row.stopLossPrice.filter fun price => price ≠ 0).or (stops.get? row.symbol)
  { instrument := row.symbol
    side := if row.long then .buy else .sell
    lots := |row.contracts|
    entryPrice := row.entryPrice
    openedNs := row.timestamp * 1000000
    stopLoss := stop
    takeProfit := row.takeProfitPrice.filter fun price => price ≠ 0
    brokerStopConfirmed := stop.isSome }

def positions (v : Venue) : Except String (List Position) :=
  if v.hasFetchPositions then
    v.openStops.map fun stops =>
      (v.rows.filter fun row => row.contracts ≠ 0).map (Row.position stops)
  else .ok []

theorem exists_row_of_mem {v : Venue} {book : List Position} (hbook : positions v = .ok book)
    {p : Position} (hp : p ∈ book) :
    ∃ stops, ∃ row ∈ v.rows, row.contracts ≠ 0 ∧ p = row.position stops := by
  unfold positions at hbook
  split_ifs at hbook
  · rcases hstops : v.openStops with error | stops
    · simp [hstops, Except.map] at hbook
    · rw [hstops] at hbook
      obtain rfl := Except.ok.inj hbook
      obtain ⟨row, hrow, rfl⟩ := List.mem_map.mp hp
      have hrow := List.mem_filter.mp hrow
      exact ⟨stops, row, hrow.1, by simpa using hrow.2, rfl⟩
  · obtain rfl := Except.ok.inj hbook
    exact absurd hp List.not_mem_nil

theorem lots_pos {v : Venue} {book : List Position} (hbook : positions v = .ok book)
    {p : Position} (hp : p ∈ book) : 0 < p.lots := by
  obtain ⟨stops, row, -, hcontracts, rfl⟩ := exists_row_of_mem hbook hp
  exact abs_pos.mpr hcontracts

end Ccxt

end Sentinel
