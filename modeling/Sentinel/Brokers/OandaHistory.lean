import Sentinel.Brokers.ClosedTrades
import Sentinel.Support.Dict

/-!
# The trade history of the OANDA adapter

The venue numbers trades as they are opened and answers a query with closed
trades.  The cursor is the greatest number handed over.
-/

namespace Sentinel

namespace Oanda

/-- The parameters of the `GET` of `/trades`. -/
structure TradesQuery where
  state : String := "CLOSED"
  count : ℕ := 500
  /-- `beforeID` is sent, with no value -/
  emptyBeforeId : Bool
  deriving DecidableEq

/-- How a query fails: with a `BrokerError`, or with another exception. -/
inductive QueryError where
  | brokerError
  | raised (message : String)
  deriving DecidableEq

structure ClosedRow where
  /-- `int(t["id"])`, when that is a number -/
  id : Option ℕ
  instrument : String := ""
  initialUnits : Dec := 0
  price : Dec := 0
  averageClosePrice : Option Dec := none
  realizedPL : Dec := 0
  financing : Dec := 0
  /-- `clientExtensions.tag` -/
  tag : String := ""
  openTime : Option ℤ := none
  closeTime : Option ℤ := none
  stopLossState : String := ""
  takeProfitState : String := ""
  trailingStopLossState : String := ""
  deriving DecidableEq

/-- The venue and the adapter at a poll.  The venue numbers trades from one
and lists none twice. -/
structure History where
  trades : TradesQuery → Except QueryError (List ClosedRow)
  instruments : Dict String Instrument := .empty
  wallNs : ℤ := 0
  /-- the numbers of the trades the account has closed -/
  closed : List ℕ
  closed_pos : ∀ id ∈ closed, 0 < id
  listedOnce : ∀ query rows, trades query = .ok rows → (rows.filterMap ClosedRow.id).Nodup

def exitReason (t : ClosedRow) : String :=
  if t.stopLossState = "FILLED" then "stop_loss"
  else if t.takeProfitState = "FILLED" then "take_profit"
  else if t.trailingStopLossState = "FILLED" then "trail_stop"
  else "closed"

variable (v : History)

def closedTrade (id : ℕ) (t : ClosedRow) : ClosedTrade :=
  let inst := v.instruments.get? t.instrument
  let contractSize := (inst.map (·.contractSize)).getD 100000
  let pip := (inst.map (·.pip)).getD (1 / 10000)
  let side : Side := if 0 < t.initialUnits then .buy else .sell
  let exitPrice := t.averageClosePrice.getD t.price
  { tradeId := toString id
    strategy := t.tag
    instrument := t.instrument
    side := side
    lots := |t.initialUnits| / contractSize
    entryPrice := t.price
    exitPrice := exitPrice
    openedNs := t.openTime.getD v.wallNs
    closedNs := t.closeTime.getD v.wallNs
    pnl := t.realizedPL
    pnlPips := if pip = 0 then 0 else (exitPrice - t.price) * side.sign / pip
    financing := t.financing
    exitReason := exitReason t }

def absorbRow (cursor : ℕ) (acc : List ClosedTrade × ℕ) (t : ClosedRow) : List ClosedTrade × ℕ :=
  match t.id with
  | none => acc
  | some id =>
      if id ≤ cursor then acc else (acc.1 ++ [closedTrade v id t], max acc.2 id)

variable (sinceId : String)

/-- `int(since_id) if str(since_id).isdigit() else 0`. -/
def readCursor : ℕ := (readNat sinceId.toList).getD 0

/-- The query `fetch_closed_trades` sends. -/
def closedQuery : TradesQuery where emptyBeforeId := decide (sinceId ≠ "")

def fetchClosedTrades : Fetched :=
  match v.trades (closedQuery sinceId) with
  | .error .brokerError => .ok ([], sinceId)
  | .error (.raised message) => .error message
  | .ok rows =>
      let cursor := readCursor sinceId
      let (out, highest) := rows.foldl (absorbRow v cursor) ([], cursor)
      .ok (out.mergeSort fun t u => decide (t.closedNs ≤ u.closedNs), toString highest)

/-- The adapter as the agent polls it. -/
def historyBroker : HistoryBroker History where
  fetchClosedTrades := fetchClosedTrades

def answeredIds : Option (List ℕ) :=
  match v.trades (closedQuery sinceId) with
  | .error _ => none
  | .ok rows => some (rows.filterMap ClosedRow.id)

/-! ## What a poll takes -/

@[simp] theorem readCursor_toString (n : ℕ) : readCursor (toString n) = n := by
  rw [readCursor, toList_toString, readNat_toDigits, Option.getD_some]

theorem foldl_absorbRow (cursor : ℕ) (rows : List ClosedRow)
    (acc : List ClosedTrade × ℕ) :
    ((rows.foldl (absorbRow v cursor) acc).1.map ClosedTrade.tradeId =
        acc.1.map ClosedTrade.tradeId ++
          (Feed.fresh cursor (rows.filterMap ClosedRow.id)).map toString) ∧
      (rows.foldl (absorbRow v cursor) acc).2 =
        (Feed.fresh cursor (rows.filterMap ClosedRow.id)).foldl max acc.2 := by
  induction rows generalizing acc with
  | nil => simp [Feed.fresh]
  | cons t rows ih =>
      rw [List.foldl_cons]
      obtain ⟨hout, hhighest⟩ := ih (absorbRow v cursor acc t)
      rw [hout, hhighest]
      cases hid : t.id with
      | none => simp [absorbRow, hid]
      | some id =>
          by_cases hle : id ≤ cursor
          · simp [absorbRow, hid, hle, Feed.fresh, not_lt.2 hle]
          · simp [absorbRow, hid, hle, Feed.fresh, not_le.1 hle, closedTrade]

theorem historyBroker_reads :
    historyBroker.Reads (fun text => some (readCursor text)) ClosedTrade.tradeId toString
      answeredIds where
  supports := rfl
  answered := by
    intro v text cursor keys hcursor hkeys
    obtain rfl : readCursor text = cursor := Option.some.inj hcursor
    cases hrows : v.trades (closedQuery text) with
    | error e =>
        rw [answeredIds, hrows] at hkeys
        cases hkeys
    | ok rows =>
        rw [answeredIds, hrows] at hkeys
        obtain rfl : rows.filterMap ClosedRow.id = keys := Option.some.inj hkeys
        obtain ⟨hout, hhighest⟩ := foldl_absorbRow v (readCursor text) rows ([], readCursor text)
        refine ⟨_, _, by simp only [historyBroker, fetchClosedTrades, hrows]; rfl, ?_, ?_⟩
        · rw [readCursor_toString, hhighest]
          rfl
        · refine ((List.mergeSort_perm _ _).map _).trans ?_
          rw [hout]
          simp
  failed := by
    intro v text cursor _ hkeys
    cases hrows : v.trades (closedQuery text) with
    | ok rows =>
        rw [answeredIds, hrows] at hkeys
        cases hkeys
    | error e =>
        cases e with
        | brokerError => exact .inr (by simp only [historyBroker, fetchClosedTrades, hrows])
        | raised message =>
            exact .inl ⟨message, by simp only [historyBroker, fetchClosedTrades, hrows]⟩

end Oanda

end Sentinel
