import Sentinel.Execution.Reconcile

/-!
# The position book of the OANDA adapter

The venue answers two queries: the aggregated positions, one entry for an
instrument with a long and a short leg, and the open trades, each with its own
stop.  The adapter makes one position of every leg and gives it the tightest
stop among the trades of that side.
-/

namespace Sentinel

namespace Oanda

/-- A row of `/openTrades`. -/
structure OpenTrade where
  id : String
  instrument : String
  currentUnits : Dec
  stopLoss : Option Dec := none
  takeProfit : Option Dec := none
  openedNs : ℤ := 0
  deriving DecidableEq

/-- One side of a row of `/openPositions`. -/
structure Leg where
  units : Dec := 0
  averagePrice : Dec := 0
  deriving DecidableEq

/-- A row of `/openPositions`. -/
structure OpenPosition where
  instrument : String
  long : Leg := {}
  short : Leg := {}
  deriving DecidableEq

def OpenTrade.side (t : OpenTrade) : Side :=
  if 0 < t.currentUnits then .buy else .sell

def OpenTrade.Naked (t : OpenTrade) : Prop :=
  t.currentUnits ≠ 0 ∧ t.stopLoss = none

instance (t : OpenTrade) : Decidable t.Naked := inferInstanceAs (Decidable (_ ∧ _))

def OpenPosition.leg (p : OpenPosition) : Side → Leg
  | .buy => p.long
  | .sell => p.short

/-- How a `PUT` of protective orders ends: accepted, refused with a
`BrokerError`, or with another exception. -/
inductive PutOutcome where
  | accepted
  | brokerError
  | raised (message : String)
  deriving DecidableEq

structure Venue where
  account : AccountState
  lastTransactionId : String := ""
  /-- the exception of a query that fails -/
  readError : Option String := none
  openPositions : List OpenPosition
  openTrades : List OpenTrade
  instruments : Dict String Instrument
  quote : String → Except String Quote
  put : OpenTrade → Dec → PutOutcome
  wallNs : ℤ := 0

variable (v : Venue) (p : OpenPosition)

/-! ## `positions` -/

/-- What `_open_trades_by_instrument` keeps for an instrument and a side. -/
structure TradeInfo where
  stopLoss : Option Dec := none
  takeProfit : Option Dec := none
  openedNs : ℤ
  deriving DecidableEq

variable (side : Side)

def tightest (current candidate : Option Dec) : Option Dec :=
  match candidate, current with
  | none, _ => current
  | some price, none => some price
  | some price, some held =>
      match side with
      | .buy => if held < price then some price else some held
      | .sell => if price < held then some price else some held

def absorbTrade (out : Dict (String × Side) TradeInfo) (t : OpenTrade) :
    Dict (String × Side) TradeInfo :=
  if t.currentUnits = 0 then out
  else
    let entry := out.getD (t.instrument, t.side) { openedNs := t.openedNs }
    out.set (t.instrument, t.side)
      { entry with
        stopLoss := tightest t.side entry.stopLoss t.stopLoss
        takeProfit := t.takeProfit.or entry.takeProfit }

def openTradesByInstrument (trades : List OpenTrade) : Dict (String × Side) TradeInfo :=
  trades.foldl absorbTrade .empty

def legPosition : Position :=
  let info := (openTradesByInstrument v.openTrades).get? (p.instrument, side)
  let contractSize := ((v.instruments.get? p.instrument).map (·.contractSize)).getD 100000
  let stop := info.bind TradeInfo.stopLoss
  { instrument := p.instrument
    side := side
    lots := |(p.leg side).units| / contractSize
    entryPrice := (p.leg side).averagePrice
    openedNs := (info.map TradeInfo.openedNs).getD v.wallNs
    stopLoss := stop
    takeProfit := info.bind TradeInfo.takeProfit
    brokerStopConfirmed := stop.isSome }

def legPositions : List Position :=
  ([Side.buy, Side.sell].filter fun side => (p.leg side).units ≠ 0).map (legPosition v p)

def positions : List Position :=
  v.openPositions.flatMap (legPositions v)

/-! ## `modify_position` -/

/-- `stop` would loosen the stop the trade has. -/
def OpenTrade.widenedBy (t : OpenTrade) (stop : Dec) : Bool :=
  match t.stopLoss with
  | none => false
  | some current =>
      match t.side with
      | .buy => decide (stop < current)
      | .sell => decide (current < stop)

def putStops (put : OpenTrade → Dec → PutOutcome) (instrument : String) (stop : Dec) :
    List OpenTrade → Except String Bool × List OpenTrade
  | [] => (.ok true, [])
  | t :: ts =>
      if t.instrument ≠ instrument then
        let (answer, rest) := putStops put instrument stop ts
        (answer, t :: rest)
      else if t.widenedBy stop then (.error "refusing to widen the stop", t :: ts)
      else
        match put t stop with
        | .accepted =>
            let (answer, rest) := putStops put instrument stop ts
            (answer, { t with stopLoss := some stop } :: rest)
        | .brokerError =>
            let (answer, rest) := putStops put instrument stop ts
            (answer.map fun _ => false, t :: rest)
        | .raised message => (.error message, t :: ts)

variable (instrument : String)

/-- `modify_position(instrument, stop_loss=stop)`. -/
def modifyPosition (stop : Dec) : Except String Bool × Venue :=
  match v.instruments.get? instrument with
  | none => (.error instrument, v)
  | some inst =>
      match v.readError with
      | some error => (.error error, v)
      | none =>
          if v.openTrades.all fun t => t.instrument ≠ instrument then (.ok false, v)
          else
            let (answer, trades) := putStops v.put instrument (inst.roundPrice stop) v.openTrades
            (answer, { v with openTrades := trades })

def broker : ReconcileVenue Venue where
  book v :=
    match v.readError with
    | some error => .error error
    | none => .ok ⟨v.account, v.lastTransactionId, positions v⟩
  instrument v symbol :=
    match v.instruments.get? symbol with
    | none => .error symbol
    | some inst => .ok inst
  quote v symbol := v.quote symbol
  modifyPosition := modifyPosition

/-! ## What the queries agree on -/

/-- The two queries describe one book: an instrument has at most one row, and a
leg holds units exactly when a trade of that side is open. -/
structure Venue.Consistent (v : Venue) : Prop where
  oneRow : (v.openPositions.map OpenPosition.instrument).Nodup
  listed : ∀ t ∈ v.openTrades, t.currentUnits ≠ 0 →
    ∃ p ∈ v.openPositions, p.instrument = t.instrument
  leg_iff : ∀ p ∈ v.openPositions, ∀ side, (p.leg side).units ≠ 0 ↔
    ∃ t ∈ v.openTrades, t.currentUnits ≠ 0 ∧ t.instrument = p.instrument ∧ t.side = side

/-! ## The stop of a side -/

@[simp] theorem tightest_eq_none_iff (current candidate : Option Dec) :
    tightest side current candidate = none ↔ current = none ∧ candidate = none := by
  cases candidate <;> cases current <;> cases side <;> simp [tightest] <;>
    split <;> simp

theorem get?_absorbTrade_stop (out : Dict (String × Side) TradeInfo) (t : OpenTrade)
    (key : String × Side) :
    ((absorbTrade out t).get? key).bind TradeInfo.stopLoss = none ↔
      (out.get? key).bind TradeInfo.stopLoss = none ∧
        (t.currentUnits ≠ 0 → (t.instrument, t.side) = key → t.stopLoss = none) := by
  rw [absorbTrade]
  by_cases hzero : t.currentUnits = 0
  · simp [hzero]
  · rw [if_neg hzero, Dict.get?_set]
    by_cases hkey : key = (t.instrument, t.side)
    · subst hkey
      rw [if_pos rfl, Option.bind_some, tightest_eq_none_iff]
      cases hold : out.get? (t.instrument, t.side) <;> simp [Dict.getD, hold, hzero]
    · rw [if_neg hkey]
      simp [Ne.symm hkey]

theorem openTradesByInstrument_stop_eq_none_iff (trades : List OpenTrade)
    (instrument : String) (side : Side) :
    ((openTradesByInstrument trades).get? (instrument, side)).bind TradeInfo.stopLoss = none ↔
      ∀ t ∈ trades, t.currentUnits ≠ 0 → t.instrument = instrument → t.side = side →
        t.stopLoss = none := by
  have hgen : ∀ out : Dict (String × Side) TradeInfo,
      ((trades.foldl absorbTrade out).get? (instrument, side)).bind TradeInfo.stopLoss = none ↔
        (out.get? (instrument, side)).bind TradeInfo.stopLoss = none ∧
          ∀ t ∈ trades, t.currentUnits ≠ 0 → (t.instrument, t.side) = (instrument, side) →
            t.stopLoss = none := by
    induction trades with
    | nil => simp
    | cons t trades ih =>
        intro out
        rw [List.foldl_cons, ih, get?_absorbTrade_stop, List.forall_mem_cons, and_assoc]
  rw [openTradesByInstrument, hgen]
  simp

theorem legPosition_unprotected_iff :
    (legPosition v p side).unprotected = true ↔
      ∀ t ∈ v.openTrades, t.currentUnits ≠ 0 → t.instrument = p.instrument → t.side = side →
        t.stopLoss = none := by
  rw [← openTradesByInstrument_stop_eq_none_iff]
  simp only [Position.unprotected, legPosition]
  cases ((openTradesByInstrument v.openTrades).get? (p.instrument, side)).bind
    TradeInfo.stopLoss <;> simp

/-! ## The leg that is kept for an instrument -/

def OpenPosition.lastSide : Option Side :=
  if p.short.units ≠ 0 then some .sell
  else if p.long.units ≠ 0 then some .buy
  else none

theorem get?_legPositions :
    (byInstrument (legPositions v p)).get? instrument =
      if instrument = p.instrument then p.lastSide.map (legPosition v p) else none := by
  rw [byInstrument, legPositions, OpenPosition.lastSide]
  by_cases hshort : p.short.units = 0 <;> by_cases hlong : p.long.units = 0 <;>
    by_cases hi : instrument = p.instrument <;>
    simp [OpenPosition.leg, hshort, hlong, hi, Dict.get?_ofEntries_cons, legPosition]

theorem get?_byInstrument_append (l₁ l₂ : List Position) (instrument : String) :
    (byInstrument (l₁ ++ l₂)).get? instrument =
      ((byInstrument l₂).get? instrument).or ((byInstrument l₁).get? instrument) := by
  unfold byInstrument
  rw [List.map_append, Dict.get?_ofEntries_append]

theorem get?_flatMap_legPositions {rows : List OpenPosition}
    (hrows : (rows.map OpenPosition.instrument).Nodup) {p : OpenPosition} (hp : p ∈ rows) :
    (byInstrument (rows.flatMap (legPositions v))).get? p.instrument =
      p.lastSide.map (legPosition v p) := by
  have habsent : ∀ l : List OpenPosition, p.instrument ∉ l.map OpenPosition.instrument →
      (byInstrument (l.flatMap (legPositions v))).get? p.instrument = none := by
    intro l hl
    induction l with
    | nil => rfl
    | cons q l ih =>
        rw [List.map_cons, List.mem_cons, not_or] at hl
        rw [List.flatMap_cons, get?_byInstrument_append, ih hl.2, get?_legPositions, if_neg hl.1]
        rfl
  induction rows with
  | nil => simp at hp
  | cons q rows ih =>
      rw [List.map_cons, List.nodup_cons] at hrows
      rw [List.flatMap_cons, get?_byInstrument_append, get?_legPositions]
      rcases List.mem_cons.1 hp with rfl | hrest
      · rw [habsent rows hrows.1, if_pos rfl, Option.none_or]
      · have hne : p.instrument ≠ q.instrument := by
          intro heq
          exact hrows.1 (heq ▸ List.mem_map_of_mem hrest)
        rw [ih hrows.2 hrest, if_neg hne, Option.or_none]

/-! ## The loop of `modify_position` -/

theorem putStops_ok_true {put : OpenTrade → Dec → PutOutcome} {instrument : String} {stop : Dec}
    {trades after : List OpenTrade}
    (h : putStops put instrument stop trades = (.ok true, after)) :
    ∀ t ∈ after, t.instrument = instrument → t.stopLoss = some stop := by
  induction trades generalizing after with
  | nil =>
      have hafter : [] = after := (Prod.mk.inj h).2
      simp [← hafter]
  | cons t ts ih =>
      rw [putStops] at h
      split_ifs at h with hother hwiden
      · obtain ⟨hanswer, rfl⟩ := Prod.mk.inj h
        have htail := @ih (putStops put instrument stop ts).2 (by rw [← hanswer])
        rw [List.forall_mem_cons]
        exact ⟨fun heq => absurd heq hother, htail⟩
      · exact absurd (Prod.mk.inj h).1 (by simp)
      · cases hput : put t stop with
        | accepted =>
            simp only [hput] at h
            obtain ⟨hanswer, rfl⟩ := Prod.mk.inj h
            have htail := @ih (putStops put instrument stop ts).2 (by rw [← hanswer])
            rw [List.forall_mem_cons]
            exact ⟨fun _ => rfl, htail⟩
        | brokerError =>
            simp only [hput] at h
            have hanswer := (Prod.mk.inj h).1
            cases hrest : (putStops put instrument stop ts).1 <;>
              simp [hrest, Except.map] at hanswer
        | raised message =>
            simp only [hput] at h
            exact absurd (Prod.mk.inj h).1 (by simp)

theorem putStops_keeps {put : OpenTrade → Dec → PutOutcome} {instrument : String} {stop : Dec}
    (trades : List OpenTrade) {other : String}
    (h : ∀ t ∈ trades, t.instrument = other → t.stopLoss ≠ none) :
    ∀ t ∈ (putStops put instrument stop trades).2, t.instrument = other →
      t.stopLoss ≠ none := by
  induction trades with
  | nil => simp [putStops]
  | cons t ts ih =>
      rw [List.forall_mem_cons] at h
      have htail := ih h.2
      rw [putStops]
      split_ifs with hother hwiden
      · exact List.forall_mem_cons.2 ⟨h.1, htail⟩
      · exact List.forall_mem_cons.2 ⟨h.1, h.2⟩
      · cases put t stop with
        | accepted => exact List.forall_mem_cons.2 ⟨by simp, htail⟩
        | brokerError => exact List.forall_mem_cons.2 ⟨h.1, htail⟩
        | raised message => exact List.forall_mem_cons.2 ⟨h.1, h.2⟩

def Venue.Stopped : Prop :=
  ∀ t ∈ v.openTrades, t.instrument = instrument → t.stopLoss ≠ none

theorem stopped_of_modifyPosition {v v' : Venue} {instrument : String} {stop : Dec}
    (h : modifyPosition v instrument stop = (.ok true, v')) : v'.Stopped instrument := by
  rw [modifyPosition] at h
  cases hinst : v.instruments.get? instrument with
  | none =>
      simp only [hinst] at h
      exact absurd (Prod.mk.inj h).1 (by simp)
  | some inst =>
      cases hread : v.readError with
      | some error =>
          simp only [hinst, hread] at h
          exact absurd (Prod.mk.inj h).1 (by simp)
      | none =>
          simp only [hinst, hread] at h
          split_ifs at h with hnone
          · exact absurd (Prod.mk.inj h).1 (by simp)
          · obtain ⟨hanswer, rfl⟩ := Prod.mk.inj h
            intro t ht heq
            have hloop : putStops v.put instrument (inst.roundPrice stop) v.openTrades =
                (.ok true, (putStops v.put instrument (inst.roundPrice stop) v.openTrades).2) := by
              rw [← hanswer]
            have hstop := putStops_ok_true hloop t ht heq
            simp [hstop]

theorem Venue.Stopped.modifyPosition {v : Venue} {other : String} (h : v.Stopped other)
    (instrument : String) (stop : Dec) :
    (modifyPosition v instrument stop).2.Stopped other := by
  rw [Oanda.modifyPosition]
  split
  · exact h
  · split
    · exact h
    · split_ifs
      · exact h
      · exact putStops_keeps v.openTrades h

end Oanda

end Sentinel
