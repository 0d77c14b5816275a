import Sentinel.Brokers.Ccxt
import Sentinel.Brokers.MetaTrader
import Sentinel.Brokers.Oanda
import Sentinel.Brokers.PaperConservation

/-!
# What a close closes

`close_position` on every adapter: the lots a call takes off the legs of the
book, against the lots that were requested.  The adapters read the optional
amount differently; a venue outside the repository is a parameter.
-/

namespace Sentinel

structure LegClosed where
  instrument : String
  side : Side
  held : Dec
  lots : Dec

structure WithinRequest (instrument : String) (leg : Option Side) (requested : Option Dec)
    (closed : List LegClosed) : Prop where
  requested : ∀ l ∈ requested, (closed.map LegClosed.lots).sum ≤ max 0 l
  position : ∀ c ∈ closed, c.lots ≤ c.held
  instrument : ∀ c ∈ closed, c.instrument = instrument
  leg : ∀ c ∈ closed, leg = some c.side

theorem withinRequest_nil (instrument : String) (leg : Option Side) (requested : Option Dec) :
    WithinRequest instrument leg requested [] where
  requested l _ := le_max_left 0 l
  position _ hc := absurd hc List.not_mem_nil
  instrument _ hc := absurd hc List.not_mem_nil
  leg _ hc := absurd hc List.not_mem_nil

variable {instrument : String} {side : Side}

theorem WithinRequest.sublist {leg : Option Side} {requested : Option Dec}
    {closed part : List LegClosed} (h : WithinRequest instrument leg requested closed)
    (hpart : part.Sublist closed) (hlots : ∀ c ∈ closed, 0 ≤ c.lots) :
    WithinRequest instrument leg requested part where
  requested l hl := by
    refine le_trans ((hpart.map LegClosed.lots).sum_le_sum fun x hx => ?_) (h.requested l hl)
    obtain ⟨c, hc, rfl⟩ := List.mem_map.mp hx
    exact hlots c hc
  position c hc := h.position c (hpart.subset hc)
  instrument c hc := h.instrument c (hpart.subset hc)
  leg c hc := h.leg c (hpart.subset hc)

def legClosed? (instrument : String) (side : Side) (held lots : Dec) : Option LegClosed :=
  if 0 < lots then some { instrument, side, held, lots } else none

theorem legClosed?_eq_some {held lots : Dec} {c : LegClosed}
    (h : legClosed? instrument side held lots = some c) :
    0 < lots ∧ c = { instrument, side, held, lots } := by
  rw [legClosed?] at h
  split_ifs at h with hpos
  exact ⟨hpos, (Option.some.inj h).symm⟩

/-- The amount of `if lots`: a request of zero lots is read as no request. -/
def truthyAmount (lots : Option Dec) (held : Dec) : Dec :=
  ((lots.filter fun l => l ≠ 0).map (min · held)).getD held

@[simp] theorem truthyAmount_zero (held : Dec) : truthyAmount (some 0) held = held := by
  rw [truthyAmount, Option.filter_some_neg (by simp)]
  rfl

theorem truthyAmount_some {l : Dec} (h : l ≠ 0) (held : Dec) :
    truthyAmount (some l) held = min l held := by
  rw [truthyAmount, Option.filter_some_pos (by simpa using h)]
  rfl

theorem truthyAmount_le (lots : Option Dec) (held : Dec) : truthyAmount lots held ≤ held := by
  rcases lots with _ | l
  · exact le_rfl
  · by_cases hl : l = 0
    · rw [hl, truthyAmount_zero]
    · rw [truthyAmount_some hl]
      exact min_le_right l held

theorem withinRequest_single {requested : Option Dec}
    {held lots : Dec} (hheld : 0 < lots → lots ≤ held)
    (hrequested : ∀ l ∈ requested, lots ≤ max 0 l) :
    WithinRequest instrument (some side) requested
      (legClosed? instrument side held lots).toList := by
  rw [legClosed?]
  split_ifs with hpos
  · refine ⟨fun l hl => ?_, fun c hc => ?_, fun c hc => ?_, fun c hc => ?_⟩
    · simpa using hrequested l hl
    all_goals
      obtain rfl : c = _ := List.mem_singleton.mp hc
    · exact hheld hpos
    · rfl
    · rfl
  · exact withinRequest_nil instrument (some side) requested

theorem filterMap_sides {β : Type*} {f : Side → Option β} {side : Side}
    (h : f side.opposite = none) :
    [Side.buy, Side.sell].filterMap f = (f side).toList := by
  rcases side with _ | _
  · have hsell : f .sell = none := h
    rcases hbuy : f .buy with _ | c
    · simp [hsell, hbuy]
    · simp [hsell, hbuy]
  · have hbuy : f .buy = none := h
    rcases hsell : f .sell with _ | c
    · simp [hsell, hbuy]
    · simp [hsell, hbuy]

theorem withinRequest_legs_iff {requested : Option Dec}
    {held lots : Side → Dec} (hheld : ∀ s, lots s ≤ held s)
    (hrequested : ∀ l ∈ requested, lots side ≤ max 0 l) :
    WithinRequest instrument (some side) requested
        ([Side.buy, Side.sell].filterMap fun s => legClosed? instrument s (held s) (lots s)) ↔
      lots side.opposite ≤ 0 := by
  constructor
  · intro h
    by_contra hpos
    have hclosed : legClosed? instrument side.opposite (held side.opposite)
        (lots side.opposite) =
          some { instrument, side := side.opposite, held := held side.opposite
                 lots := lots side.opposite } := if_pos (not_le.mp hpos)
    have hleg := h.leg _ (List.mem_filterMap.mpr
      ⟨side.opposite, by rcases side with _ | _ <;> simp [Side.opposite], hclosed⟩)
    rcases side with _ | _ <;> simp [Side.opposite] at hleg
  · intro hother
    have hnone : legClosed? instrument side.opposite (held side.opposite)
        (lots side.opposite) = none := if_neg (not_lt.mpr hother)
    rw [filterMap_sides (f := fun s => legClosed? instrument s (held s) (lots s)) hnone]
    exact withinRequest_single (fun _ => hheld side) hrequested

/-! ## The paper venue -/

namespace PaperBroker

def lotsOn (b : PaperBroker) (symbol : String) : Dec :=
  ((b.positions.get? symbol).map PaperPosition.lots).getD 0

def closedBetween (b b' : PaperBroker) : List LegClosed :=
  b.positions.items.filterMap fun item =>
    legClosed? item.1 item.2.side item.2.lots (item.2.lots - b'.lotsOn item.1)

structure Takes (instrument : String) (requested : Option Dec) (b b' : PaperBroker) : Prop where
  others : ∀ other, other ≠ instrument → b'.positions.get? other = b.positions.get? other
  taken : ∀ pos, b.positions.get? instrument = some pos →
    b'.lotsOn instrument = pos.lots ∨
      ∃ inst, 0 < closeLots inst pos requested ∧
        b'.lotsOn instrument = pos.lots - closeLots inst pos requested

theorem takes_refl (instrument : String) (requested : Option Dec) (b : PaperBroker) :
    Takes instrument requested b b where
  others _ _ := rfl
  taken pos hpos := .inl (by simp [lotsOn, hpos])

theorem closeLots_le_requested (inst : Instrument) (pos : PaperPosition) (l : Dec) :
    closeLots inst pos (some l) ≤ max 0 l := by
  have hround : closeLots inst pos (some l) = inst.roundLotsDown (min l pos.lots) := rfl
  rw [hround]
  rcases le_or_gt (min l pos.lots) 0 with hneg | hpos
  · rw [inst.roundLotsDown_of_nonpos hneg]
    exact le_max_left 0 l
  · exact (inst.roundLotsDown_le hpos.le).trans ((min_le_left l pos.lots).trans (le_max_right 0 l))

variable {instrument : String} {requested : Option Dec}

theorem closedBetween_eq {b b' : PaperBroker}
    (h : Takes instrument requested b b') :
    closedBetween b b' = ((b.positions.get? instrument).bind fun pos =>
      legClosed? instrument pos.side pos.lots (pos.lots - b'.lotsOn instrument)).toList := by
  refine Dict.filterMap_items_single fun other pos hne hpos => ?_
  have hsame : b'.lotsOn other = pos.lots := by simp [lotsOn, h.others other hne, hpos]
  simp [legClosed?, hsame]

theorem Takes.within {b b' : PaperBroker}
    (h : Takes instrument requested b b') :
    WithinRequest instrument ((b.positions.get? instrument).map PaperPosition.side) requested
      (closedBetween b b') := by
  rw [closedBetween_eq h]
  rcases hpos : b.positions.get? instrument with _ | pos
  · exact withinRequest_nil _ _ _
  · have htaken := h.taken pos hpos
    refine withinRequest_single (fun hlots => ?_) fun l hl => ?_
    · rcases htaken with hkept | ⟨inst, hpositive, hless⟩
      · rw [hkept, sub_self] at hlots
        exact absurd hlots (lt_irrefl 0)
      · rw [hless, sub_sub_cancel]
        exact closeLots_le inst pos hpositive
    · obtain rfl : requested = some l := hl
      rcases htaken with hkept | ⟨inst, -, hless⟩
      · rw [hkept, sub_self]
        exact le_max_left 0 l
      · rw [hless, sub_sub_cancel]
        exact closeLots_le_requested inst pos l

theorem Takes.of_positions {b b' b'' : PaperBroker} (h : Takes instrument requested b b')
    (heq : b''.positions = b'.positions) : Takes instrument requested b b'' := by
  have hlots : b''.lotsOn instrument = b'.lotsOn instrument := by rw [lotsOn, lotsOn, heq]
  exact ⟨fun other hne => heq ▸ h.others other hne, fun pos hpos => hlots ▸ h.taken pos hpos⟩

theorem takes_putBack {b paid : PaperBroker}
    {pos left : PaperPosition} (inst : Instrument) (hpaid : paid.positions = b.positions)
    (hpos : b.positions.get? instrument = some pos) (hclose : 0 < closeLots inst pos requested)
    (hleft : left.lots = pos.lots - closeLots inst pos requested) :
    Takes instrument requested b (paid.putBack instrument left) := by
  rw [putBack]
  split_ifs with hzero
  · refine ⟨fun other hne => ?_, fun pos' hpos' => .inr ⟨inst, ?_⟩⟩
    · simp [Dict.get?_erase_of_ne _ hne, hpaid]
    · obtain rfl : pos = pos' := Option.some.inj (hpos.symm.trans hpos')
      refine ⟨hclose, ?_⟩
      have hle := closeLots_le inst pos hclose
      have hall : pos.lots - closeLots inst pos requested = 0 :=
        le_antisymm (hleft ▸ hzero) (sub_nonneg.mpr hle)
      simp [lotsOn, hall]
  · refine ⟨fun other hne => ?_, fun pos' hpos' => .inr ⟨inst, ?_⟩⟩
    · simp [Dict.get?_set_of_ne _ hne, hpaid]
    · obtain rfl : pos = pos' := Option.some.inj (hpos.symm.trans hpos')
      exact ⟨hclose, by simp [lotsOn, hleft]⟩

variable (cfg : PaperSetup)

theorem takes_closePosition (b : PaperBroker) (instrument : String) (lots : Option Dec)
    (reason : String) (slippagePips : Dec) :
    Takes instrument lots b
      (finalState (closePosition cfg instrument lots reason slippagePips) b) := by
  rw [closePosition]
  rw [finalState_bind_get]
  rcases hpos : b.positions.get? instrument with _ | pos
  · exact takes_refl instrument lots b
  · rcases b.quotes.get? instrument with _ | q
    · exact takes_refl instrument lots b
    · rcases cfg.instruments.get? instrument with _ | inst
      · exact takes_refl instrument lots b
      · simp only
        split_ifs with hnone
        · exact takes_refl instrument lots b
        · rw [finalState_bind, run_realise]
          rcases b.conversionRate inst.quote cfg.currency with _ | rate
          · exact takes_refl instrument lots b
          · simp only [finalState_bind_modify, finalState_bind_get, finalState_pure]
            refine Takes.of_positions (takes_putBack (b := b) inst ?_ hpos (not_le.mp hnone) ?_)
              (positions_protectBalance cfg _)
            · rfl
            · rfl

end PaperBroker

/-! ## OANDA -/

namespace Oanda

inductive CloseUnits where
  | all
  | units (n : ℤ)
  deriving DecidableEq

/-- The body of `PUT .../close`, under the keys `longUnits` and `shortUnits`. -/
structure CloseBody where
  longUnits : Option CloseUnits := none
  shortUnits : Option CloseUnits := none
  deriving DecidableEq

def CloseBody.units (body : CloseBody) : Side → Option CloseUnits
  | .buy => body.longUnits
  | .sell => body.shortUnits

/-- `int(units)`: toward zero. -/
def wholeUnits (units : Dec) : ℤ := if 0 ≤ units then ⌊units⌋ else ⌈units⌉

variable (closing : Closing) (v : Venue) (instrument : String)

def firstPosition : Option (Instrument × Position) :=
  match v.readError, v.instruments.get? instrument with
  | none, some inst =>
      ((positions v).find? fun p => p.instrument = instrument).map fun p => (inst, p)
  | _, _ => none

variable (inst : Instrument) (p : Position) (lots : Option Dec)

/-- The body `close_position` sends for a position. -/
def closeBody : CloseBody :=
  let amount : CloseUnits :=
    match lots with
    | none => .all
    | some l => .units (wholeUnits (inst.units (min l p.lots)))
  match p.side with
  | .buy => { longUnits := some amount }
  | .sell => { shortUnits := some amount }

/-- The units the venue closes of a leg: those it is asked for at most, and no
more than the leg holds.  What it does with a leg the body does not name is its
own. -/
structure Closing where
  closes : Option CloseUnits → Dec → Dec
  le_held : ∀ asked held, 0 ≤ held → closes asked held ≤ held
  le_units : ∀ n held, closes (some (.units n)) held ≤ max 0 (n : Dec)

def rowOf : Option OpenPosition :=
  v.openPositions.find? fun row => row.instrument = instrument

/-- The legs a close takes units off: `close_position` raises or refuses before
it sends anything, or the venue carries out the body. -/
def closedLegs : List LegClosed :=
  match firstPosition v instrument, rowOf v instrument with
  | some (inst, p), some row =>
      [Side.buy, Side.sell].filterMap fun side =>
        let held := |(row.leg side).units|
        legClosed? instrument side (held / inst.contractSize)
          (closing.closes ((closeBody inst p lots).units side) held / inst.contractSize)
  | _, _ => []

def LeavesOther : Prop :=
  ∀ first ∈ firstPosition v instrument, ∀ row ∈ rowOf v instrument,
    closing.closes none |(row.leg first.2.side.opposite).units| ≤ 0

def Closing.leaving : Closing where
  closes asked held :=
    match asked with
    | none => 0
    | some .all => held
    | some (.units n) => min held (max 0 n)
  le_held asked held hpos := by
    rcases asked with _ | _ | n
    · exact hpos
    · exact le_rfl
    · exact min_le_left _ _
  le_units _ _ := min_le_right _ _

theorem leavesOther_leaving : LeavesOther Closing.leaving v instrument :=
  fun _ _ _ _ => le_rfl

theorem wholeUnits_le {units : Dec} {bound : Dec} (hbound : 0 ≤ bound) (h : units ≤ bound) :
    max 0 (wholeUnits units : Dec) ≤ bound := by
  refine max_le hbound ?_
  rw [wholeUnits]
  split_ifs with hpos
  · exact (Int.floor_le units).trans h
  · have hceil : ⌈units⌉ ≤ 0 := Int.ceil_le.mpr (by simpa using (not_le.mp hpos).le)
    exact le_trans (by exact_mod_cast hceil) hbound

theorem closeBody_units_opposite : (closeBody inst p lots).units p.side.opposite = none := by
  unfold closeBody
  rcases p.side with _ | _
  · rfl
  · rfl

theorem closes_le_requested (l held : Dec) :
    closing.closes ((closeBody inst p (some l)).units p.side) held / inst.contractSize ≤
      max 0 l := by
  have hsize := inst.contractSize_pos
  have hunits : (closeBody inst p (some l)).units p.side =
      some (.units (wholeUnits (inst.units (min l p.lots)))) := by
    rw [closeBody]
    rcases p.side with _ | _
    · rfl
    · rfl
  rw [hunits, div_le_iff₀ hsize]
  refine (closing.le_units _ held).trans (wholeUnits_le ?_ ?_)
  · exact mul_nonneg (le_max_left 0 l) hsize.le
  · exact mul_le_mul_of_nonneg_right ((min_le_left l p.lots).trans (le_max_right 0 l)) hsize.le

theorem closedLegs_within_iff :
    WithinRequest instrument ((firstPosition v instrument).map fun first => first.2.side) lots
        (closedLegs closing v instrument lots) ↔
      LeavesOther closing v instrument := by
  rw [closedLegs, LeavesOther]
  rcases firstPosition v instrument with _ | ⟨inst, p⟩
  · exact iff_of_true (withinRequest_nil _ _ _) fun first hin => absurd hin (by simp)
  · rcases rowOf v instrument with _ | row
    · exact iff_of_true (withinRequest_nil _ _ _) fun _ _ row hin => absurd hin (by simp)
    · have hsize := inst.contractSize_pos
      have hother := closeBody_units_opposite inst p lots
      have hown : ∀ l ∈ lots, closing.closes ((closeBody inst p lots).units p.side)
          |(row.leg p.side).units| / inst.contractSize ≤ max 0 l := by
        rintro l rfl
        exact closes_le_requested closing inst p l _
      have hheld : ∀ side, closing.closes ((closeBody inst p lots).units side)
          |(row.leg side).units| / inst.contractSize ≤
            |(row.leg side).units| / inst.contractSize := fun side =>
        div_le_div_of_nonneg_right (closing.le_held _ _ (abs_nonneg _)) hsize.le
      rw [show (∀ first ∈ some (inst, p), ∀ row' ∈ some row,
          closing.closes none |(row'.leg first.2.side.opposite).units| ≤ 0) ↔
            closing.closes none |(row.leg p.side.opposite).units| ≤ 0 by simp]
      refine (withinRequest_legs_iff hheld hown).trans ?_
      rw [hother, div_le_iff₀ hsize, zero_mul]

end Oanda

/-! ## MetaTrader -/

namespace MetaTrader

variable {σ : Type}

def Terminal.logged (terminal : Terminal σ) : Terminal (σ × List Request) where
  positionsGet v := terminal.positionsGet v.1
  symbolInfoTick v := terminal.symbolInfoTick v.1
  orderSend v request :=
    let (code, after) := terminal.orderSend v.1 request
    (code, after, if code = some retcodeDone then v.2 ++ [request] else v.2)

def Adapter.logged (a : Adapter σ) : Adapter (σ × List Request) where
  terminal := a.terminal.logged
  instruments := a.instruments
  venueSymbol := a.venueSymbol
  canon := a.canon

structure Book where
  tickets : List Ticket
  nodup : (tickets.map Ticket.ticket).Nodup
  volume_pos : ∀ t ∈ tickets, 0 < t.volume

namespace Book

variable (book : Book)

def on (symbol : String) : List Ticket := book.tickets.filter fun t => t.symbol = symbol

def closedBy : Request → Option LegClosed
  | .stops .. => none
  | .deal _ position volume _ _ =>
      (book.tickets.find? fun t => t.ticket = position).bind fun t =>
        legClosed? t.symbol t.side t.volume volume

theorem find?_ticket {t : Ticket} (h : t ∈ book.tickets) :
    (book.tickets.find? fun other => other.ticket = t.ticket) = some t := by
  rw [List.find?_eq_some_iff_append]
  obtain ⟨before, after, hsplit⟩ := List.append_of_mem h
  refine ⟨by simp, before, after, hsplit, fun other hother => ?_⟩
  have hnodup := book.nodup
  rw [hsplit, List.map_append, List.map_cons, List.nodup_append] at hnodup
  simpa using hnodup.2.2 other.ticket (List.mem_map_of_mem hother) t.ticket
    List.mem_cons_self

end Book

def closedTickets (lots : Option Dec) (tickets : List Ticket) : List LegClosed :=
  tickets.filterMap fun t => legClosed? t.symbol t.side t.volume (truthyAmount lots t.volume)

namespace Adapter

variable (a : Adapter σ) (book : Book)

def closedLegs (v : σ) (instrument : String) (lots : Option Dec) : List LegClosed :=
  (a.logged.closePosition (v, []) instrument lots).2.2.filterMap book.closedBy

variable (instrument : String) (lots : Option Dec)

def closeRequest (t : Ticket) (tick : Quote) : Request :=
  .deal (a.venueSymbol instrument) t.ticket (truthyAmount lots t.volume) t.side.opposite
    (tick.priceFor t.side.opposite)

theorem closedBy_closeRequest {t : Ticket}
    (ht : t ∈ book.tickets) (tick : Quote) :
    book.closedBy (a.closeRequest instrument lots t tick) =
      legClosed? t.symbol t.side t.volume (truthyAmount lots t.volume) := by
  rw [closeRequest, Book.closedBy, book.find?_ticket ht]
  rfl

theorem closeTickets_cons (t : Ticket)
    (ts : List Ticket) (v : σ) :
    (a.closeTickets instrument lots (t :: ts) v).2 =
      match a.terminal.symbolInfoTick v (a.venueSymbol instrument) with
      | none => v
      | some tick =>
          let sent := a.terminal.orderSend v (a.closeRequest instrument lots t tick)
          if sent.1 = some retcodeDone then (a.closeTickets instrument lots ts sent.2).2
          else sent.2 := by
  rw [closeTickets]
  rcases a.terminal.symbolInfoTick v (a.venueSymbol instrument) with _ | tick
  · rfl
  · exact apply_ite Prod.snd _ _ _

def Obliges : Prop :=
  (∀ v symbol, a.terminal.symbolInfoTick v symbol ≠ none) ∧
    ∀ v request, (a.terminal.orderSend v request).1 = some retcodeDone

theorem closeTickets_sent (tickets : List Ticket)
    (hbook : ∀ t ∈ tickets, t ∈ book.tickets) (v : σ × List Request) :
    ∃ sent, sent <+: tickets ∧ (a.Obliges → sent = tickets) ∧
      (a.logged.closeTickets instrument lots tickets v).2.2.filterMap book.closedBy =
        v.2.filterMap book.closedBy ++ closedTickets lots sent := by
  induction tickets generalizing v with
  | nil => exact ⟨[], List.nil_prefix, fun _ => rfl, by simp [closeTickets, closedTickets]⟩
  | cons t ts ih =>
    have hnothing : ∀ log : List Request, log.filterMap book.closedBy =
        log.filterMap book.closedBy ++ closedTickets lots [] := fun _ => (List.append_nil _).symm
    rw [closeTickets_cons]
    rcases htick : a.logged.terminal.symbolInfoTick v (a.logged.venueSymbol instrument) with
      _ | tick
    · exact ⟨[], List.nil_prefix, fun hall => absurd htick (hall.1 v.1 _), hnothing v.2⟩
    · have hsend : ∀ request, a.logged.terminal.orderSend v request =
          ((a.terminal.orderSend v.1 request).1, (a.terminal.orderSend v.1 request).2,
            if (a.terminal.orderSend v.1 request).1 = some retcodeDone then v.2 ++ [request]
            else v.2) := fun _ => rfl
      simp only [hsend]
      split_ifs with hdone
      · obtain ⟨sent, hsent, hall, hrun⟩ := ih (fun t' ht' => hbook t' (List.mem_cons_of_mem t ht'))
          ((a.terminal.orderSend v.1 (a.logged.closeRequest instrument lots t tick)).2,
            v.2 ++ [a.logged.closeRequest instrument lots t tick])
        refine ⟨t :: sent, List.cons_prefix_cons.mpr ⟨rfl, hsent⟩,
          fun hobliges => congrArg (t :: ·) (hall hobliges), ?_⟩
        have hclosed := a.logged.closedBy_closeRequest book instrument lots
          (hbook t List.mem_cons_self) tick
        rw [hrun, closedTickets, closedTickets, List.filterMap_append, List.append_assoc,
          List.filterMap_cons, List.filterMap_cons, List.filterMap_nil, hclosed]
        rcases legClosed? t.symbol t.side t.volume (truthyAmount lots t.volume) with _ | c
        · rfl
        · rfl
      · exact ⟨[], List.nil_prefix, fun hobliges => absurd (hobliges.2 v.1 _) hdone,
          hnothing v.2⟩

theorem closedLegs_eq (v : σ) (hbook : a.terminal.positionsGet v = some book.tickets)
    (instrument : String) (lots : Option Dec) :
    ∃ sent, sent <+: book.on (a.venueSymbol instrument) ∧
      (a.Obliges → sent = book.on (a.venueSymbol instrument)) ∧
        a.closedLegs book v instrument lots = closedTickets lots sent := by
  have htickets : a.logged.tickets (v, []) instrument =
      book.on (a.venueSymbol instrument) := by
    change ((a.terminal.positionsGet v).getD []).filter _ = _
    rw [hbook]
    rfl
  obtain ⟨sent, hsent, hall, hrun⟩ := a.closeTickets_sent book instrument lots
    (book.on (a.venueSymbol instrument)) (fun t ht => List.mem_of_mem_filter ht) (v, [])
  refine ⟨sent, hsent, hall, ?_⟩
  rw [closedLegs, closePosition, htickets]
  rcases hon : book.on (a.venueSymbol instrument) with _ | ⟨t, ts⟩
  · rw [hon, List.prefix_nil] at hsent
    rw [hsent]
    rfl
  · rw [hon] at hrun
    simpa using hrun

end Adapter

/-! ### Within the request -/

/-- A close may go wrong only so: an amount of zero lots is read as none, every
ticket of the symbol is closed by up to the same amount, and their sides are not
looked at. -/
def KeepsWithin (tickets : List Ticket) (lots : Option Dec) : Prop :=
  (∃ l ∈ lots, l < 0) ∨
    (∀ t ∈ tickets, tickets.head?.map Ticket.side = some t.side) ∧
      ∀ l ∈ lots, (tickets.map Ticket.volume).sum ≤ l ∨ tickets.length ≤ 1 ∧ l ≠ 0

theorem sum_min_le_iff {volumes : List Dec} (hpos : ∀ v ∈ volumes, 0 < v) {l : Dec} (hl : 0 < l) :
    (volumes.map (min l)).sum ≤ l ↔ volumes.sum ≤ l ∨ volumes.length ≤ 1 := by
  have hmin : ∀ vs : List Dec, (∀ v ∈ vs, 0 < v) → vs ≠ [] → 0 < (vs.map (min l)).sum := by
    intro vs hvs hne
    refine List.sum_pos _ (fun x hx => ?_) (by simpa using hne)
    obtain ⟨v, hv, rfl⟩ := List.mem_map.mp hx
    exact lt_min hl (hvs v hv)
  constructor
  · intro hsum
    by_cases hall : ∀ v ∈ volumes, v ≤ l
    · rw [List.map_congr_left fun v hv => min_eq_right (hall v hv), List.map_id'] at hsum
      exact .inl hsum
    · push Not at hall
      obtain ⟨v, hv, hbig⟩ := hall
      obtain ⟨before, after, rfl⟩ := List.append_of_mem hv
      -- the large ticket takes the whole amount, so there is no other
      have hrest : before ++ after = [] := by
        by_contra hne
        have hpositive := hmin (before ++ after) (fun w hw => hpos w (by
          simp only [List.mem_append, List.mem_cons] at hw ⊢
          exact hw.imp_right .inr)) hne
        simp only [List.map_append, List.map_cons, List.sum_append, List.sum_cons,
          min_eq_left hbig.le] at hsum hpositive
        linarith
      obtain ⟨rfl, rfl⟩ := List.append_eq_nil_iff.mp hrest
      exact .inr (by simp)
  · rintro (hsum | hlength)
    · refine le_trans (List.sum_le_sum fun v _ => min_le_right l v) ?_
      simpa using hsum
    · rcases volumes with _ | ⟨v, _ | ⟨w, vs⟩⟩
      · simpa using hl.le
      · simp
      · simp at hlength

theorem closedTickets_of_neg {l : Dec} (hl : l < 0) (tickets : List Ticket) :
    closedTickets (some l) tickets = [] := by
  refine List.filterMap_eq_nil_iff.mpr fun t _ => if_neg (not_lt.mpr ?_)
  rw [truthyAmount_some hl.ne]
  exact (min_le_left l t.volume).trans hl.le

theorem truthyAmount_pos {lots : Option Dec} (hlots : ∀ l ∈ lots, 0 ≤ l) {held : Dec}
    (hheld : 0 < held) : 0 < truthyAmount lots held := by
  rcases lots with _ | l
  · exact hheld
  · rcases eq_or_lt_of_le (hlots l rfl) with heq | hpos
    · rwa [← heq, truthyAmount_zero]
    · rw [truthyAmount_some hpos.ne']
      exact lt_min hpos hheld

theorem closedTickets_of_nonneg {lots : Option Dec} (hlots : ∀ l ∈ lots, 0 ≤ l)
    {tickets : List Ticket} (hpos : ∀ t ∈ tickets, 0 < t.volume) :
    closedTickets lots tickets = tickets.map fun t =>
      { instrument := t.symbol, side := t.side, held := t.volume
        lots := truthyAmount lots t.volume } := by
  rw [← List.filterMap_eq_map]
  exact List.filterMap_congr fun t ht => if_pos (truthyAmount_pos hlots (hpos t ht))

theorem sum_truthyAmount_le_iff {tickets : List Ticket} (hpos : ∀ t ∈ tickets, 0 < t.volume)
    {l : Dec} (hl : 0 ≤ l) :
    (tickets.map fun t => truthyAmount (some l) t.volume).sum ≤ max 0 l ↔
      (tickets.map Ticket.volume).sum ≤ l ∨ tickets.length ≤ 1 ∧ l ≠ 0 := by
  rw [max_eq_right hl]
  rcases eq_or_lt_of_le hl with heq | hlpos
  · subst heq
    simp
  · have hvolumes : ∀ v ∈ tickets.map Ticket.volume, 0 < v := by
      intro v hv
      obtain ⟨t, ht, rfl⟩ := List.mem_map.mp hv
      exact hpos t ht
    have hsum := sum_min_le_iff hvolumes hlpos
    rw [List.map_map, List.length_map] at hsum
    simpa [truthyAmount_some hlpos.ne', hlpos.ne', Function.comp_def] using hsum

theorem withinRequest_closedTickets_iff {symbol : String} {tickets : List Ticket}
    (hsymbol : ∀ t ∈ tickets, t.symbol = symbol) (hpos : ∀ t ∈ tickets, 0 < t.volume)
    (lots : Option Dec) :
    WithinRequest symbol (tickets.head?.map Ticket.side) lots (closedTickets lots tickets) ↔
      KeepsWithin tickets lots := by
  by_cases hneg : ∃ l ∈ lots, l < 0
  · obtain ⟨l, rfl, hl⟩ := hneg
    rw [closedTickets_of_neg hl]
    exact iff_of_true (withinRequest_nil _ _ _) (.inl ⟨l, rfl, hl⟩)
  · have hlots : ∀ l ∈ lots, 0 ≤ l := fun l hl => not_lt.mp fun hlt => hneg ⟨l, hl, hlt⟩
    rw [closedTickets_of_nonneg hlots hpos]
    constructor
    · intro h
      refine .inr ⟨fun t ht => h.leg _ (List.mem_map_of_mem ht), ?_⟩
      rintro l rfl
      have hsum := h.requested l rfl
      rw [List.map_map] at hsum
      exact (sum_truthyAmount_le_iff hpos (hlots l rfl)).mp hsum
    · rintro (hnegative | ⟨hside, hsum⟩)
      · exact absurd hnegative hneg
      · refine ⟨?_, fun c hc => ?_, fun c hc => ?_, fun c hc => ?_⟩
        · rintro l rfl
          rw [List.map_map]
          exact (sum_truthyAmount_le_iff hpos (hlots l rfl)).mpr (hsum l rfl)
        all_goals
          obtain ⟨t, ht, rfl⟩ := List.mem_map.mp hc
        · exact truthyAmount_le lots t.volume
        · exact hsymbol t ht
        · exact hside t ht

def ClosesWithin (book : Book) (venueSymbol : String → String) (instrument : String)
    (lots : Option Dec) : Prop :=
  ∀ (σ : Type) (a : Adapter σ) (v : σ), a.venueSymbol = venueSymbol →
    a.terminal.positionsGet v = some book.tickets →
      WithinRequest (venueSymbol instrument)
        ((book.on (venueSymbol instrument)).head?.map Ticket.side) lots
        (a.closedLegs book v instrument lots)

def takesAll (book : Book) (venueSymbol : String → String) : Adapter Unit where
  terminal :=
    { positionsGet := fun _ => some book.tickets
      symbolInfoTick := fun _ symbol => some { instrument := symbol, bid := 1, ask := 1 }
      orderSend := fun _ _ => (some retcodeDone, ()) }
  instruments := .empty
  venueSymbol := venueSymbol

theorem closesWithin_iff (book : Book) (venueSymbol : String → String) (instrument : String)
    (lots : Option Dec) :
    ClosesWithin book venueSymbol instrument lots ↔
      KeepsWithin (book.on (venueSymbol instrument)) lots := by
  have hsymbol : ∀ t ∈ book.on (venueSymbol instrument), t.symbol = venueSymbol instrument :=
    fun t ht => by simpa using List.of_mem_filter ht
  have hpos : ∀ t ∈ book.on (venueSymbol instrument), 0 < t.volume := fun t ht =>
    book.volume_pos t (List.mem_of_mem_filter ht)
  rw [← withinRequest_closedTickets_iff hsymbol hpos]
  constructor
  · intro h
    obtain ⟨sent, -, hall, hclosed⟩ := (takesAll book venueSymbol).closedLegs_eq book () rfl
      instrument lots
    have hwithin := h Unit (takesAll book venueSymbol) () rfl rfl
    rw [hclosed, hall ⟨by simp [takesAll], fun _ _ => rfl⟩] at hwithin
    exact hwithin
  · rintro h σ a v rfl hbook
    obtain ⟨sent, hsent, -, hclosed⟩ := a.closedLegs_eq book v hbook instrument lots
    rw [hclosed]
    refine h.sublist (hsent.sublist.filterMap _) fun c hc => ?_
    obtain ⟨t, -, ht⟩ := List.mem_filterMap.mp hc
    obtain ⟨hlots, rfl⟩ := legClosed?_eq_some ht
    exact hlots.le

end MetaTrader

/-! ## CCXT -/

namespace Ccxt

structure Exchange where
  fills : Dec → Dec → Dec
  le_amount : ∀ amount held, fills amount held ≤ max 0 amount
  le_held : ∀ amount held, 0 ≤ held → fills amount held ≤ held

variable (v : Venue) (instrument : String)

def first : Option Position :=
  match positions v with
  | .error _ => none
  | .ok book => book.find? fun p => p.instrument = instrument

theorem first_eq_some {v : Venue} {instrument : String} {p : Position}
    (h : first v instrument = some p) : 0 < p.lots ∧ p.instrument = instrument := by
  rw [first] at h
  rcases hbook : positions v with error | book
  · simp [hbook] at h
  · rw [hbook] at h
    exact ⟨lots_pos hbook (List.mem_of_find?_eq_some h), by simpa using List.find?_some h⟩

/-- `close_position`: a reduce-only order against the first position. -/
def closedLegs (exchange : Exchange) (v : Venue) (instrument : String) (lots : Option Dec) :
    List LegClosed :=
  match first v instrument with
  | none => []
  | some p =>
      (legClosed? p.instrument p.side p.lots
        (exchange.fills (truthyAmount lots p.lots) p.lots)).toList

def ClosesWithin (lots : Option Dec) : Prop :=
  ∀ exchange, WithinRequest instrument ((first v instrument).map Position.side) lots
    (closedLegs exchange v instrument lots)

def fillsAll : Exchange where
  fills amount held := min amount held
  le_amount amount held := (min_le_left amount held).trans (le_max_right 0 amount)
  le_held amount held _ := min_le_right amount held

theorem closesWithin_iff (lots : Option Dec) :
    ClosesWithin v instrument lots ↔ lots ≠ some 0 ∨ first v instrument = none := by
  unfold ClosesWithin closedLegs
  rcases hfirst : first v instrument with _ | p
  · exact iff_of_true (fun _ => withinRequest_nil _ _ _) (.inr rfl)
  · obtain ⟨hpos, hinstrument⟩ := first_eq_some hfirst
    constructor
    · rintro h
      left
      rintro rfl
      have hwithin := (h fillsAll).requested 0 rfl
      simp only [truthyAmount_zero, fillsAll, min_self, legClosed?, if_pos hpos] at hwithin
      exact absurd hwithin (by simpa using hpos)
    · rintro (hlots | hnone) exchange
      · simp only [hinstrument]
        refine withinRequest_single (fun _ => exchange.le_held _ _ hpos.le) ?_
        rintro l rfl
        have hl : l ≠ 0 := fun hzero => hlots (congrArg some hzero)
        rw [truthyAmount_some hl]
        refine (exchange.le_amount _ _).trans (max_le (le_max_left 0 l) ?_)
        exact (min_le_left l p.lots).trans (le_max_right 0 l)
      · simp at hnone

end Ccxt

/-! ## Every adapter -/

inductive CloseCall where
  | paper (cfg : PaperSetup) (b : PaperBroker) (reason : String) (slippagePips : Dec)
  | oanda (closing : Oanda.Closing) (v : Oanda.Venue)
  | metaTrader (venueSymbol : String → String) (book : MetaTrader.Book)
  | ccxt (v : Ccxt.Venue)

namespace CloseCall

/-- `close_position` takes no more than the requested lots off the book, none
for a request of zero lots, no more than the position, and nothing off another
instrument or leg. -/
def Within (instrument : String) (lots : Option Dec) : CloseCall → Prop
  | .paper cfg b reason slippagePips =>
      WithinRequest instrument ((b.positions.get? instrument).map PaperPosition.side) lots
        (b.closedBetween
          (finalState (PaperBroker.closePosition cfg instrument lots reason slippagePips) b))
  | .oanda closing v =>
      WithinRequest instrument ((Oanda.firstPosition v instrument).map fun first => first.2.side)
        lots (Oanda.closedLegs closing v instrument lots)
  | .metaTrader venueSymbol book =>
      MetaTrader.ClosesWithin book venueSymbol instrument lots
  | .ccxt v => Ccxt.ClosesWithin v instrument lots

/-- When it does. -/
def KeepsWithin (instrument : String) (lots : Option Dec) : CloseCall → Prop
  | .paper .. => True
  | .oanda closing v => Oanda.LeavesOther closing v instrument
  | .metaTrader venueSymbol book =>
      MetaTrader.KeepsWithin (book.on (venueSymbol instrument)) lots
  | .ccxt v => lots ≠ some 0 ∨ Ccxt.first v instrument = none

end CloseCall

/-- On the paper venue always; on OANDA when the venue leaves the other leg
alone; on MetaTrader and CCXT when the request is not one of zero lots, and on
MetaTrader only with one ticket or all of them within the request. -/
theorem closeWithin_iff (call : CloseCall) (instrument : String) (lots : Option Dec) :
    call.Within instrument lots ↔ call.KeepsWithin instrument lots := by
  rcases call with ⟨cfg, b, reason, slippagePips⟩ | ⟨closing, v⟩ | ⟨venueSymbol, book⟩ | v
  · exact iff_of_true
      (PaperBroker.takes_closePosition cfg b instrument lots reason slippagePips).within trivial
  · exact Oanda.closedLegs_within_iff closing v instrument lots
  · exact MetaTrader.closesWithin_iff book venueSymbol instrument lots
  · exact Ccxt.closesWithin_iff v instrument lots

def longTicketBook : MetaTrader.Book where
  tickets := [longTicket 0]
  nodup := by decide
  volume_pos := by decide +kernel

/-- A request of zero lots closes the whole ticket. -/
theorem zeroLots_closesTicket :
    ¬ (CloseCall.metaTrader id longTicketBook).Within "EUR_USD" (some 0) := by
  intro h
  have hclosed := (h Unit (MetaTrader.takesAll longTicketBook id) () rfl rfl).requested 0 rfl
  revert hclosed
  decide +kernel

end Sentinel
