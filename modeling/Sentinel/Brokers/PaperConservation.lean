import Sentinel.Brokers.PaperLedger
import Mathlib.Algebra.BigOperators.Group.Multiset.Basic

/-!
# Conservation of money and of risk

Every call of the simulated venue keeps the balance equal to the starting
balance, the closed trades' net profit, what the open positions have been
charged and what the negative-balance protection wrote off, with one exception:
an order that closes a position whose currency cannot be converted is charged
its commission before the close raises.  The risk that a position was opened
with is always that of its closed portions and of what is left.
-/

namespace Sentinel

namespace PaperBroker

variable (b : PaperBroker)

def closedPnl : Dec := (b.closed.map fun trade => trade.pnl).sum

def openCommission : Dec := b.positions.sumOf PaperPosition.commissionPaid

def openFinancing : Dec := b.positions.sumOf PaperPosition.financingPaid

def resets : Dec := (b.transactions.map fun t => t.kind.reset).sum

def Conserved (startingBalance : Dec) (b : PaperBroker) : Prop :=
  b.balance =
    startingBalance + b.closedPnl - b.openCommission + b.openFinancing + b.resets

def settled : Dec :=
  b.balance - b.closedPnl + b.openCommission - b.openFinancing - b.resets

theorem conserved_iff (startingBalance : Dec) (b : PaperBroker) :
    b.Conserved startingBalance ↔ b.settled = startingBalance := by
  rw [Conserved, settled]
  constructor
  · intro h
    linarith
  · intro h
    linarith

end PaperBroker

def PaperPosition.RiskKept (p : PaperPosition) : Prop :=
  p.record.riskOpened = p.record.riskClosed + p.initialRisk

def PositionRecord.Spent (r : PositionRecord) : Prop :=
  r.riskOpened = r.riskClosed

namespace PaperBroker

def recordedPortions (b : PaperBroker) : Multiset PaperTrade :=
  (b.positions.values.map fun p => (p.record.portions : Multiset PaperTrade)).sum +
    (b.ended.map fun r => (r.portions : Multiset PaperTrade)).sum

structure RiskKept (b : PaperBroker) : Prop where
  held : ∀ symbol p, b.positions.get? symbol = some p → p.RiskKept
  ended : ∀ r ∈ b.ended, r.Spent
  recorded : (b.closed : Multiset PaperTrade) = b.recordedPortions

structure Sound (b : PaperBroker) : Prop where
  riskKept : b.RiskKept
  lots_nonneg : ∀ symbol p, b.positions.get? symbol = some p → 0 ≤ p.lots

/-- From a sound venue, `b'` is sound and has settled what `b` has. -/
structure Keeps (b b' : PaperBroker) : Prop where
  sound : b.Sound → b'.Sound
  settled : b.Sound → b'.settled = b.settled

instance : Std.Refl Keeps := ⟨fun _ => ⟨id, fun _ => rfl⟩⟩

instance : IsTrans PaperBroker Keeps :=
  ⟨fun _ _ _ h h' => ⟨fun hs => h'.sound (h.sound hs),
    fun hs => (h'.settled (h.sound hs)).trans (h.settled hs)⟩⟩

variable {b b' : PaperBroker}

theorem Sound.of_eq (hs : b.Sound) (hpositions : b'.positions = b.positions)
    (hclosed : b'.closed = b.closed) (hended : b'.ended = b.ended) : b'.Sound := by
  constructor
  · constructor
    · simpa only [hpositions] using hs.riskKept.held
    · simpa only [hended] using hs.riskKept.ended
    · simpa only [recordedPortions, hpositions, hclosed, hended] using hs.riskKept.recorded
  · simpa only [hpositions] using hs.lots_nonneg

theorem keeps_of_eq (hbalance : b'.balance = b.balance)
    (hpositions : b'.positions = b.positions) (hclosed : b'.closed = b.closed)
    (htransactions : b'.transactions = b.transactions) (hended : b'.ended = b.ended) :
    Keeps b b' := by
  constructor
  · exact fun hs => hs.of_eq hpositions hclosed hended
  · intro _
    simp only [PaperBroker.settled, closedPnl, openCommission, openFinancing, resets, hbalance,
      hpositions, hclosed, htransactions]

theorem keeps_recordTxn (b : PaperBroker) (clientOrderId : String) {kind : TxnKind}
    (h : kind.reset = 0) : Keeps b (b.recordTxn clientOrderId kind) := by
  constructor
  · exact fun hs => hs.of_eq rfl rfl rfl
  · intro _
    simp [PaperBroker.settled, closedPnl, openCommission, openFinancing, resets, recordTxn, h]

variable (cfg : PaperSetup) (startingBalance : Dec) (startNs : ℤ)

theorem keeps_protectBalance (b : PaperBroker) : Keeps b (b.protectBalance cfg) := by
  rw [protectBalance]
  split_ifs
  · constructor
    · exact fun hs => hs.of_eq rfl rfl rfl
    · intro _
      simp only [PaperBroker.settled, closedPnl, openCommission, openFinancing, resets, recordTxn,
        List.map_append, List.sum_append, List.map_cons, List.map_nil, List.sum_cons, List.sum_nil,
        TxnKind.reset]
      ring
  · exact Std.Refl.refl b

/-! ## Positions written to the book -/

def portionsOf (b : PaperBroker) (symbol : String) : List PaperTrade :=
  ((b.positions.get? symbol).map fun p => p.record.portions).getD []

variable {b : PaperBroker} {symbol : String}

theorem settled_hold_new (h : b.positions.get? symbol = none)
    (pos : PaperPosition) :
    (b.hold symbol pos).settled = b.settled + pos.commissionPaid - pos.financingPaid := by
  simp only [settled, closedPnl, openCommission, openFinancing, resets, hold,
    Dict.sumOf_set_of_none _ h]
  ring

theorem settled_hold {old : PaperPosition}
    (h : b.positions.get? symbol = some old) (pos : PaperPosition) :
    (b.hold symbol pos).settled =
      b.settled + (pos.commissionPaid - old.commissionPaid) -
        (pos.financingPaid - old.financingPaid) := by
  simp only [settled, closedPnl, openCommission, openFinancing, resets, hold,
    Dict.sumOf_set_of_get? _ h]
  ring

theorem recordedPortions_hold (b : PaperBroker) {symbol : String} {pos : PaperPosition}
    {more : List PaperTrade} (h : pos.record.portions = b.portionsOf symbol ++ more) :
    (b.hold symbol pos).recordedPortions = b.recordedPortions + more := by
  rw [portionsOf] at h
  cases hold : b.positions.get? symbol with
  | none =>
      have hitems := Dict.items_set_of_notMem ((Dict.get?_eq_none_iff _ _).1 hold) pos
      rw [hold] at h
      simp only [Option.map_none, Option.getD_none, List.nil_append] at h
      simp only [recordedPortions, PaperBroker.hold, Dict.values, hitems, List.map_append,
        List.sum_append, List.map_cons, List.map_nil, List.sum_cons, List.sum_nil, h]
      abel
  | some old =>
      obtain ⟨pre, post, hitems, hset⟩ := Dict.exists_items_set hold
      rw [hold] at h
      simp only [Option.map_some, Option.getD_some] at h
      simp only [recordedPortions, PaperBroker.hold, Dict.values, hitems, hset, List.map_append,
        List.sum_append, List.map_cons, List.sum_cons, h, ← Multiset.coe_add]
      abel

theorem recordedPortions_erase {old : PaperPosition}
    (h : b.positions.get? symbol = some old) {r : PositionRecord} {more : List PaperTrade}
    (hr : r.portions = old.record.portions ++ more) :
    ({ b with positions := b.positions.erase symbol, ended := b.ended ++ [r] } :
      PaperBroker).recordedPortions = b.recordedPortions + more := by
  obtain ⟨pre, post, hitems, herase⟩ := Dict.exists_items_erase h
  simp only [recordedPortions, Dict.values, hitems, herase, List.map_append, List.sum_append,
    List.map_cons, List.map_nil, List.sum_cons, List.sum_nil, hr, ← Multiset.coe_add]
  abel

theorem RiskKept.hold (hs : b.RiskKept)
    (hpositions : b'.positions = b.positions)
    (hended : b'.ended = b.ended) {more : List PaperTrade} (hclosed : b'.closed = b.closed ++ more)
    {symbol : String} {pos : PaperPosition} (hrisk : pos.RiskKept)
    (hrecord : pos.record.portions = b.portionsOf symbol ++ more) :
    (b'.hold symbol pos).RiskKept := by
  constructor
  · intro other p hp
    rw [PaperBroker.hold, Dict.get?_set] at hp
    split_ifs at hp with heq
    · rw [← Option.some.inj hp]
      exact hrisk
    · exact hs.held other p (hpositions ▸ hp)
  · intro r hr
    exact hs.ended r (hended ▸ hr)
  · have hhold : (b'.hold symbol pos).closed = b.closed ++ more := hclosed
    have hsame : b'.recordedPortions = b.recordedPortions := by
      rw [recordedPortions, recordedPortions, hpositions, hended]
    have hportions : pos.record.portions = b'.portionsOf symbol ++ more := by
      rw [hrecord, portionsOf, portionsOf, hpositions]
    rw [hhold, recordedPortions_hold b' hportions, hsame, ← hs.recorded, Multiset.coe_add]

theorem Sound.hold (hs : b.Sound) {symbol : String} {pos : PaperPosition}
    (hrisk : pos.RiskKept) (hrecord : pos.record.portions = b.portionsOf symbol)
    (hlots : 0 ≤ pos.lots) : (b.hold symbol pos).Sound := by
  constructor
  · exact hs.riskKept.hold rfl rfl (List.append_nil b.closed).symm hrisk
      (hrecord.trans (List.append_nil _).symm)
  · intro other p hp
    rw [PaperBroker.hold, Dict.get?_set] at hp
    split_ifs at hp with heq
    · rw [← Option.some.inj hp]
      exact hlots
    · exact hs.lots_nonneg other p hp

theorem keeps_hold {old pos : PaperPosition}
    (h : b.positions.get? symbol = some old) (hlots : pos.lots = old.lots)
    (hcommission : pos.commissionPaid = old.commissionPaid)
    (hfinancing : pos.financingPaid = old.financingPaid)
    (hrisk : pos.initialRisk = old.initialRisk) (hrecord : pos.record = old.record) :
    Keeps b (b.hold symbol pos) := by
  constructor
  · intro hs
    refine hs.hold ?_ ?_ (hlots ▸ hs.lots_nonneg symbol old h)
    · have hold := hs.riskKept.held symbol old h
      rw [PaperPosition.RiskKept] at hold ⊢
      rw [hrecord, hrisk]
      exact hold
    · simp [portionsOf, h, hrecord]
  · intro _
    rw [settled_hold h, hcommission, hfinancing]
    ring

/-! ## Closing lots -/

section Closing

variable (cfg : PaperSetup) (b : PaperBroker) (symbol : String) (pos : PaperPosition)
  (inst : Instrument) (exitPrice lots : Dec) (tsNs : ℤ) (reason : String) (extraCommission : Dec)

theorem leftOpen_eq_zero {pos : PaperPosition} {lots : Dec} (hlots : lots ≤ pos.lots) (rate : Dec)
    (trade : PaperTrade)
    (h : (leftOpen pos lots extraCommission
      (portion pos inst exitPrice lots extraCommission rate) trade).lots ≤ 0) :
    let left := leftOpen pos lots extraCommission
      (portion pos inst exitPrice lots extraCommission rate) trade
    left.commissionPaid = 0 ∧ left.financingPaid = 0 ∧ left.initialRisk = 0 := by
  have hwhole : lots = pos.lots := le_antisymm hlots (sub_nonpos.1 h)
  have hfraction : (if 0 < pos.lots then lots / pos.lots else 1) = 1 := by
    split_ifs with hpos
    · rw [hwhole, div_self hpos.ne']
    · rfl
  simp [leftOpen, portion, hfraction]

theorem leftOpen_riskKept {pos : PaperPosition} (h : pos.RiskKept) (rate : Dec)
    {trade : PaperTrade}
    (htrade : trade.initialRisk =
      (portion pos inst exitPrice lots extraCommission rate).riskShare) :
    (leftOpen pos lots extraCommission
      (portion pos inst exitPrice lots extraCommission rate) trade).RiskKept := by
  rw [PaperPosition.RiskKept, PositionRecord.riskClosed] at h ⊢
  simp only [leftOpen, List.map_append, List.sum_append, List.map_cons, List.map_nil,
    List.sum_cons, List.sum_nil, htrade, h]
  ring

variable {b symbol pos}

theorem settled_putBack {left : PaperPosition} (h : b.positions.get? symbol = some pos)
    (hleft : left.lots ≤ 0 → left.commissionPaid = 0 ∧ left.financingPaid = 0) :
    (b.putBack symbol left).settled =
      b.settled + (left.commissionPaid - pos.commissionPaid) -
        (left.financingPaid - pos.financingPaid) := by
  rw [putBack]
  split_ifs with hzero
  · obtain ⟨hcommission, hfinancing⟩ := hleft hzero
    simp only [settled, closedPnl, openCommission, openFinancing, resets, Dict.sumOf_erase _ h,
      hcommission, hfinancing]
    ring
  · exact settled_hold h left

theorem Sound.putBack (hs : b.Sound) (h : b.positions.get? symbol = some pos) (b' : PaperBroker)
    (hpositions : b'.positions = b.positions) (hended : b'.ended = b.ended) {trade : PaperTrade}
    (hclosed : b'.closed = b.closed ++ [trade]) {left : PaperPosition} (hrisk : left.RiskKept)
    (hrecord : left.record.portions = pos.record.portions ++ [trade]) (hlots : 0 ≤ left.lots)
    (hleft : left.lots ≤ 0 → left.initialRisk = 0) : (b'.putBack symbol left).Sound := by
  rw [PaperBroker.putBack]
  split_ifs with hzero
  · have hsub : ∀ other p, (b'.positions.erase symbol).get? other = some p →
        b.positions.get? other = some p := by
      intro other p hp
      rw [Dict.get?_erase, hpositions] at hp
      split_ifs at hp
      exact hp
    constructor
    · constructor
      · exact fun other p hp => hs.riskKept.held other p (hsub other p hp)
      · intro r hr
        rcases List.mem_append.1 hr with hr | hr
        · exact hs.riskKept.ended r (hended ▸ hr)
        · rw [List.mem_singleton.1 hr, PositionRecord.Spent]
          rw [PaperPosition.RiskKept] at hrisk
          rw [hrisk, hleft hzero, add_zero]
      · have hsame : b'.recordedPortions = b.recordedPortions := by
          rw [recordedPortions, recordedPortions, hpositions, hended]
        rw [recordedPortions_erase (hpositions ▸ h) hrecord, hsame, ← hs.riskKept.recorded,
          Multiset.coe_add]
        exact congrArg _ hclosed
    · exact fun other p hp => hs.lots_nonneg other p (hsub other p hp)
  · constructor
    · refine hs.riskKept.hold hpositions hended hclosed hrisk ?_
      simp [hrecord, portionsOf, h]
    · intro other p hp
      rw [Dict.get?_set, hpositions] at hp
      split_ifs at hp with heq
      · rw [← Option.some.inj hp]
        exact hlots
      · exact hs.lots_nonneg other p hp

theorem realised_spec (hs : b.Sound) (h : b.positions.get? symbol = some pos)
    (hlots : lots ≤ pos.lots) (rate : Dec) :
    let b' := b.realised cfg symbol pos inst exitPrice lots tsNs reason extraCommission rate
    b'.Sound ∧ b'.settled = b.settled + extraCommission := by
  intro b'
  let x := portion pos inst exitPrice lots extraCommission rate
  let trade := b.closedTrade symbol pos inst exitPrice lots tsNs reason x
  let left := leftOpen pos lots extraCommission x trade
  let paid : PaperBroker :=
    { b with
      balance := b.balance + x.pricePnl
      tradeSeq := b.tradeSeq + 1
      closed := b.closed ++ [trade] }
  have hmoney : paid.settled = b.settled + x.commissionShare - x.financingShare := by
    simp only [paid, settled, closedPnl, openCommission, openFinancing, resets, List.map_append,
      List.sum_append, List.map_cons, List.map_nil, List.sum_cons, List.sum_nil, trade,
      closedTrade, Portion.netPnl]
    ring
  have hzero : left.lots ≤ 0 →
      left.commissionPaid = 0 ∧ left.financingPaid = 0 ∧ left.initialRisk = 0 :=
    leftOpen_eq_zero inst exitPrice extraCommission hlots rate trade
  have hrisk : left.RiskKept :=
    leftOpen_riskKept inst exitPrice lots extraCommission (hs.riskKept.held symbol pos h) rate rfl
  have hback : (paid.putBack symbol left).Sound :=
    hs.putBack h paid rfl rfl rfl hrisk rfl (sub_nonneg.2 hlots) fun hleft => (hzero hleft).2.2
  have hsettled : (paid.putBack symbol left).settled = b.settled + extraCommission := by
    rw [settled_putBack (b := paid) h fun hleft => ⟨(hzero hleft).1, (hzero hleft).2.1⟩, hmoney]
    simp only [left, leftOpen]
    ring
  have hend : Keeps (paid.putBack symbol left) b' :=
    IsTrans.trans _ _ _ (keeps_protectBalance cfg _) (keeps_recordTxn _ _ rfl)
  exact ⟨hend.sound hback, (hend.settled hback).trans hsettled⟩

theorem keeps_realise (h : b.positions.get? symbol = some pos) (hlots : lots ≤ pos.lots) :
    Keeps b (finalState (realise cfg symbol pos inst exitPrice lots tsNs reason 0) b) := by
  rw [finalState]
  rw [run_realise]
  cases b.conversionRate inst.quote cfg.currency with
  | none => exact Std.Refl.refl b
  | some rate =>
      constructor
      · exact fun hs => (realised_spec cfg inst exitPrice lots tsNs reason 0 hs h hlots rate).1
      · intro hs
        have hsettled :=
          (realised_spec cfg inst exitPrice lots tsNs reason 0 hs h hlots rate).2
        rw [add_zero] at hsettled
        exact hsettled

end Closing

/-! ## Fills -/

section Fills

variable (cfg : PaperSetup) {b : PaperBroker} (intent : OrderIntent) (inst : Instrument)

def closesUnconverted (b : PaperBroker) : Bool :=
  (b.positions.get? intent.instrument).any (fun pos => pos.side ≠ intent.side) &&
    (b.conversionRate inst.quote cfg.currency).isNone

theorem portionsOf_of_none {symbol : String} (h : b.positions.get? symbol = none) :
    b.portionsOf symbol = [] := by
  simp [portionsOf, h]

theorem opened_riskKept (fill : PaperFill) (lots commission : Dec) :
    (opened intent fill lots commission).RiskKept := by
  simp [opened, PaperPosition.RiskKept, PositionRecord.riskClosed]

theorem addedTo_riskKept {pos : PaperPosition} (h : pos.RiskKept) (fill : PaperFill) :
    (addedTo pos intent fill).RiskKept := by
  rw [PaperPosition.RiskKept, PositionRecord.riskClosed] at h ⊢
  simp only [addedTo, h]
  ring

theorem settled_hold_addedTo {pos : PaperPosition}
    (h : b.positions.get? intent.instrument = some pos) (fill : PaperFill) :
    (b.hold intent.instrument (addedTo pos intent fill)).settled = b.settled + fill.commission := by
  rw [settled_hold h]
  simp only [addedTo]
  ring

theorem closingShare_whole {fill : PaperFill} (hlots : 0 ≤ fill.lots)
    (hfree : fill.lots = 0 → fill.commission = 0) :
    closingShare fill fill.lots = fill.commission := by
  rw [closingShare]
  split_ifs with hpos
  · rw [mul_div_cancel_right₀ _ hpos.ne']
  · exact (hfree (le_antisymm (not_lt.1 hpos) hlots)).symm

theorem fillAgainst_spec (hs : b.Sound) {pos : PaperPosition}
    (h : b.positions.get? intent.instrument = some pos) {fill : PaperFill}
    (hlots : 0 ≤ fill.lots) (hfree : fill.lots = 0 → fill.commission = 0) {rate : Dec}
    (hrate : b.conversionRate inst.quote cfg.currency = some rate) :
    let b' := finalState (fillAgainst cfg intent inst fill pos) b
    b'.Sound ∧ b'.settled = b.settled + fill.commission := by
  intro b'
  let closing := min pos.lots fill.lots
  let share := closingShare fill closing
  let mid := b.realised cfg intent.instrument pos inst fill.price closing fill.tsNs
    "opposite_fill" share rate
  have hmid : mid.Sound ∧ mid.settled = b.settled + share :=
    realised_spec cfg inst fill.price closing fill.tsNs "opposite_fill" share hs h
      (min_le_left _ _) rate
  have hend : b' =
      if 0 < fill.lots - closing then
        mid.hold intent.instrument
          (opened intent fill (fill.lots - closing) (fill.commission - share))
      else mid := by
    simp only [b', fillAgainst]
    rw [finalState_bind, run_realise, hrate]
    simp only
    split_ifs <;> rfl
  rw [hend]
  split_ifs with hopens
  · have hclosing : closing = pos.lots := by
      rcases min_choice pos.lots fill.lots with hmin | hmin
      · exact hmin
      · simp [closing, hmin] at hopens
    have hnone : mid.positions.get? intent.instrument = none := by
      simp only [mid, hclosing, positions_realised_whole, Dict.get?_erase_self]
    constructor
    · exact hmid.1.hold (opened_riskKept intent fill _ _) (portionsOf_of_none hnone).symm
        hopens.le
    · rw [settled_hold_new hnone, hmid.2]
      simp only [opened]
      ring
  · have hclosing : closing = fill.lots :=
      le_antisymm (min_le_right _ _) (sub_nonpos.1 (not_lt.1 hopens))
    have hshare : share = fill.commission := by
      simp only [share, hclosing, closingShare_whole hlots hfree]
    exact ⟨hmid.1, hshare ▸ hmid.2⟩

theorem applyFill_spec (hs : b.Sound) (fill : PaperFill) (hlots : 0 ≤ fill.lots)
    (hfree : fill.lots = 0 → fill.commission = 0) :
    let b' := finalState (applyFill cfg intent inst fill) b
    b'.Sound ∧
      b'.settled =
        b.settled + if closesUnconverted cfg intent inst b then 0 else fill.commission := by
  simp only [applyFill, finalState_bind_get]
  rw [closesUnconverted]
  cases hpos : b.positions.get? intent.instrument with
  | none =>
      constructor
      · exact hs.hold (opened_riskKept intent fill _ _) (portionsOf_of_none hpos).symm hlots
      · simp [settled_hold_new hpos, opened]
  | some pos =>
      have hheld := hs.lots_nonneg _ pos hpos
      by_cases hside : pos.side = intent.side
      · simp only [if_pos hside]
        by_cases hzero : pos.lots + fill.lots = 0
        · have hnone : fill.lots = 0 := by linarith
          rw [if_pos hzero, finalState_throw]
          exact ⟨hs, by simp [hside, hfree hnone]⟩
        · rw [if_neg hzero, finalState_modify]
          constructor
          · refine hs.hold (addedTo_riskKept intent (hs.riskKept.held _ pos hpos) fill) ?_
              (add_nonneg hheld hlots)
            simp [addedTo, portionsOf, hpos]
          · simp [settled_hold_addedTo intent hpos, hside]
      · simp only [if_neg hside]
        cases hrate : b.conversionRate inst.quote cfg.currency with
        | some rate =>
            simpa [hside] using fillAgainst_spec cfg intent inst hs hpos hlots hfree hrate
        | none =>
            have hstays : finalState (fillAgainst cfg intent inst fill pos) b = b := by
              rw [fillAgainst, finalState_bind, run_realise, hrate]
            rw [hstays]
            simp [hs, hside]

theorem fillLots_nonneg {lots : Dec} (h : 0 ≤ lots) : 0 ≤ fillLots cfg inst lots := by
  rw [fillLots]
  split_ifs
  · exact inst.roundLotsDown_nonneg _
  · exact h

theorem commissionOn_zero : commissionOn cfg 0 = 0 := by
  simp [commissionOn]

def charged (order : Order) (q : Quote) (lots slippagePips : Dec) (hidden : Bool)
    (b : PaperBroker) : PaperBroker :=
  let taken : PaperBroker := { b with txnSeq := b.txnSeq + 1 }
  let fill := taken.fillOf cfg order.intent inst q lots slippagePips
  { taken.setOrder (withFill cfg order fill lots hidden) with
    balance := b.balance - fill.commission }

theorem complete_after (order : Order) (q : Quote) (lots slippagePips : Dec) (hidden : Bool)
    (b : PaperBroker) :
    Keeps
      (finalState
        (applyFill cfg order.intent inst
          (({ b with txnSeq := b.txnSeq + 1 } : PaperBroker).fillOf cfg order.intent inst q lots
            slippagePips))
        (charged cfg inst order q lots slippagePips hidden b))
      (finalState (complete cfg order inst q lots slippagePips hidden) b) := by
  refine Moves.bind_rest (R := Keeps) _ (fun _ => ?_)
    (charged cfg inst order q lots slippagePips hidden b)
  exact Moves.bind (Moves.modify fun t => keeps_recordTxn t _ rfl) fun _ => Moves.pure _

theorem complete_spec (hs : b.Sound) (order : Order) (q : Quote) {lots : Dec} (hlots : 0 ≤ lots)
    (slippagePips : Dec) (hidden : Bool) :
    let b' := finalState (complete cfg order inst q lots slippagePips hidden) b
    b'.Sound ∧
      b'.settled = b.settled -
        if closesUnconverted cfg order.intent inst b then commissionOn cfg (fillLots cfg inst lots)
        else 0 := by
  intro b'
  let start := charged cfg inst order q lots slippagePips hidden b
  have hstart : start.Sound := hs.of_eq rfl rfl rfl
  have hdebit : start.settled = b.settled - commissionOn cfg (fillLots cfg inst lots) := by
    simp only [start, charged, fillOf, settled, closedPnl, openCommission, openFinancing, resets,
      setOrder]
    ring
  have hsame : closesUnconverted cfg order.intent inst start =
      closesUnconverted cfg order.intent inst b := rfl
  have hend := complete_after cfg inst order q lots slippagePips hidden b
  obtain ⟨hsound, hfill⟩ := applyFill_spec cfg order.intent inst hstart
    (({ b with txnSeq := b.txnSeq + 1 } : PaperBroker).fillOf cfg order.intent inst q lots
      slippagePips)
    (fillLots_nonneg cfg inst hlots) fun hzero => by
      have hfilled : fillLots cfg inst lots = 0 := hzero
      simp only [fillOf, hfilled, commissionOn_zero]
  refine ⟨hend.sound hsound, ?_⟩
  rw [hend.settled hsound, hfill, hdebit, hsame]
  simp only [fillOf]
  split_ifs
  · ring
  · ring

end Fills

/-! ## Orders -/

section Orders

variable (cfg : PaperSetup)

theorem keeps_setOrder (b : PaperBroker) (order : Order) : Keeps b (b.setOrder order) :=
  keeps_of_eq rfl rfl rfl rfl rfl

structure SameBook (b b' : PaperBroker) : Prop extends Keeps b b' where
  positions : b'.positions = b.positions
  conversions : b'.conversions = b.conversions

instance : Std.Refl SameBook := ⟨fun b => ⟨Std.Refl.refl b, rfl, rfl⟩⟩

instance : IsTrans PaperBroker SameBook :=
  ⟨fun _ _ _ h h' => ⟨IsTrans.trans _ _ _ h.toKeeps h'.toKeeps,
    h'.positions.trans h.positions, h'.conversions.trans h.conversions⟩⟩

theorem SameBook.closesUnconverted {b b' : PaperBroker} (h : SameBook b b') (intent : OrderIntent)
    (inst : Instrument) :
    closesUnconverted cfg intent inst b' = closesUnconverted cfg intent inst b := by
  unfold PaperBroker.closesUnconverted conversionRate
  rw [h.positions, h.conversions]

theorem moves_account : Moves SameBook (account cfg) := by
  refine Moves.bind_get fun b => ?_
  cases b.positions.items.foldlM (b.mark cfg) (0, 0) with
  | error e => exact Moves.throw e b
  | ok sums =>
      refine Moves.bind (R := SameBook) (Moves.modify fun t => ?_) (fun _ => Moves.pure _) b
      exact ⟨keeps_of_eq rfl rfl rfl rfl rfl, rfl, rfl⟩

theorem moves_refusesMargin (intent : OrderIntent) (inst : Instrument) (q : Quote) (lots : Dec) :
    Moves SameBook (refusesMargin cfg intent inst q lots) := by
  refine Moves.bind_get fun b => ?_
  simp only
  split
  · refine Moves.bind (R := SameBook) (moves_account cfg) (fun acct => ?_) b
    refine Moves.ite (fun _ => ?_) fun _ => Moves.pure _
    refine Moves.bind (Moves.modify fun t => ?_) fun _ => Moves.pure _
    exact ⟨keeps_recordTxn t _ rfl, rfl, rfl⟩
  · exact Std.Refl.refl b

theorem run_refusesMargin {intent : OrderIntent} {inst : Instrument}
    (h : closesUnconverted cfg intent inst b) (q : Quote) (lots : Dec) :
    (refusesMargin cfg intent inst q lots).run b = .ok none b := by
  rw [closesUnconverted] at h
  rw [Bool.and_eq_true, Option.isNone_iff_eq_none] at h
  rw [refusesMargin, run_bind_get]
  simp only [h.2]
  generalize Option.all _ _ = opening
  cases opening <;> rfl

variable (intent : OrderIntent) (inst : Instrument) (timeoutMs : Dec) (draws : Draws)

def VenueActs : Prop := timeoutMs < draws.latencyMs ∨ draws.lastLookRejects = false

instance : Decidable (VenueActs timeoutMs draws) := by
  rw [VenueActs]
  infer_instance

theorem execute_spec (hs : b.Sound) (q : Quote) {lots : Dec} (hlots : 0 ≤ lots) :
    let b' := finalState (execute cfg intent inst q lots timeoutMs draws) b
    b'.Sound ∧
      b'.settled = b.settled -
        if VenueActs timeoutMs draws ∧ closesUnconverted cfg intent inst b then
          commissionOn cfg (fillLots cfg inst lots)
        else 0 := by
  intro b'
  let order : Order := { intent := intent, state := .sent, attempts := 1 }
  have hset : Keeps b (b.setOrder order) := keeps_setOrder b order
  by_cases hlate : timeoutMs < draws.latencyMs
  · let sent := (b.setOrder order).recordTxn intent.clientOrderId .orderTimeout
    have hsent : Keeps b sent := IsTrans.trans _ _ _ hset (keeps_recordTxn _ _ rfl)
    have hend : Keeps
        (finalState (complete cfg { order with state := .unknown, lastError := some "timeout" } inst
          q lots draws.slippagePips true) sent) b' := by
      simp only [b', execute, finalState_bind_modify, if_pos hlate]
      exact Moves.bind_rest _ (fun _ => Moves.pure _) sent
    obtain ⟨hsound, hsettled⟩ := complete_spec cfg inst (hsent.sound hs)
      { order with state := .unknown, lastError := some "timeout" } q hlots draws.slippagePips true
    refine ⟨hend.sound hsound, ?_⟩
    rw [hend.settled hsound, hsettled, hsent.settled hs]
    have hacts : VenueActs timeoutMs draws := .inl hlate
    have hsame : closesUnconverted cfg intent inst sent = closesUnconverted cfg intent inst b := rfl
    simp only [order, hsame, hacts, true_and]
  · by_cases hlook : draws.lastLookRejects = true
    · have hacts : ¬VenueActs timeoutMs draws := by
        rintro (h | h)
        · exact hlate h
        · rw [hlook] at h
          cases h
      have hend : Keeps b b' := by
        simp only [b', execute, finalState_bind_modify, if_neg hlate, if_pos hlook]
        refine IsTrans.trans _ _ _ hset ?_
        exact IsTrans.trans _ _ _ (keeps_setOrder _ _) (keeps_recordTxn _ _ rfl)
      exact ⟨hend.sound hs, by rw [hend.settled hs, if_neg fun h => hacts h.1, sub_zero]⟩
    · have hacts : VenueActs timeoutMs draws := .inr (Bool.eq_false_iff.2 hlook)
      have hend : Keeps
          (finalState (complete cfg order inst q lots draws.slippagePips false) (b.setOrder order))
          b' := by
        simp only [b', execute, finalState_bind_modify, if_neg hlate, if_neg hlook]
        exact Moves.bind_rest _ (fun _ => Moves.pure _) _
      obtain ⟨hsound, hsettled⟩ :=
        complete_spec cfg inst (hset.sound hs) order q hlots draws.slippagePips false
      refine ⟨hend.sound hsound, ?_⟩
      rw [hend.settled hsound, hsettled, hset.settled hs]
      have hsame : closesUnconverted cfg intent inst (b.setOrder order) =
          closesUnconverted cfg intent inst b := rfl
      simp only [order, hsame, hacts, true_and]

/-- The venue executes a new order against a position of a currency that it
cannot convert, and the fill has a commission. -/
structure ChargedUnbooked (b : PaperBroker) : Prop where
  fresh : b.orders.get? intent.clientOrderId = none
  known : cfg.instruments.get? intent.instrument = some inst
  quoted : (b.quotes.get? intent.instrument).isSome
  minLot_le : inst.minLot ≤ inst.roundLotsDown intent.lots
  le_maxLot : inst.roundLotsDown intent.lots ≤ inst.maxLot
  acts : VenueActs timeoutMs draws
  against : closesUnconverted cfg intent inst b
  charged : commissionOn cfg (fillLots cfg inst (inst.roundLotsDown intent.lots)) ≠ 0

theorem admitted_spec (hs : b.Sound) (q : Quote) {lots : Dec} (hlots : 0 ≤ lots) :
    let b' := finalState
      (refusesMargin cfg intent inst q lots >>= fun refused =>
        match refused with
        | some refusal => pure refusal
        | none => execute cfg intent inst q lots timeoutMs draws) b
    b'.Sound ∧
      (b'.settled = b.settled ↔
        ¬(VenueActs timeoutMs draws ∧ closesUnconverted cfg intent inst b ∧
          commissionOn cfg (fillLots cfg inst lots) ≠ 0)) := by
  intro b'
  have hmid := moves_refusesMargin cfg intent inst q lots b
  have hfree : ∀ refused t, (refusesMargin cfg intent inst q lots).run b = .ok (some refused) t →
      ¬closesUnconverted cfg intent inst b := by
    intro refused t hrun hagainst
    rw [run_refusesMargin cfg hagainst] at hrun
    cases hrun
  have hraise : ∀ e t, (refusesMargin cfg intent inst q lots).run b = .error e t →
      ¬closesUnconverted cfg intent inst b := by
    intro e t hrun hagainst
    rw [run_refusesMargin cfg hagainst] at hrun
    cases hrun
  rw [finalState] at hmid
  simp only [b', finalState_bind]
  cases hrun : (refusesMargin cfg intent inst q lots).run b with
  | error e t =>
      rw [hrun] at hmid
      exact ⟨hmid.sound hs, iff_of_true (hmid.settled hs) fun h => hraise e t hrun h.2.1⟩
  | ok refused t =>
      rw [hrun] at hmid
      cases refused with
      | some refusal =>
          exact ⟨hmid.sound hs, iff_of_true (hmid.settled hs) fun h => hfree refusal t hrun h.2.1⟩
      | none =>
          obtain ⟨hsound, hsettled⟩ :=
            execute_spec cfg intent inst timeoutMs draws (hmid.sound hs) q hlots
          refine ⟨hsound, ?_⟩
          simp only [hsettled, hmid.settled hs, hmid.closesUnconverted]
          split_ifs with hlost
          · simp [hlost.1, hlost.2]
          · simp only [sub_zero, true_iff]
            exact fun h => hlost ⟨h.1, h.2.1⟩

theorem submit_spec (hs : b.Sound) : let b' := finalState (submit cfg intent timeoutMs draws) b
    b'.Sound ∧
      (b'.settled = b.settled ↔ ¬∃ inst, ChargedUnbooked cfg intent inst timeoutMs draws b) := by
  simp only [submit, finalState_bind_get]
  cases horder : b.orders.get? intent.clientOrderId with
  | some existing =>
      refine ⟨hs, iff_of_true rfl ?_⟩
      rintro ⟨inst, h⟩
      cases horder.symm.trans h.fresh
  | none =>
      cases hinst : cfg.instruments.get? intent.instrument with
      | none =>
          refine ⟨hs, iff_of_true rfl ?_⟩
          rintro ⟨inst, h⟩
          cases hinst.symm.trans h.known
      | some inst =>
          have honly : ∀ inst', ChargedUnbooked cfg intent inst' timeoutMs draws b → inst' = inst :=
            fun inst' h => Option.some.inj (h.known.symm.trans hinst)
          cases hquote : b.quotes.get? intent.instrument with
          | none =>
              refine ⟨hs, iff_of_true rfl ?_⟩
              rintro ⟨inst', h⟩
              simpa [hquote] using h.quoted
          | some q =>
              by_cases hmin : inst.roundLotsDown intent.lots < inst.minLot
              · simp only [if_pos hmin]
                refine ⟨hs, iff_of_true rfl ?_⟩
                rintro ⟨inst', h⟩
                obtain rfl := honly inst' h
                exact absurd h.minLot_le (not_le.2 hmin)
              · by_cases hmax : inst.maxLot < inst.roundLotsDown intent.lots
                · simp only [if_neg hmin, if_pos hmax]
                  refine ⟨hs, iff_of_true rfl ?_⟩
                  rintro ⟨inst', h⟩
                  obtain rfl := honly inst' h
                  exact absurd h.le_maxLot (not_le.2 hmax)
                · simp only [if_neg hmin, if_neg hmax]
                  obtain ⟨hsound, hsettled⟩ := admitted_spec cfg intent inst timeoutMs draws hs q
                    (inst.roundLotsDown_nonneg intent.lots)
                  refine ⟨hsound, hsettled.trans (not_congr ?_)⟩
                  constructor
                  · rintro ⟨hacts, hagainst, hcharged⟩
                    exact ⟨inst, horder, hinst, by simp [hquote], not_lt.1 hmin, not_lt.1 hmax,
                      hacts, hagainst, hcharged⟩
                  · rintro ⟨inst', h⟩
                    obtain rfl := honly inst' h
                    exact ⟨h.acts, h.against, h.charged⟩

end Orders

/-! ## Quotes -/

section Quotes

variable (cfg : PaperSetup)

theorem keeps_book {pos : PaperPosition}
    (h : b.positions.get? symbol = some pos) (amount : Dec) :
    Keeps b (b.book symbol pos amount) := by
  constructor
  · intro hs
    refine Sound.hold (b := { b with balance := b.balance + amount }) (hs.of_eq rfl rfl rfl)
      ?_ ?_ ?_
    · exact hs.riskKept.held symbol pos h
    · simp [portionsOf, h]
    · exact hs.lots_nonneg symbol pos h
  · intro _
    refine (settled_hold (b := { b with balance := b.balance + amount }) h _).trans ?_
    simp only [settled, closedPnl, openCommission, openFinancing, resets]
    ring

theorem moves_charge (multiplier : Dec) (symbol : String) :
    Moves Keeps (charge cfg multiplier symbol) := by
  refine Moves.bind_get fun b => ?_
  cases hpos : b.positions.get? symbol with
  | none => exact Std.Refl.refl b
  | some pos =>
      cases hinst : cfg.instruments.get? symbol with
      | none => exact Std.Refl.refl b
      | some inst =>
          simp only [finalState_bind, run_conv]
          cases b.conversionRate inst.quote cfg.currency with
          | none => exact Std.Refl.refl b
          | some rate => exact keeps_book hpos _

theorem moves_rollDay (day : ℤ) : Moves Keeps (rollDay cfg day) := by
  refine Moves.ite (fun _ => ?_) fun _ => Moves.pure _
  refine Moves.bind_get fun b => ?_
  exact Moves.bind (Moves.forM (moves_charge cfg _) _)
    (fun _ => Moves.modify fun t => keeps_recordTxn t _ rfl) b

theorem moves_applyRollover : Moves Keeps (applyRollover cfg) := by
  have hday : ∀ day, Moves (ε := PaperError) Keeps
      (modify fun b : PaperBroker => { b with lastRolloverDay := some day }) :=
    fun day => Moves.modify fun t => keeps_of_eq rfl rfl rfl rfl rfl
  refine Moves.bind_get fun b => ?_
  simp only
  cases b.lastRolloverDay with
  | none => exact hday _ b
  | some last =>
      refine Moves.ite (fun _ => ?_) (fun _ => Moves.pure _) b
      refine Moves.bind (hday _) fun _ => ?_
      exact Moves.ite (fun _ => Moves.pure _) fun _ => Moves.forM (moves_rollDay cfg) _

theorem trackExcursions_spec {pos : PaperPosition}
    (h : b.positions.get? symbol = some pos) (inst : Instrument) (q : Quote) :
    match (trackExcursions cfg symbol pos inst q).run b with
    | .ok tracked t => Keeps b t ∧ t.positions.get? symbol = some tracked
    | .error _ t => t = b := by
  rw [trackExcursions]
  split_ifs with hrisk
  · rw [run_bind, run_conv]
    cases b.conversionRate inst.quote cfg.currency with
    | none => rfl
    | some rate => exact ⟨keeps_hold h rfl rfl rfl rfl rfl, Dict.get?_set_self _ _ _⟩
  · exact ⟨Std.Refl.refl b, h⟩

theorem moves_checkExits (q : Quote) (tsNs : ℤ) (slippagePips : Dec) :
    Moves Keeps (checkExits cfg q tsNs slippagePips) := by
  refine Moves.bind_get fun b => ?_
  cases hpos : b.positions.get? q.instrument with
  | none => exact Std.Refl.refl b
  | some held =>
      cases hinst : cfg.instruments.get? q.instrument with
      | none => exact Std.Refl.refl b
      | some inst =>
          have htrack := trackExcursions_spec cfg hpos inst q
          simp only [finalState_bind]
          cases hrun : (trackExcursions cfg q.instrument held inst q).run b with
          | error e t =>
              rw [hrun] at htrack
              rw [htrack]
              exact Std.Refl.refl b
          | ok pos t =>
              rw [hrun] at htrack
              refine IsTrans.trans b t _ htrack.1 ?_
              simp only
              split_ifs
              · exact keeps_realise cfg inst _ _ tsNs _ htrack.2 le_rfl
              · exact keeps_realise cfg inst _ _ tsNs _ htrack.2 le_rfl
              · exact Std.Refl.refl t

theorem moves_closeLosers (n : ℕ) : Moves Keeps (closeLosers cfg n) := by
  induction n with
  | zero => exact Moves.pure _
  | succ n ih =>
      refine Moves.bind_get fun b => ?_
      cases hworst : b.positions.items.foldlM (b.worse cfg) none with
      | error e => exact Std.Refl.refl b
      | ok worst =>
          cases worst with
          | none => exact Std.Refl.refl b
          | some m =>
              refine IsTrans.trans b _ _
                (keeps_realise cfg m.inst (m.quote.priceFor m.pos.side.opposite) _ b.nowNs
                  "margin_stop_out" (get?_of_worse cfg hworst) le_rfl) ?_
              refine Moves.bind_rest (R := Keeps) _ (fun _ => ?_) b
              refine Moves.bind ((moves_account cfg).mono fun _ _ h => h.toKeeps) fun acct => ?_
              exact Moves.ite (fun _ => Moves.pure _) fun _ => ih

theorem moves_checkMargin : Moves Keeps (checkMargin cfg) := by
  refine Moves.bind ((moves_account cfg).mono fun _ _ h => h.toKeeps) fun acct => ?_
  refine Moves.ite (fun _ => Moves.pure _) fun _ => ?_
  exact Moves.bind_get fun b => moves_closeLosers cfg _ b

theorem moves_onQuote (q : Quote) (tsNs : ℤ) (slippagePips : Dec) :
    Moves Keeps (onQuote cfg q tsNs slippagePips) := by
  refine Moves.bind (Moves.modify fun _ => keeps_of_eq rfl rfl rfl rfl rfl) fun _ => ?_
  refine Moves.bind (Moves.modify fun t => ?_) fun _ => ?_
  · cases cfg.instruments.get? q.instrument with
    | none => exact Std.Refl.refl t
    | some inst =>
        simp only
        split_ifs
        · exact keeps_of_eq rfl rfl rfl rfl rfl
        · exact Std.Refl.refl t
  · refine Moves.bind (moves_applyRollover cfg) fun _ => ?_
    exact Moves.bind (moves_checkExits cfg q tsNs slippagePips) fun _ => moves_checkMargin cfg

end Quotes

/-! ## The other calls -/

section Calls

variable (cfg : PaperSetup)

theorem moves_setTime (ns : ℤ) : Moves Keeps (setTime ns) := by
  refine Moves.bind_get fun b => ?_
  refine Moves.ite (R := Keeps) (fun _ => Moves.throw _) (fun _ => ?_) b
  exact Moves.modify fun _ => keeps_of_eq rfl rfl rfl rfl rfl

theorem moves_setConversion (quoteCcy : String) (rate : Dec) :
    Moves Keeps (setConversion cfg quoteCcy rate) :=
  Moves.modify fun _ => keeps_of_eq rfl rfl rfl rfl rfl

theorem moves_queryOrder (clientOrderId : String) : Moves Keeps (queryOrder clientOrderId) := by
  refine Moves.bind_get fun b => ?_
  cases b.orders.get? clientOrderId with
  | none => exact Std.Refl.refl b
  | some order =>
      exact Moves.ite_bind (fun _ => Moves.modify fun t => keeps_setOrder t _)
        (fun _ => Moves.pure _) b

theorem moves_cancel (clientOrderId : String) : Moves Keeps (cancel clientOrderId) := by
  refine Moves.bind_get fun b => ?_
  cases b.orders.get? clientOrderId with
  | none => exact Std.Refl.refl b
  | some order =>
      refine Moves.ite (fun _ => Moves.pure _) (fun _ => ?_) b
      refine Moves.bind (Moves.modify fun t => keeps_setOrder t _) fun _ => ?_
      exact Moves.bind (Moves.modify fun t => keeps_recordTxn t _ rfl) fun _ => Moves.pure _

theorem closeLots_le (inst : Instrument) (pos : PaperPosition) {lots : Option Dec}
    (h : 0 < closeLots inst pos lots) : closeLots inst pos lots ≤ pos.lots := by
  cases lots with
  | none => exact le_rfl
  | some l =>
      have hround : closeLots inst pos (some l) = inst.roundLotsDown (min l pos.lots) := rfl
      rw [hround] at h ⊢
      have hpos : 0 ≤ min l pos.lots := by
        by_contra hneg
        rw [inst.roundLotsDown_of_nonpos (not_le.1 hneg).le] at h
        exact lt_irrefl _ h
      exact (inst.roundLotsDown_le hpos).trans (min_le_right _ _)

theorem moves_closePosition (instrument : String) (lots : Option Dec) (reason : String)
    (slippagePips : Dec) : Moves Keeps (closePosition cfg instrument lots reason slippagePips) := by
  refine Moves.bind_get fun b => ?_
  cases hpos : b.positions.get? instrument with
  | none => exact Std.Refl.refl b
  | some pos =>
      cases hquote : b.quotes.get? instrument with
      | none => exact Std.Refl.refl b
      | some q =>
          cases hinst : cfg.instruments.get? instrument with
          | none => exact Std.Refl.refl b
          | some inst =>
              simp only
              split_ifs with hnone
              · exact Std.Refl.refl b
              · refine IsTrans.trans b _ _
                  (keeps_realise cfg inst (closePrice inst pos q slippagePips) _ b.nowNs reason hpos
                    (closeLots_le inst pos (not_le.1 hnone))) ?_
                refine Moves.bind_rest (R := Keeps) _ (fun _ => ?_) b
                refine Moves.bind (Moves.modify fun _ => keeps_of_eq rfl rfl rfl rfl rfl)
                  fun _ => ?_
                exact Moves.bind Moves.get fun _ => Moves.pure _

theorem moves_modifyPosition (instrument : String) (stopLoss takeProfit : Option Dec) :
    Moves Keeps (modifyPosition cfg instrument stopLoss takeProfit) := by
  refine Moves.bind_get fun b => ?_
  cases hpos : b.positions.get? instrument with
  | none => exact Std.Refl.refl b
  | some pos =>
      cases hinst : cfg.instruments.get? instrument with
      | none => exact Std.Refl.refl b
      | some inst =>
          simp only
          split
          · exact Std.Refl.refl b
          · let moved :=
              withStops pos (stopLoss.map inst.roundPrice) (takeProfit.map inst.roundPrice)
            have hheld : Keeps b (b.hold instrument moved) := keeps_hold hpos rfl rfl rfl rfl rfl
            refine IsTrans.trans b (b.hold instrument moved) _ hheld ?_
            rw [finalState_bind_modify]
            refine Moves.bind (R := Keeps) (Moves.modify fun t => ?_) (fun _ => Moves.pure _)
              (b.hold instrument moved)
            exact keeps_recordTxn t _ rfl

end Calls

/-! ## Runs -/

def Call.ChargedUnbooked (b : PaperBroker) : Call → Prop
  | .submit intent timeoutMs draws =>
      ∃ inst, PaperBroker.ChargedUnbooked cfg intent inst timeoutMs draws b
  | _ => False

theorem step_spec (hs : b.Sound) (call : Call) :
    (b.step cfg call).Sound ∧
      ((b.step cfg call).settled = b.settled ↔ ¬call.ChargedUnbooked cfg b) := by
  have hkeeps : ∀ b', Keeps b b' → b'.Sound ∧ (b'.settled = b.settled ↔ ¬False) :=
    fun b' h => ⟨h.sound hs, iff_of_true (h.settled hs) id⟩
  cases call with
  | setTime ns => exact hkeeps _ (moves_setTime ns b)
  | setConversion quoteCcy rate => exact hkeeps _ (moves_setConversion cfg quoteCcy rate b)
  | onQuote q tsNs slippagePips => exact hkeeps _ (moves_onQuote cfg q tsNs slippagePips b)
  | account => exact hkeeps _ (moves_account cfg b).toKeeps
  | submit intent timeoutMs draws => exact submit_spec cfg intent timeoutMs draws hs
  | queryOrder clientOrderId => exact hkeeps _ (moves_queryOrder clientOrderId b)
  | cancel clientOrderId => exact hkeeps _ (moves_cancel clientOrderId b)
  | closePosition instrument lots reason slippagePips =>
      exact hkeeps _ (moves_closePosition cfg instrument lots reason slippagePips b)
  | modifyPosition instrument stopLoss takeProfit =>
      exact hkeeps _ (moves_modifyPosition cfg instrument stopLoss takeProfit b)

theorem new_sound : (new cfg startingBalance startNs).Sound := by
  constructor
  · constructor
    · intro symbol p hp
      simp [new] at hp
    · intro r hr
      simp [new] at hr
    · rfl
  · intro symbol p hp
    simp [new] at hp

theorem settled_new : (new cfg startingBalance startNs).settled = startingBalance := by
  simp [new, settled, closedPnl, openCommission, openFinancing, resets]

/-- In every run the balance is accounted for and every position keeps its
initial risk, in each state reached, exactly when no order of the run is charged
for lots that it cannot close. -/
theorem conserved_run_iff (calls : List Call) :
    Along (step cfg)
        (fun b call =>
          (b.step cfg call).Conserved startingBalance ∧ (b.step cfg call).RiskKept)
        (new cfg startingBalance startNs) calls ↔
      Along (step cfg) (fun b call => ¬call.ChargedUnbooked cfg b)
        (new cfg startingBalance startNs) calls := by
  refine Along.iff_of_kept (I := fun b => b.Sound ∧ b.settled = startingBalance) ?_ ?_
    ⟨new_sound cfg startingBalance startNs, settled_new cfg startingBalance startNs⟩
  · rintro b call ⟨hs, -⟩ ⟨hconserved, -⟩
    exact ⟨(step_spec cfg hs call).1, (conserved_iff _ _).1 hconserved⟩
  · rintro b call ⟨hs, hsettled⟩
    obtain ⟨hsound, hiff⟩ := step_spec cfg hs call
    rw [conserved_iff, ← hsettled, hiff, and_iff_left hsound.riskKept]

def sterlingVenue : PaperSetup where
  instruments := Dict.empty.set "EUR_GBP" { symbol := "EUR_GBP", base := "EUR", quote := "GBP" }

def sterlingOrder (id : String) (side : Side) : OrderIntent where
  clientOrderId := id
  strategy := "trend"
  instrument := "EUR_GBP"
  side := side
  lots := 1 / 10
  accepted := by
    rw [IntentFields.postInit]
    rw [if_neg (by norm_num)]
    simp [IntentFields.StopBeyondTarget]

def sterlingRun : List Call :=
  [.onQuote { instrument := "EUR_GBP", bid := 86 / 100, ask := 8601 / 10000 } 0 0,
    .submit (sterlingOrder "in" .buy) 5000 ⟨85, false, 0⟩,
    .submit (sterlingOrder "out" .sell) 5000 ⟨85, false, 0⟩]

/-- The commission of the second order is in no trade and on no position. -/
theorem not_conserved_unconverted :
    ¬(sterlingRun.foldl (step sterlingVenue) (new sterlingVenue 10000 0)).Conserved 10000 := by
  have hmoney :
      (sterlingRun.foldl (step sterlingVenue) (new sterlingVenue 10000 0)).settled =
        10000 - 7 / 10 := by
    decide +kernel
  rw [conserved_iff, hmoney]
  norm_num

end PaperBroker

end Sentinel
