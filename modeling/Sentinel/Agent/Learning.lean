import Sentinel.Brokers.MetaTrader
import Sentinel.Brokers.MetaTraderHistory
import Sentinel.Brokers.OandaHistory

/-!
# Closed trades delivered to the agent

The agent keeps the cursor of its broker's history between two polls.  Both
live adapters hand over what lies above it, the OANDA adapter by the number a
trade got when it was opened, the MetaTrader adapter by the time of its last
deal among the deals of a window.
-/

namespace Sentinel

/-- `_closed_trades`: the trades, and the agent with the new cursor. -/
def Agent.closedTrades {ν : Type} (a : Agent) (broker : HistoryBroker ν) (v : ν) :
    List ClosedTrade × Agent :=
  if broker.supportsClosedTradeHistory = false then ([], a)
  else
    match broker.fetchClosedTrades v a.tradeCursor with
    | .error _ => ([], a)
    | .ok (trades, cursor) => (trades, { a with tradeCursor := cursor })

/-- The agent and the trades delivered to it so far. -/
structure Inbox where
  agent : Agent
  received : List ClosedTrade := []

namespace Inbox

variable {ν κ τ : Type}

def poll (broker : HistoryBroker ν) (s : Inbox) (v : ν) : Inbox :=
  let (trades, agent) := s.agent.closedTrades broker v
  ⟨agent, s.received ++ trades⟩

def receivedIds (s : Inbox) : List String := s.received.map ClosedTrade.tradeId

/-- After a poll that the venue answers, every id in `closed` was delivered,
and no id twice. -/
def DeliveredOnce (broker : HistoryBroker ν) (page : ν → String → Option (List κ))
    (closed : ν → List String) (s : Inbox) (v : ν) : Prop :=
  ∀ keys, page v s.agent.tradeCursor = some keys →
    (s.poll broker v).receivedIds.Nodup ∧ ∀ i ∈ closed v, i ∈ (s.poll broker v).receivedIds

/-! ## The reader behind an adapter -/

variable {decode : String → Option κ} {stamp : ClosedTrade → τ} {mark : κ → τ}
  {s : Inbox} {f : Feed κ}

structure Tracks (decode : String → Option κ) (stamp : ClosedTrade → τ) (mark : κ → τ)
    (s : Inbox) (f : Feed κ) : Prop where
  cursor : decode s.agent.tradeCursor = some f.cursor
  received : (s.received.map stamp).Perm (f.delivered.map mark)

theorem Tracks.receivedIds_perm (h : s.Tracks decode stamp mark f) (name : τ → String)
    (hname : ∀ t, name (stamp t) = t.tradeId) :
    s.receivedIds.Perm (f.delivered.map fun k => name (mark k)) := by
  have hperm := h.received.map name
  simpa [receivedIds, List.map_map, Function.comp_def, hname] using hperm

variable [LinearOrder κ] {broker : HistoryBroker ν}
  {page : ν → String → Option (List κ)} {v : ν}

theorem Tracks.poll (h : s.Tracks decode stamp mark f)
    (hreads : broker.Reads decode stamp mark page) {keys : List κ}
    (hkeys : page v s.agent.tradeCursor = some keys) :
    (s.poll broker v).Tracks decode stamp mark (f.poll keys) := by
  obtain ⟨trades, next, hfetch, hnext, hperm⟩ := hreads.answered v _ _ keys h.cursor hkeys
  have hpoll : s.poll broker v =
      ⟨{ s.agent with tradeCursor := next }, s.received ++ trades⟩ := by
    simp [Inbox.poll, Agent.closedTrades, hreads.supports, hfetch]
  rw [hpoll]
  refine ⟨hnext, ?_⟩
  rw [List.map_append, Feed.poll, List.map_append]
  exact h.received.append hperm

theorem Tracks.poll_unanswered (h : s.Tracks decode stamp mark f)
    (hreads : broker.Reads decode stamp mark page)
    (hkeys : page v s.agent.tradeCursor = none) : s.poll broker v = s := by
  rcases hreads.failed v _ _ h.cursor hkeys with ⟨message, hfetch⟩ | hfetch <;>
    simp [Inbox.poll, Agent.closedTrades, hreads.supports, hfetch]

theorem Tracks.above_iff (h : s.Tracks decode stamp mark f)
    (hmark : Function.Injective mark) {k : κ} :
    (∀ j ∈ f.delivered, j < k) ↔ ∀ t ∈ s.received, ∀ j, mark j = stamp t → j < k := by
  constructor
  · intro habove t ht j hj
    have hmem : stamp t ∈ f.delivered.map mark :=
      h.received.mem_iff.1 (List.mem_map_of_mem ht)
    obtain ⟨i, hi, hmi⟩ := List.mem_map.1 hmem
    exact hmark (hmi.trans hj.symm) ▸ habove i hi
  · intro habove j hj
    have hmem : mark j ∈ s.received.map stamp :=
      h.received.mem_iff.2 (List.mem_map_of_mem hj)
    obtain ⟨t, ht, hstamp⟩ := List.mem_map.1 hmem
    exact habove t ht j hstamp.symm

theorem Tracks.deliveredOnce_iff (h : s.Tracks decode stamp mark f)
    (hreads : broker.Reads decode stamp mark page) (v : ν) (name : τ → String)
    (hname : ∀ t, name (stamp t) = t.tradeId) (hmark : Function.Injective mark) {bottom : κ}
    (hsound : f.Sound bottom fun k => name (mark k))
    (hnext : ∀ keys, page v s.agent.tradeCursor = some keys →
      (f.poll keys).Sound bottom fun k => name (mark k))
    (closed : ν → List String) :
    s.DeliveredOnce broker page closed v ↔
      ∀ keys, page v s.agent.tradeCursor = some keys → ∀ i ∈ closed v, i ∉ s.receivedIds →
        ∃ k ∈ keys, name (mark k) = i ∧ bottom < k ∧
          ∀ t ∈ s.received, ∀ j, mark j = stamp t → j < k := by
  refine forall₂_congr fun keys hkeys => ?_
  have hafter := (h.poll hreads hkeys).receivedIds_perm name hname
  have hnodup : (s.poll broker v).receivedIds.Nodup :=
    hafter.nodup_iff.2 (hnext keys hkeys).nodup
  have hmem : ∀ i, i ∈ (s.poll broker v).receivedIds ↔
      i ∈ (f.poll keys).delivered.map fun k => name (mark k) := fun i => hafter.mem_iff
  have hbefore : ∀ i, i ∈ s.receivedIds ↔ i ∈ f.delivered.map fun k => name (mark k) :=
    fun i => (h.receivedIds_perm name hname).mem_iff
  simp only [hnodup, true_and, hmem, hbefore, hsound.complete_iff (closed v),
    h.above_iff hmark]

end Inbox

/-! ## OANDA -/

namespace Oanda

def DeliveredOnce : Inbox → History → Prop :=
  Inbox.DeliveredOnce historyBroker answeredIds fun v => v.closed.map toString

def OpenedAfter (s : Inbox) (v : History) : Prop :=
  ∀ ids, answeredIds v s.agent.tradeCursor = some ids →
    ∀ id ∈ v.closed, toString id ∉ s.receivedIds →
      id ∈ ids ∧ ∀ t ∈ s.received, ∀ n : ℕ, toString n = t.tradeId → n < id

def Tracked (s : Inbox) : Prop :=
  ∃ f : Feed ℕ, s.Tracks (fun text => some (readCursor text)) ClosedTrade.tradeId toString f ∧
    f.Sound 0 (toString : ℕ → String)

theorem sound_poll {f : Feed ℕ} (hf : f.Sound 0 (toString : ℕ → String)) {v : History}
    {text : String} {ids : List ℕ} (hids : answeredIds v text = some ids) :
    (f.poll ids).Sound 0 (toString : ℕ → String) := by
  refine hf.poll (List.Nodup.map toString_injective ?_) fun j _ k _ hkj =>
    toString_injective hkj
  cases hrows : v.trades (closedQuery text) with
  | error e =>
      rw [answeredIds, hrows] at hids
      cases hids
  | ok rows =>
      rw [answeredIds, hrows] at hids
      exact Option.some.inj hids ▸ v.listedOnce _ rows hrows

theorem Tracked.poll {s : Inbox} (h : Tracked s) (v : History) :
    Tracked (s.poll historyBroker v) := by
  obtain ⟨f, htracks, hsound⟩ := h
  cases hids : answeredIds v s.agent.tradeCursor with
  | none =>
      rw [htracks.poll_unanswered historyBroker_reads hids]
      exact ⟨f, htracks, hsound⟩
  | some ids =>
      exact ⟨f.poll ids, htracks.poll historyBroker_reads hids, sound_poll hsound hids⟩

theorem Tracked.deliveredOnce_iff {s : Inbox} (h : Tracked s) (v : History) :
    DeliveredOnce s v ↔ OpenedAfter s v := by
  obtain ⟨f, htracks, hsound⟩ := h
  have hpoll := htracks.deliveredOnce_iff historyBroker_reads v id (fun _ => rfl)
    toString_injective hsound (fun _ hids => sound_poll hsound hids)
    (fun v => v.closed.map toString)
  refine hpoll.trans (forall₂_congr fun ids _ => ?_)
  rw [List.forall_mem_map]
  refine forall₂_congr fun id hid => imp_congr_right fun _ => ?_
  constructor
  · rintro ⟨k, hk, hident, -, habove⟩
    obtain rfl : k = id := toString_injective hident
    exact ⟨hk, habove⟩
  · rintro ⟨hk, habove⟩
    exact ⟨id, hk, rfl, v.closed_pos id hid, habove⟩

theorem mem_receivedIds {s : Inbox} {f : Feed ℕ}
    (h : s.Tracks (fun text => some (readCursor text)) ClosedTrade.tradeId toString f) (k : ℕ) :
    toString k ∈ s.receivedIds ↔ k ∈ f.delivered := by
  rw [(h.receivedIds_perm id fun _ => rfl).mem_iff]
  exact List.mem_map_of_injective toString_injective

def Skipped (s : Inbox) (k : ℕ) : Prop :=
  toString k ∉ s.receivedIds ∧ ∃ n : ℕ, k ≤ n ∧ toString n ∈ s.receivedIds

theorem Tracked.skipped_run {s : Inbox} (h : Tracked s) {k : ℕ} (hk : Skipped s k)
    (polls : List History) : Skipped (polls.foldl (Inbox.poll historyBroker) s) k := by
  induction polls generalizing s with
  | nil => exact hk
  | cons v polls ih =>
      refine ih (h.poll v) ?_
      obtain ⟨f, htracks, hsound⟩ := h
      cases hids : answeredIds v s.agent.tradeCursor with
      | none => rwa [htracks.poll_unanswered historyBroker_reads hids]
      | some ids =>
          have hafter := htracks.poll historyBroker_reads hids
          obtain ⟨hout, n, hkn, hn⟩ := hk
          rw [mem_receivedIds htracks] at hout hn
          have hcursor : k ≤ f.cursor := hkn.trans (hsound.le_cursor hn)
          refine ⟨?_, n, hkn, ?_⟩
          · rw [mem_receivedIds hafter]
            exact (Feed.lost_poll hcursor hout ids).2
          · rw [mem_receivedIds hafter]
            exact List.mem_append_left _ hn

end Oanda

/-! ## MetaTrader -/

namespace MetaTrader

/-- A position that is not open and whose deals make a whole round trip gets
no further deal. -/
def History.KeepsClosed (v w : History) : Prop :=
  ∀ book, v.positionsGet = some book → ∀ pid ∉ book.map OpenRow.openId,
    ∀ cursor, v.Whole (inOrder (v.dealsSince cursor pid)) →
      ofPosition w.deals pid = ofPosition v.deals pid

def DeliveredOnce : Inbox → History → Prop :=
  Inbox.DeliveredOnce historyBroker answeredTrips fun v =>
    v.closed.map fun key => tripId (ofLex key).2

/-- Every round trip that was closed and not received before is whole among
the deals of the window, and its last deal is after those of all trades
received before (in the same millisecond the position ids decide). -/
def ClosedAfter (s : Inbox) (v : History) : Prop :=
  ∀ keys, answeredTrips v s.agent.tradeCursor = some keys →
    ∀ key ∈ v.closed, tripId (ofLex key).2 ∉ s.receivedIds →
      (∀ cursor ∈ readCursor s.agent.tradeCursor,
        v.Whole (inOrder (v.dealsSince cursor (ofLex key).2))) ∧
      ∀ t ∈ s.received, ∀ j, keyStamp j = tradeStamp t → j < key

def History.recordedKey (v : History) (pid : ℕ) : TripKey :=
  tripKey (inOrder (ofPosition v.deals pid)) pid

def Tracked (s : Inbox) (polls : List History) : Prop :=
  ∃ f : Feed TripKey, s.Tracks readCursor tradeStamp keyStamp f ∧
    f.Sound (toLex (0, 0)) (fun key => (keyStamp key).2) ∧
    polls.Pairwise History.KeepsClosed ∧
    ∀ w ∈ polls, ∀ j ∈ f.delivered, w.recordedKey (ofLex j).2 = j

theorem sound_poll {f : Feed TripKey}
    (hf : f.Sound (toLex (0, 0)) fun key => (keyStamp key).2) {v : History} {text : String}
    (hcursor : readCursor text = some f.cursor)
    (hkept : ∀ j ∈ f.delivered, v.recordedKey (ofLex j).2 = j) {keys : List TripKey}
    (hkeys : answeredTrips v text = some keys) :
    (f.poll keys).Sound (toLex (0, 0)) fun key => (keyStamp key).2 := by
  obtain ⟨book, hbook, hmem⟩ := mem_answeredTrips hcursor hkeys
  refine hf.poll ?_ ?_
  · rw [answeredTrips, hcursor, Option.bind_some, Option.bind_eq_some_iff] at hkeys
    obtain ⟨deals, -, hmap⟩ := hkeys
    obtain ⟨_, -, rfl⟩ := Option.map_eq_some_iff.1 hmap
    exact nodup_trips v _ deals
  · intro j hj k hk hkj
    have hpid : (ofLex k).2 = (ofLex j).2 := tripId_injective hkj
    rw [((hmem k).1 hk).2.2.2, hpid]
    exact hkept j hj

theorem Tracked.poll {s : Inbox} {v : History} {polls : List History}
    (h : Tracked s (v :: polls)) : Tracked (s.poll historyBroker v) polls := by
  obtain ⟨f, htracks, hsound, hpolls, hkept⟩ := h
  rw [List.pairwise_cons] at hpolls
  rw [List.forall_mem_cons] at hkept
  cases hkeys : answeredTrips v s.agent.tradeCursor with
  | none =>
      rw [htracks.poll_unanswered historyBroker_reads hkeys]
      exact ⟨f, htracks, hsound, hpolls.2, hkept.2⟩
  | some keys =>
      refine ⟨f.poll keys, htracks.poll historyBroker_reads hkeys,
        sound_poll hsound htracks.cursor hkept.1 hkeys, hpolls.2, ?_⟩
      intro w hw j hj
      rcases List.mem_append.1 hj with hold | hnew
      · exact hkept.2 w hw j hold
      · obtain ⟨book, hbook, hmem⟩ := mem_answeredTrips htracks.cursor hkeys
        obtain ⟨-, hopen, hwhole, hkey⟩ := (hmem j).1 (Feed.mem_fresh.1 hnew).1
        have hsame := hpolls.1 w hw book hbook _ hopen _ hwhole
        rw [History.recordedKey, hsame]
        exact hkey.symm

theorem mem_closed {v : History} {book : List OpenRow} (hbook : v.positionsGet = some book)
    {key : TripKey} :
    key ∈ v.closed ↔ (ofLex key).2 ≠ 0 ∧ (ofLex key).2 ∉ book.map OpenRow.openId ∧
      v.Whole (inOrder (ofPosition v.deals (ofLex key).2)) ∧
      key = v.recordedKey (ofLex key).2 := by
  rw [History.closed, hbook]
  exact mem_trips

theorem bottom_lt {key : TripKey} (h : (ofLex key).2 ≠ 0) : toLex (0, 0) < key := by
  rw [Prod.Lex.lt_iff]
  rcases Nat.eq_zero_or_pos (ofLex key).1 with hzero | hpos
  · exact .inr ⟨hzero.symm, Nat.pos_of_ne_zero h⟩
  · exact .inl hpos

theorem Tracked.deliveredOnce_iff {s : Inbox} {v : History} {polls : List History}
    (h : Tracked s (v :: polls)) : DeliveredOnce s v ↔ ClosedAfter s v := by
  obtain ⟨f, htracks, hsound, -, hkept⟩ := h
  have hpoll := htracks.deliveredOnce_iff historyBroker_reads v Prod.snd (fun _ => rfl)
    keyStamp_injective hsound
    (fun _ hkeys => sound_poll hsound htracks.cursor (hkept v (by simp)) hkeys)
    (fun v => v.closed.map fun key => tripId (ofLex key).2)
  refine hpoll.trans (forall₂_congr fun keys hkeys => ?_)
  obtain ⟨book, hbook, hmem⟩ := mem_answeredTrips htracks.cursor hkeys
  rw [List.forall_mem_map]
  refine forall₂_congr fun key hkey => imp_congr_right fun _ => ?_
  obtain ⟨hpid, hopen, -, hrecorded⟩ := (mem_closed hbook).1 hkey
  rw [htracks.cursor]
  constructor
  · rintro ⟨k, hk, hident, -, habove⟩
    have hkpid : (ofLex k).2 = (ofLex key).2 := tripId_injective hident
    obtain ⟨-, -, hwhole, hkrecorded⟩ := (hmem k).1 hk
    have hkkey : k = key := by
      rw [hkrecorded, hkpid]
      exact hrecorded.symm
    subst hkkey
    refine ⟨?_, habove⟩
    rintro cursor ⟨⟩
    exact hwhole
  · rintro ⟨hwhole, habove⟩
    exact ⟨key, (hmem key).2 ⟨hpid, hopen, hwhole f.cursor rfl, hrecorded⟩, rfl,
      bottom_lt hpid, habove⟩

end MetaTrader

/-! ## Every closed trade, once -/

def oandaClosed (ids : List ℕ) (hpos : ∀ id ∈ ids, 0 < id) (hids : ids.Nodup) :
    Oanda.History where
  trades _ := .ok (ids.map fun id => { id := some id })
  closed := ids
  closed_pos := hpos
  listedOnce := by
    rintro _ rows ⟨⟩
    simpa [List.filterMap_map, Function.comp_def] using hids

def dealOn (day ticket positionId : ℕ) (entry : MetaTrader.DealEntry) : MetaTrader.Deal where
  ticket := ticket
  timeMsc := day * 86400000
  positionId := positionId
  entry := entry
  isBuy := decide (entry = .entryIn)
  symbol := "EURUSD"
  volume := 1
  price := 11 / 10

def recorded (deals : List MetaTrader.Deal) (openIds : List ℕ) : MetaTrader.History where
  magic := 0
  instruments := .ofEntries [("EURUSD", euro)]
  historyDealsGet lower := some (deals.filter fun d => lower ≤ d.timeMsc)
  positionsGet := some (openIds.map fun ticket => { ticket })
  deals := deals
  get_eq _ _ h := (Option.some.inj h).symm

def earlyDeals : List MetaTrader.Deal :=
  [dealOn 11000 1 1 .entryIn, dealOn 11049 2 2 .entryIn, dealOn 11050 3 2 .entryOut]

def lateDeal : MetaTrader.Deal := dealOn 11060 4 1 .entryOut

def whileOpen : MetaTrader.History := recorded earlyDeals [1]

def afterClose : MetaTrader.History := recorded (earlyDeals ++ [lateDeal]) []

@[simp] theorem answeredIds_oandaClosed (ids : List ℕ) (hpos : ∀ id ∈ ids, 0 < id)
    (hids : ids.Nodup) (text : String) :
    Oanda.answeredIds (oandaClosed ids hpos hids) text = some ids := by
  simp [Oanda.answeredIds, oandaClosed, List.filterMap_map]

theorem oanda_received_first (ids : List ℕ) (hpos : ∀ id ∈ ids, 0 < id) (hids : ids.Nodup) :
    (Inbox.poll Oanda.historyBroker ⟨{}, []⟩ (oandaClosed ids hpos hids)).receivedIds.Perm
      (ids.map toString) := by
  have hfirst : Inbox.Tracks (fun text => some (Oanda.readCursor text)) ClosedTrade.tradeId
      toString ⟨{}, []⟩ (⟨0, []⟩ : Feed ℕ) := ⟨rfl, .nil⟩
  have hperm := (hfirst.poll Oanda.historyBroker_reads
    (answeredIds_oandaClosed ids hpos hids "")).receivedIds_perm id fun _ => rfl
  have hdelivered : ((⟨0, []⟩ : Feed ℕ).poll ids).delivered = ids :=
    List.filter_eq_self.2 (by simpa using hpos)
  rwa [hdelivered] at hperm

theorem trips_whileOpen : whileOpen.trips [1] earlyDeals = [toLex (11050 * 86400000, 2)] := by
  rw [MetaTrader.trips_of_pairwise (by decide)]
  decide +kernel

theorem answeredTrips_whileOpen :
    MetaTrader.answeredTrips whileOpen "" = some [toLex (11050 * 86400000, 2)] := by
  have hdeals : (earlyDeals.filter fun d => (946684800000 : ℤ) ≤ d.timeMsc) = earlyDeals :=
    List.filter_eq_self.2 (by decide)
  rw [MetaTrader.answeredTrips, MetaTrader.readCursor_empty, Option.bind_some]
  simp only [whileOpen, recorded, MetaTrader.windowStart, ofLex_toLex, if_pos, hdeals]
  exact congrArg some trips_whileOpen

theorem mem_closed_afterClose :
    (toLex (11060 * 86400000, 1) : MetaTrader.TripKey) ∈ afterClose.closed := by
  have htrips : afterClose.closed = afterClose.trips [] (earlyDeals ++ [lateDeal]) := rfl
  rw [htrips, MetaTrader.trips_of_pairwise (by decide)]
  decide +kernel

theorem answeredTrips_afterClose {text : String} {cursor : MetaTrader.TripKey}
    (h : MetaTrader.readCursor text = some cursor) :
    ∃ keys, MetaTrader.answeredTrips afterClose text = some keys := by
  rw [MetaTrader.answeredTrips, h]
  exact ⟨_, rfl⟩

/-- Polled from the start, an adapter delivers every round trip once exactly
when, at each poll the venue answers, every trip that was closed since is in
the answer and lies, in the order of the adapter's cursor, after all trips
delivered before. -/
theorem closedTrades_deliveredOnce_iff (agent : Agent) (hstart : agent.tradeCursor = "")
    (oandaPolls : List Oanda.History) (mt5Polls : List MetaTrader.History)
    (hkept : mt5Polls.Pairwise MetaTrader.History.KeepsClosed) :
    (Along (Inbox.poll Oanda.historyBroker) Oanda.DeliveredOnce ⟨agent, []⟩ oandaPolls ↔
      Along (Inbox.poll Oanda.historyBroker) Oanda.OpenedAfter ⟨agent, []⟩ oandaPolls) ∧
    (Along (Inbox.poll MetaTrader.historyBroker) MetaTrader.DeliveredOnce ⟨agent, []⟩
        mt5Polls ↔
      Along (Inbox.poll MetaTrader.historyBroker) MetaTrader.ClosedAfter ⟨agent, []⟩
        mt5Polls) := by
  constructor
  · have hfirst : Oanda.Tracked ⟨agent, []⟩ :=
      ⟨⟨0, []⟩, ⟨by rw [hstart]; rfl, .nil⟩, .start 0 _⟩
    exact Along.iff_of_invariant (I := fun s _ => Oanda.Tracked s)
      (fun s v _ h => h.poll v) (fun s v _ h => h.deliveredOnce_iff v) hfirst
  · have hfirst : MetaTrader.Tracked ⟨agent, []⟩ mt5Polls :=
      ⟨⟨toLex (0, 0), []⟩, ⟨by rw [hstart]; simp, .nil⟩, .start _ _, hkept, by simp⟩
    exact Along.iff_of_invariant (I := MetaTrader.Tracked)
      (fun _ _ _ h => h.poll) (fun _ _ _ h => h.deliveredOnce_iff) hfirst

theorem closedTrades_deliveredOnce_iff_inOrder :
    Along (Inbox.poll Oanda.historyBroker) Oanda.DeliveredOnce ⟨{}, []⟩
      [oandaClosed [3] (by decide) (by decide), oandaClosed [3, 5] (by decide) (by decide)] ∧
    Along (Inbox.poll MetaTrader.historyBroker) MetaTrader.DeliveredOnce ⟨{}, []⟩
      [whileOpen] := by
  obtain ⟨hoanda, hmt5⟩ := closedTrades_deliveredOnce_iff {} rfl
    [oandaClosed [3] (by decide) (by decide), oandaClosed [3, 5] (by decide) (by decide)]
    [whileOpen] (List.pairwise_singleton _ _)
  refine ⟨hoanda.2 ⟨?_, ?_, trivial⟩, hmt5.2 ⟨?_, trivial⟩⟩
  · intro ids hids id hid _
    obtain rfl : [3] = ids := by simpa using hids
    exact ⟨hid, by simp⟩
  · intro ids hids id hid hnew
    obtain rfl : [3, 5] = ids := by simpa using hids
    refine ⟨hid, fun t ht n hn => ?_⟩
    have hreceived := oanda_received_first [3] (by decide) (by decide)
    have hid : id = 3 ∨ id = 5 := by simpa [oandaClosed] using hid
    rcases hid with rfl | rfl
    · exact absurd (hreceived.mem_iff.2 (by simp)) hnew
    · have hmem := hreceived.mem_iff.1 (List.mem_map_of_mem ht)
      rw [← hn, List.map_singleton, List.mem_singleton] at hmem
      exact toString_injective hmem ▸ (by decide)
  · intro keys hkeys key hkey _
    have hclosed : key ∈ whileOpen.trips [1] earlyDeals := hkey
    rw [trips_whileOpen] at hclosed
    obtain ⟨_, _, hmem⟩ := MetaTrader.mem_answeredTrips MetaTrader.readCursor_empty
      answeredTrips_whileOpen
    refine ⟨?_, by simp⟩
    intro cursor hcursor
    obtain rfl : toLex (0, 0) = cursor := by simpa using hcursor
    exact ((hmem key).1 hclosed).2.2.1

/-- On OANDA trade 5 is delivered before trade 3 closes, and no later poll
delivers trade 3.  On MetaTrader position 1 was open for sixty days. -/
theorem not_closedTrades_deliveredOnce_lateClose :
    ¬Along (Inbox.poll Oanda.historyBroker) Oanda.DeliveredOnce ⟨{}, []⟩
      [oandaClosed [5] (by decide) (by decide), oandaClosed [3, 5] (by decide) (by decide)] ∧
    (∀ later : List Oanda.History, toString 3 ∉
      (later.foldl (Inbox.poll Oanda.historyBroker) (Inbox.poll Oanda.historyBroker ⟨{}, []⟩
        (oandaClosed [5] (by decide) (by decide)))).receivedIds) ∧
    ¬Along (Inbox.poll MetaTrader.historyBroker) MetaTrader.DeliveredOnce ⟨{}, []⟩
      [whileOpen, afterClose] := by
  have hstart : Oanda.Tracked ⟨{}, []⟩ := ⟨⟨0, []⟩, ⟨rfl, .nil⟩, .start 0 _⟩
  have hreceived := oanda_received_first [5] (by decide) (by decide)
  have hskipped : Oanda.Skipped (Inbox.poll Oanda.historyBroker ⟨{}, []⟩
      (oandaClosed [5] (by decide) (by decide))) 3 := by
    refine ⟨?_, 5, by decide, hreceived.mem_iff.2 (by simp)⟩
    rw [hreceived.mem_iff]
    decide
  refine ⟨?_, fun later => ((hstart.poll _).skipped_run hskipped later).1, ?_⟩
  · rintro ⟨-, hsecond, -⟩
    have hall := (hsecond [3, 5] (by simp)).2 (toString 3)
      (List.mem_map.2 ⟨3, by simp [oandaClosed], rfl⟩)
    have hlost := ((hstart.poll _).skipped_run hskipped
      [oandaClosed [3, 5] (by decide) (by decide)]).1
    rw [List.foldl_cons, List.foldl_nil] at hlost
    exact hlost hall
  · rintro ⟨-, hsecond, -⟩
    have hfirst : Inbox.Tracks MetaTrader.readCursor MetaTrader.tradeStamp MetaTrader.keyStamp
        ⟨{}, []⟩ (⟨toLex (0, 0), []⟩ : Feed MetaTrader.TripKey) :=
      ⟨MetaTrader.readCursor_empty, .nil⟩
    have hpolled := hfirst.poll MetaTrader.historyBroker_reads answeredTrips_whileOpen
    obtain ⟨keys, hkeys⟩ := answeredTrips_afterClose hpolled.cursor
    have hall := (hsecond keys hkeys).2 (MetaTrader.tripId 1)
      (List.mem_map.2 ⟨_, mem_closed_afterClose, rfl⟩)
    rw [((hpolled.poll MetaTrader.historyBroker_reads hkeys).receivedIds_perm Prod.snd
      fun _ => rfl).mem_iff] at hall
    obtain ⟨key, hkey, hident⟩ := List.mem_map.1 hall
    have hpid : (ofLex key).2 = 1 := MetaTrader.tripId_injective hident
    rcases List.mem_append.1 hkey with hbefore | hnew
    · rcases List.mem_append.1 hbefore with hnil | hfresh
      · exact List.not_mem_nil hnil
      · rw [List.mem_singleton.1 (Feed.mem_fresh.1 hfresh).1] at hpid
        exact absurd hpid (by decide)
    · obtain ⟨_, _, hmem⟩ := MetaTrader.mem_answeredTrips hpolled.cursor hkeys
      have hwhole := ((hmem key).1 (Feed.mem_fresh.1 hnew).1).2.2.1
      -- only the closing deal is in the window
      have hcursor : ((⟨toLex (0, 0), []⟩ : Feed MetaTrader.TripKey).poll
          [toLex (11050 * 86400000, 2)]).cursor = toLex (11050 * 86400000, 2) := by decide
      have hwindow : afterClose.dealsSince (toLex (11050 * 86400000, 2)) 1 = [lateDeal] := rfl
      rw [hpid, hcursor, hwindow,
        MetaTrader.inOrder_of_pairwise (List.pairwise_singleton _ lateDeal)] at hwhole
      exact hwhole.1 rfl

end Sentinel
