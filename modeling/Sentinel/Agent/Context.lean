import Sentinel.Agent.Periods
import Sentinel.Execution.OrderManager
import Sentinel.Research.Verdicts
import Sentinel.Risk.Engine
import Sentinel.Risk.GroupLedger

/-!
# The context of an entry

`_build_context` and what it reads: the snapshot of the feed, the rates of the
quote currencies, the independent price check, the usual spreads, the standing
news assessment, and the agent's own counters.  What the venue, the feed, the
brain and the kill file answer during one call is one record.
-/

namespace Sentinel

/-! ## The snapshot of the feed -/

/-- What `feed.snapshot` meets for one symbol: the quote, `none` when
`broker.quote` raises, with its two stamps, and the passport of the frame. -/
structure FeedRow where
  quote : Option Quote := none
  /-- `ts_ns`, zero when the venue stamps nothing -/
  quoteNs : ℤ := 0
  receivedNs : ℤ := 0
  passportQuality : DataQuality := .ok
  passportAge : Dec := 0

namespace FeedRow

def age (row : FeedRow) (nowNs : ℤ) : Dec :=
  match row.quote with
  | none => row.passportAge
  | some _ =>
      let venueAge : Dec :=
        if row.quoteNs = 0 then 0 else ((nowNs - row.quoteNs : ℤ) : Dec) / 1000000000
      max (((nowNs - row.receivedNs : ℤ) : Dec) / 1000000000) venueAge

def quality (row : FeedRow) (nowNs : ℤ) : DataQuality :=
  match row.quote with
  | none => .gap
  | some _ =>
      if row.quoteNs ≠ 0 ∧ nowNs + 2000000000 < row.quoteNs then .suspect
      else row.passportQuality

end FeedRow

structure FeedSnapshot where
  quotes : Dict String Quote
  ages : Dict String Dec
  quality : Dict String DataQuality

def feedSnapshot (feed : String → FeedRow) (symbols : List String) (nowNs : ℤ) :
    FeedSnapshot where
  quotes := .ofEntries (symbols.filterMap fun symbol =>
    (feed symbol).quote.map fun quote => (symbol, quote))
  ages := .ofEntries (symbols.map fun symbol => (symbol, (feed symbol).age nowNs))
  quality := .ofEntries (symbols.map fun symbol => (symbol, (feed symbol).quality nowNs))

/-! ## Settings, answers and standing state -/

structure EntrySettings where
  risk : RiskConfig := {}
  accountCurrency : String := "USD"
  commissionPerLotRoundTurn : Dec := 7
  expectedSlippagePips : Dec := 15 / 100
  venueMode : ExecutionVenueMode := .paper
  mode : AgentMode := .advisory
  manualTradingLive : Bool := false
  /-- 0 is Monday -/
  tradeDays : List ℤ := [0, 1, 2, 3, 4]
  sessionWindowsUtc : List (ℤ × ℤ) := [(7, 16)]
  envelopeInstruments : List String := ["EUR_USD", "GBP_USD", "USD_JPY"]
  envelopeMaxLots : Dec := 1 / 5
  envelopeMaxRiskPct : Dec := 1 / 2
  strategies : List (StrategyAllocation Unit) := []

/-- What `news.assess` says of an instrument. -/
structure NewsAssessment where
  blocked : Bool := false
  sizeMultiplier : Dec := 1
  reasons : List String := []

inductive ReferenceStatus where
  | ok
  | shrink
  | block
  | stale
  | delayed
  | closed
  | unavailable
  | unmapped
  | noBrokerQuote
  deriving DecidableEq

structure ReferenceCheck where
  status : ReferenceStatus := .ok
  reason : String := ""
  sizeMultiplier : Dec := 1

def ReferenceCheck.blocked (c : ReferenceCheck) : Bool := c.status = .block

/-- The independent price check: whether it is switched on and has a stream,
and what `_check_one` makes of an instrument's quote, `none` when it raises. -/
structure ReferenceGuard where
  enabled : Bool
  check : String → Option ReferenceCheck

/-- `assess`, on the symbols of the quotes; it raises when one check does. -/
def ReferenceGuard.assess (g : ReferenceGuard) (symbols : List String) :
    Option (Dict String ReferenceCheck) :=
  if !g.enabled then some .empty
  else if symbols.all fun symbol => (g.check symbol).isSome then
    some (.ofEntries (symbols.filterMap fun symbol =>
      (g.check symbol).map fun c => (symbol, c)))
  else none

inductive SessionBucket where
  | asia
  | london
  | rollover
  deriving DecidableEq

def sessionBucket (nowNs : ℤ) : SessionBucket :=
  let hour := nowNs / 3600000000000 % 24
  if 20 ≤ hour ∧ hour < 22 then .rollover
  else if 7 ≤ hour ∧ hour < 17 then .london
  else .asia

abbrev SpreadHistory := Dict (String × SessionBucket) (BoundedList 500 Dec)

/-- A queued decision, as far as `accept_advice` reads it. -/
structure Proposal where
  clientOrderId : String
  strategy : String
  instrument : String
  side : Side
  lots : Option Dec := none
  stop : Option Dec := none
  target : Option Dec := none
  tsNs : ℤ := 0
  /-- `horizon_bars` and `timeframe` of the diagnostics -/
  horizon : Option (ℕ × String) := none
  cautionMultiplier : Dec := 1

structure EntryDesk where
  agent : Agent
  oms : OrderManager
  /-- `_news_assessment` -/
  news : Dict String NewsAssessment := .empty
  /-- `_reference_checks` -/
  checks : Dict String ReferenceCheck := .empty
  spreads : SpreadHistory := .empty
  /-- the name and the risk multiplier of the regime -/
  regime : Option (String × Dec) := none
  /-- `_group_view` -/
  group : Option GroupView := none
  /-- `_advisory_queue` -/
  queue : List Proposal := []

structure Surroundings where
  /-- `now()` as the usual spreads read it -/
  clockNs : ℤ
  account : AccountState
  /-- `broker.positions()` -/
  positions : List Position := []
  instruments : Dict String Instrument
  /-- `broker.conversion_rate` to the account currency, `none` when it raises -/
  conversionRate : String → Option Dec := fun _ => none
  minStopDistance : String → Option Dec := fun _ => none
  feed : String → FeedRow
  connected : Bool := true
  clockSkewMs : Option Dec := none
  offlineSeconds : Dec := 0
  reference : Option ReferenceGuard := none
  cooldowns : Dict String String := .empty
  stressScenarios : Dict String Dec := .empty
  stressLimitPct : Dec := 0
  /-- `kill.read().engaged` -/
  killEngaged : Bool := false

/-! ## The parts of `_build_context` -/

variable (s : EntrySettings) (w : Surroundings)

def convertOne (found : Dict String Dec × List String)
    (symbol : String) : Dict String Dec × List String :=
  match w.instruments.get? symbol with
  | none => found
  | some inst =>
      if inst.quote = s.accountCurrency then (found.1.set inst.quote 1, found.2)
      else
        match (w.conversionRate inst.quote).filter fun rate => 0 < rate with
        | some rate => (found.1.set inst.quote rate, found.2)
        | none => (found.1.erase inst.quote, found.2 ++ [inst.quote])

/-- `conversions` and `missing`. -/
def convertQuotes (symbols : List String) : Dict String Dec × List String :=
  symbols.foldl (convertOne s w) (.empty, [])

variable (checks : Dict String ReferenceCheck)

/-- The stored checks after the guard saw the quotes of `symbols`: replaced,
never accumulated, and cleared when the guard raises. -/
def refreshChecks (reference : Option ReferenceGuard)
    (symbols : List String) : Dict String ReferenceCheck :=
  match reference with
  | none => checks
  | some guard =>
      if symbols.isEmpty then checks
      else
        match guard.assess symbols with
        | none => .empty
        | some fresh =>
            symbols.foldl
              (fun d symbol =>
                match fresh.get? symbol with
                | some c => d.set symbol c
                | none => d.erase symbol)
              checks

def observeSpread (h : SpreadHistory) (clockNs : ℤ) (symbol : String) (spread : Dec) :
    SpreadHistory :=
  if spread ≤ 0 then h
  else
    let key := (symbol, sessionBucket clockNs)
    h.set key ((h.getD key .empty).push spread)

def medianSpread (window : List Dec) : Dec :=
  let ordered := window.insertionSort (· ≤ ·)
  let mid := ordered.length / 2
  if ordered.length % 2 = 1 then ordered.getD mid 0
  else (ordered.getD (mid - 1) 0 + ordered.getD mid 0) / 2

/-- `_normal_spread`: the live value until there are thirty samples. -/
def normalSpread (h : SpreadHistory) (clockNs : ℤ) (symbol : String) (live : Dec) : Dec :=
  match h.get? (symbol, sessionBucket clockNs) with
  | none => live
  | some window =>
      if window.items.length < 30 then live
      else
        let median := medianSpread window.items
        if 0 < median then median else live

structure SpreadView where
  history : SpreadHistory
  normal : Dict String Dec := .empty
  costs : Dict String CostModel := .empty

def spreadOne (v : SpreadView) (entry : String × Quote) : SpreadView :=
  match w.instruments.get? entry.1 with
  | none => v
  | some inst =>
      let spread := entry.2.spreadPips inst
      let history := observeSpread v.history w.clockNs entry.1 spread
      { history
        normal := v.normal.set entry.1 (normalSpread history w.clockNs entry.1 spread)
        costs := v.costs.set entry.1
          { spreadPips := spread
            commissionPerLotRoundTurn := s.commissionPerLotRoundTurn
            slippagePipsMedian := s.expectedSlippagePips } }

def viewSpreads (history : SpreadHistory) (quotes : Dict String Quote) : SpreadView :=
  quotes.items.foldl (spreadOne s w) { history }

/-- `_venue_stop_floors`, in pips. -/
def venueStopFloors (w : Surroundings) : Dict String Dec :=
  .ofEntries (w.instruments.items.filterMap fun (symbol, inst) =>
    match w.minStopDistance symbol with
    | none => none
    | some distance => if distance = 0 then none else some (symbol, distance / inst.pip))

def NewsAssessment.blackout? (a : NewsAssessment) : Option String :=
  if a.blocked then some (String.ofList (("; ".intercalate a.reasons).toList.take 180))
  else none

/-- `news_blackout`. -/
def newsBlackouts (news : Dict String NewsAssessment) : Dict String String :=
  .ofEntries (news.items.filterMap fun kv =>
    kv.2.blackout?.map fun text => (kv.1, text))

def ReferenceCheck.divergence? (c : ReferenceCheck) : Option String :=
  if c.blocked then some (String.ofList (c.reason.toList.take 240)) else none

/-- `price_divergence`. -/
def divergences : Dict String String :=
  .ofEntries (checks.items.filterMap fun kv =>
    kv.2.divergence?.map fun text => (kv.1, text))

theorem divergences_get? (k : String) :
    (divergences checks).get? k = (checks.get? k).bind ReferenceCheck.divergence? :=
  Dict.get?_ofEntries_filterMap checks (fun _ c => c.divergence?) k

/-- `_base`: a baseline of zero was not captured yet. -/
def periodBase (value equity : Dec) : Dec := if 0 < value then value else equity

/-! ### What one symbol's entries are

The context's maps are read at one instrument: what stands under it does not
depend on the other symbols of the snapshot. -/

section Snapshot

variable (feed : String → FeedRow) (symbols : List String) (nowNs : ℤ) (k : String)

theorem feedSnapshot_quote : (feedSnapshot feed symbols nowNs).quotes.get? k =
    if k ∈ symbols then (feed k).quote else none :=
  Dict.get?_ofEntries_keys symbols (fun symbol => (feed symbol).quote) k

theorem feedSnapshot_age : (feedSnapshot feed symbols nowNs).ages.get? k =
    if k ∈ symbols then some ((feed k).age nowNs) else none :=
  Dict.get?_ofEntries_map symbols (fun symbol => (feed symbol).age nowNs) k

theorem feedSnapshot_quality : (feedSnapshot feed symbols nowNs).quality.get? k =
    if k ∈ symbols then some ((feed k).quality nowNs) else none :=
  Dict.get?_ofEntries_map symbols (fun symbol => (feed symbol).quality nowNs) k

end Snapshot

section Lookups

variable (s : EntrySettings) (w : Surroundings)

def quoteRate (currency : String) : Option Dec :=
  if currency = s.accountCurrency then some 1
  else (w.conversionRate currency).filter fun rate => 0 < rate

theorem convertQuotes_get? (symbols : List String) (currency : String) :
    (convertQuotes s w symbols).1.get? currency =
      if ∃ symbol ∈ symbols, ∃ inst, w.instruments.get? symbol = some inst ∧
          inst.quote = currency then quoteRate s w currency
      else none := by
  have hone : ∀ (found : Dict String Dec × List String) (symbol : String),
      (convertOne s w found symbol).1.get? currency =
        if ∃ inst, w.instruments.get? symbol = some inst ∧ inst.quote = currency then
          quoteRate s w currency
        else found.1.get? currency := by
    intro found symbol
    rw [convertOne]
    cases hinst : w.instruments.get? symbol with
    | none => simp
    | some inst =>
        by_cases hsame : inst.quote = currency
        · subst hsame
          rw [quoteRate]
          by_cases haccount : inst.quote = s.accountCurrency
          · simp [haccount]
          · simp only [if_neg haccount]
            cases hrate : (w.conversionRate inst.quote).filter fun rate => 0 < rate <;> simp
        · have hother : currency ≠ inst.quote := fun h => hsame h.symm
          by_cases haccount : inst.quote = s.accountCurrency
          · simp only [if_pos haccount, Dict.get?_set_of_ne _ hother]
            simp [hsame]
          · simp only [if_neg haccount]
            cases hrate : (w.conversionRate inst.quote).filter fun rate => 0 < rate with
            | none => simp [Dict.get?_erase_of_ne _ hother, hsame]
            | some rate => simp [Dict.get?_set_of_ne _ hother, hsame]
  have hfold : ∀ (symbols : List String) (found : Dict String Dec × List String),
      (symbols.foldl (convertOne s w) found).1.get? currency =
        if ∃ symbol ∈ symbols, ∃ inst, w.instruments.get? symbol = some inst ∧
            inst.quote = currency then quoteRate s w currency
        else found.1.get? currency := by
    intro symbols
    induction symbols with
    | nil => simp
    | cons symbol symbols ih =>
        intro found
        rw [List.foldl_cons, ih, hone]
        by_cases hlater : ∃ symbol ∈ symbols, ∃ inst, w.instruments.get? symbol = some inst ∧
            inst.quote = currency
        · rw [if_pos hlater, if_pos]
          obtain ⟨later, hmem, hquoted⟩ := hlater
          exact ⟨later, List.mem_cons_of_mem _ hmem, hquoted⟩
        · rw [if_neg hlater]
          refine if_congr ?_ rfl rfl
          constructor
          · exact fun h => ⟨symbol, List.mem_cons_self, h⟩
          · rintro ⟨found, hmem, hquoted⟩
            rcases List.mem_cons.1 hmem with rfl | hmem
            · exact hquoted
            · exact absurd ⟨found, hmem, hquoted⟩ hlater
  simpa [convertQuotes] using hfold symbols (.empty, [])

theorem ReferenceGuard.assess_get? {g : ReferenceGuard} {symbols : List String}
    {fresh : Dict String ReferenceCheck} (h : g.assess symbols = some fresh) {k : String}
    (hk : k ∈ symbols) : fresh.get? k = if g.enabled then g.check k else none := by
  rw [ReferenceGuard.assess] at h
  split_ifs at h with hdisabled hall
  · have hoff : g.enabled = false := by simpa using hdisabled
    rw [← Option.some.inj h]
    simp [hoff]
  · rw [← Option.some.inj h, Dict.get?_ofEntries_keys, if_pos hk]
    simp only [Bool.not_eq_true', Bool.not_eq_false] at hdisabled
    rw [if_pos hdisabled]

theorem refreshChecks_get? {checks : Dict String ReferenceCheck} {g : ReferenceGuard}
    {symbols : List String} {fresh : Dict String ReferenceCheck}
    (h : g.assess symbols = some fresh) {k : String} (hk : k ∈ symbols) :
    (refreshChecks checks (some g) symbols).get? k = if g.enabled then g.check k else none := by
  have hfold : ∀ (todo : List String) (d : Dict String ReferenceCheck),
      (todo.foldl (fun d symbol =>
        match fresh.get? symbol with
        | some c => d.set symbol c
        | none => d.erase symbol) d).get? k =
        if k ∈ todo then fresh.get? k else d.get? k := by
    intro todo
    induction todo with
    | nil => simp
    | cons symbol todo ih =>
        intro d
        rw [List.foldl_cons, ih]
        by_cases htodo : k ∈ todo
        · simp [htodo]
        · by_cases hsame : k = symbol
          · subst hsame
            cases hfresh : fresh.get? k <;> simp [htodo]
          · cases hfresh : fresh.get? symbol with
            | none => simp [htodo, hsame, Dict.get?_erase_of_ne _ hsame]
            | some c => simp [htodo, hsame, Dict.get?_set_of_ne _ hsame]
  have hne : symbols.isEmpty = false := by
    cases symbols with
    | nil => simp at hk
    | cons a l => rfl
  simp only [refreshChecks, hne, Bool.false_eq_true, if_false, h]
  refine (hfold symbols checks).trans ?_
  rw [if_pos hk, ReferenceGuard.assess_get? h hk]

/-! ### Spreads -/

theorem observeSpread_get?_of_ne (h : SpreadHistory) (clockNs : ℤ) {symbol k : String}
    (hk : k ≠ symbol) (spread : Dec) (bucket : SessionBucket) :
    (observeSpread h clockNs symbol spread).get? (k, bucket) = h.get? (k, bucket) := by
  rw [observeSpread]
  split_ifs
  · rfl
  · exact Dict.get?_set_of_ne _ (by simp [hk]) _

structure SpreadView.At (v : SpreadView) (s : EntrySettings) (w : Surroundings)
    (h : SpreadHistory) (k : String) (quote : Quote) (inst : Instrument) : Prop where
  normal : v.normal.get? k =
    some (normalSpread (observeSpread h w.clockNs k (quote.spreadPips inst)) w.clockNs k
      (quote.spreadPips inst))
  costs : v.costs.get? k = some
    { spreadPips := quote.spreadPips inst
      commissionPerLotRoundTurn := s.commissionPerLotRoundTurn
      slippagePipsMedian := s.expectedSlippagePips }

theorem normalSpread_congr {h h' : SpreadHistory} {clockNs : ℤ} {k : String}
    (hsame : ∀ bucket, h'.get? (k, bucket) = h.get? (k, bucket)) (spread live : Dec) :
    normalSpread (observeSpread h' clockNs k spread) clockNs k live =
      normalSpread (observeSpread h clockNs k spread) clockNs k live := by
  have hobserved : (observeSpread h' clockNs k spread).get? (k, sessionBucket clockNs) =
      (observeSpread h clockNs k spread).get? (k, sessionBucket clockNs) := by
    unfold observeSpread
    split_ifs
    · exact hsame _
    · simp [Dict.getD, hsame]
  unfold normalSpread
  rw [hobserved]

theorem spreadOne_of_ne (v : SpreadView) {entry : String × Quote} {k : String}
    (hk : k ≠ entry.1) :
    (spreadOne s w v entry).normal.get? k = v.normal.get? k ∧
      (spreadOne s w v entry).costs.get? k = v.costs.get? k ∧
      ∀ bucket, (spreadOne s w v entry).history.get? (k, bucket) =
        v.history.get? (k, bucket) := by
  rw [spreadOne]
  split
  · exact ⟨rfl, rfl, fun _ => rfl⟩
  · exact ⟨Dict.get?_set_of_ne _ hk _, Dict.get?_set_of_ne _ hk _,
      fun bucket => observeSpread_get?_of_ne _ _ hk _ bucket⟩

theorem viewSpreads_at {h : SpreadHistory} {quotes : Dict String Quote} {k : String}
    {quote : Quote} {inst : Instrument} (hquote : quotes.get? k = some quote)
    (hinst : w.instruments.get? k = some inst) :
    (viewSpreads s w h quotes).At s w h k quote inst := by
  -- before the entry the windows of `k` stay, after it its results do
  have hpast : ∀ (todo : List (String × Quote)) (v : SpreadView), k ∉ todo.map Prod.fst →
      v.At s w h k quote inst → (todo.foldl (spreadOne s w) v).At s w h k quote inst := by
    intro todo
    induction todo with
    | nil => exact fun _ _ hv => hv
    | cons entry todo ih =>
        intro v hnot hv
        rw [List.map_cons, List.mem_cons, not_or] at hnot
        obtain ⟨hnormal, hcosts, -⟩ := spreadOne_of_ne s w v hnot.1
        exact ih _ hnot.2 ⟨hnormal.trans hv.normal, hcosts.trans hv.costs⟩
  have hfuture : ∀ (todo : List (String × Quote)) (v : SpreadView),
      (todo.map Prod.fst).Nodup → (k, quote) ∈ todo →
      (∀ bucket, v.history.get? (k, bucket) = h.get? (k, bucket)) →
      (todo.foldl (spreadOne s w) v).At s w h k quote inst := by
    intro todo
    induction todo with
    | nil => simp
    | cons entry todo ih =>
        intro v hnodup hmem hwindows
        rw [List.map_cons, List.nodup_cons] at hnodup
        rcases List.mem_cons.1 hmem with rfl | hlater
        · refine hpast todo _ hnodup.1 ?_
          rw [spreadOne]
          simp only [hinst]
          exact ⟨by rw [Dict.get?_set_self, normalSpread_congr hwindows], Dict.get?_set_self _ _ _⟩
        · have hne : k ≠ entry.1 := by
            intro hsame
            exact hnodup.1 (List.mem_map.2 ⟨(k, quote), hlater, hsame⟩)
          obtain ⟨-, -, hkept⟩ := spreadOne_of_ne s w v hne
          exact ih _ hnodup.2 hlater fun bucket => (hkept bucket).trans (hwindows bucket)
  exact hfuture quotes.items { history := h } quotes.nodup
    ((Dict.mem_items_iff quotes k quote).2 hquote) fun _ => rfl

end Lookups

/-- What `_build_context` is called with beside the desk and the outside. -/
structure ContextArgs where
  nowNs : ℤ
  positions : List Position
  snap : FeedSnapshot
  correlations : Dict (String × String) Dec := .empty
  blockingAlarms : List VetoRule := []

namespace EntryDesk

/-- `_build_context`; it also keeps the checks, the spreads and the equity mark
it read. -/
def buildContext (d : EntryDesk) (s : EntrySettings) (w : Surroundings) (x : ContextArgs) :
    EntryDesk × RiskContext :=
  let converted := convertQuotes s w x.snap.quotes.keys
  let checks := refreshChecks d.checks w.reference x.snap.quotes.keys
  let view := viewSpreads s w d.spreads x.snap.quotes
  let equity := w.account.equity
  let dayBase := periodBase d.agent.dayStartEquity equity
  let weekBase := periodBase d.agent.weekStartEquity equity
  let monthBase := periodBase d.agent.monthStartEquity equity
  let (agent, rolling) := d.agent.rolling24hPnl x.nowNs equity
  ({ d with agent, checks, spreads := view.history },
    { nowNs := x.nowNs
      account := w.account
      positions := x.positions
      instruments := w.instruments
      quotes := x.snap.quotes
      conversions := converted.1
      equityPeak := d.agent.equityPeak
      dayPnl := equity - dayBase
      dayStartEquity := dayBase
      weekPnl := equity - weekBase
      monthPnl := equity - monthBase
      weekStartEquity := weekBase
      monthStartEquity := monthBase
      rolling24hPnl := rolling
      dayProfitLocked := d.agent.dayProfitLocked
      -- the rung and the counters count up from zero
      ladderRung := d.agent.ladderRung.toNat
      venueMinStopPips := venueStopFloors w
      tradesToday := d.agent.tradesToday.toNat
      tradesThisWeek := d.agent.tradesWeek.toNat
      tradesThisYear := d.agent.tradesYear.toNat
      lastEntryNs := d.agent.lastEntryNs
      pendingRisk := d.oms.pendingRisk
      unresolvedOrders := d.oms.unresolved.length
      clockSkewMs := w.clockSkewMs
      connectivityOk := w.connected
      offlineSeconds := w.offlineSeconds
      dataAgeSec := x.snap.ages
      dataQuality := x.snap.quality
      normalSpreadPips := view.normal
      costModels := view.costs
      newsBlackout := newsBlackouts d.news
      priceDivergence := divergences checks
      cooldowns := w.cooldowns
      stressScenarios := w.stressScenarios
      stressLimitPct := w.stressLimitPct
      missingConversions := sortedNames converted.2.dedup
      blockingAlarms := x.blockingAlarms
      correlations := x.correlations
      regimeRiskMultiplier := (d.regime.map Prod.snd).getD 1
      halted := d.agent.halted
      haltReason := d.agent.haltReason
      killSwitch := w.killEngaged
      strategyLifecycles := .ofEntries (s.strategies.map fun a => (a.name, a.lifecycle))
      liveMoney := s.venueMode = .live
      groupOthersOpenRisk := d.group.map GroupView.othersOpenRisk
      groupOthersEquity := (d.group.map GroupView.othersEquity).getD 0
      groupOthersCurrencyRisk := (d.group.map GroupView.othersCurrencyRisk).getD .empty
      groupUnknownMembers :=
        (d.group.map fun v => sortedNames (v.stale ++ v.unreadable).dedup).getD [] })

end EntryDesk

end Sentinel
