import Mathlib.Data.Prod.Lex
import Sentinel.Brokers.ClosedTrades
import Sentinel.Execution.OrderManager
import Sentinel.Support.Utf8

/-!
# The trade history of the MetaTrader adapter

The terminal keeps deals; a round trip is the deals of one position id.  The
adapter reads the deals from forty-five days before its cursor on, and the
cursor is the latest closing handed over, with its position id.
-/

namespace Sentinel

namespace MetaTrader

inductive DealEntry where
  | entryIn
  | entryOut
  | entryInOut
  | entryOutBy
  deriving DecidableEq

structure Deal where
  ticket : ℕ
  timeMsc : ℕ
  positionId : ℕ := 0
  entry : DealEntry
  /-- the deal is of type `ORDER_TYPE_BUY` -/
  isBuy : Bool
  magic : ℤ := 0
  symbol : String
  volume : Dec
  price : Dec
  profit : Dec := 0
  commission : Dec := 0
  fee : Dec := 0
  swap : Dec := 0
  comment : String := ""
  deriving DecidableEq

/-- A row of `positions_get()`. -/
structure OpenRow where
  ticket : ℕ
  identifier : Option ℕ := none
  deriving DecidableEq

/-- `int(getattr(p, "identifier", p.ticket) or p.ticket)`. -/
def OpenRow.openId (p : OpenRow) : ℕ := (p.identifier.filter (· ≠ 0)).getD p.ticket

/-- What `_sent` keeps of an order. -/
structure SentMeta where
  strategy : Option String := none
  initialRisk : Option Dec := none
  deriving DecidableEq

/-- The adapter and its terminal at a poll.  `history_deals_get` lists the
deals on record from a time on. -/
structure History where
  /-- `_magic` -/
  magic : ℤ
  instruments : Dict String Instrument
  /-- `_canon` -/
  canon : String → String := id
  /-- `_sent` -/
  sent : Dict String SentMeta := .empty
  historyDealsGet : ℤ → Option (List Deal)
  positionsGet : Option (List OpenRow)
  /-- the deals on record -/
  deals : List Deal
  get_eq : ∀ lower answer, historyDealsGet lower = some answer →
    answer = deals.filter fun d => lower ≤ d.timeMsc

/-! ## The reason in a comment -/

/-- `part in text`. -/
def containsText (part : List Char) : List Char → Bool
  | [] => part.isEmpty
  | c :: cs => part.isPrefixOf (c :: cs) || containsText part cs

/-- `text.lower()`, on the letters the markers are made of. -/
def lower (cs : List Char) : List Char := cs.map Char.toLower

def exitReasonFromComment (comment : String) : String :=
  let stripped := Chars.strip comment.toList
  let text :=
    if "close:".toList.isPrefixOf (lower stripped) then Chars.strip (stripped.drop 6) else stripped
  let low := lower text
  if containsText "[sl]".toList low || "sl ".toList.isPrefixOf low then "stop_loss"
  else if containsText "[tp]".toList low || "tp ".toList.isPrefixOf low then "take_profit"
  else if "so:".toList.isPrefixOf low || containsText "stop out".toList low then
    "margin_stop_out"
  else if text.take 32 = [] then "venue_history"
  else String.ofList (text.take 32)

/-! ## Round trips -/

def grouped (deals : List Deal) : Dict ℕ (List Deal) :=
  deals.foldl (fun out d =>
    if d.positionId = 0 then out
    else out.set d.positionId (out.getD d.positionId [] ++ [d])) .empty

variable (values : List Deal)

/-- `values.sort(key=(time_msc, ticket))`. -/
def inOrder : List Deal :=
  values.mergeSort fun d e => decide (toLex (d.timeMsc, d.ticket) ≤ toLex (e.timeMsc, e.ticket))

def lastMsc : ℕ := ((values.getLast?).map Deal.timeMsc).getD 0

def entries : List Deal :=
  values.filter fun d => d.entry = .entryIn

def exits : List Deal :=
  values.filter fun d => d.entry = .entryOut ∨ d.entry = .entryOutBy

def volume (deals : List Deal) : Dec := (deals.map Deal.volume).sum

/-- `sum(price * volume) / volume`. -/
def averagePrice (deals : List Deal) : Dec :=
  (deals.map fun d => d.price * d.volume).sum / volume deals

def toCent (amounts : List Dec) : Dec := quantize amounts.sum (1 / 100)

/-- `f"MT5-{pid}"`. -/
def tripId (pid : ℕ) : String := "MT5-" ++ toString pid

variable (v : History)

/-- `by_comment.get(comment[:31], ("", {}))`. -/
def History.sentFor (comment : String) : String × SentMeta :=
  (Dict.ofEntries (v.sent.items.map fun kv => (kv.1.toList.take 31, kv))).getD
    (comment.toList.take 31) ("", {})

def History.Whole (v : History) (values : List Deal) : Prop :=
  entries values ≠ [] ∧ exits values ≠ [] ∧ (∀ d ∈ values, d.entry ≠ .entryInOut) ∧
    (∀ d ∈ entries values, d.magic = v.magic) ∧
    0 < volume (entries values) ∧
    |volume (entries values) - volume (exits values)| ≤ 1 / 1000000 ∧
    ∀ d ∈ (entries values).head?, (v.instruments.get? (v.canon d.symbol)).isSome

instance (v : History) (values : List Deal) : Decidable (v.Whole values) := by
  unfold History.Whole
  infer_instance

/-- The trade the adapter makes of the deals of a position, sorted; `none`
where the loop goes on without one. -/
def History.roundTrip (pid : ℕ) (values : List Deal) : Option ClosedTrade :=
  match entries values, (exits values).getLast? with
  | opening :: _, some closing =>
      if values.any fun d => d.entry = .entryInOut then none
      else if (entries values).any fun d => d.magic ≠ v.magic then none
      else if volume (entries values) ≤ 0 ∨
          1 / 1000000 < |volume (entries values) - volume (exits values)| then none
      else
        match v.instruments.get? (v.canon opening.symbol) with
        | none => none
        | some inst =>
            let entryPx := averagePrice (entries values)
            let exitPx := averagePrice (exits values)
            let side : Side := if opening.isBuy then .buy else .sell
            let (coid, sent) := v.sentFor opening.comment
            let initial := sent.initialRisk.getD 0
            let profit := toCent (values.map Deal.profit)
            let fees := toCent (values.map fun d => d.commission + d.fee)
            let swap := toCent (values.map Deal.swap)
            let net := profit + fees + swap
            some
              { tradeId := tripId pid
                strategy := (sent.strategy.filter (· ≠ "")).getD "unattributed"
                instrument := v.canon opening.symbol
                side := side
                lots := volume (entries values)
                entryPrice := entryPx
                exitPrice := exitPx
                openedNs := opening.timeMsc * 1000000
                closedNs := lastMsc values * 1000000
                pnl := net
                pnlPips := (exitPx - entryPx) * side.sign / inst.pip
                commission := -fees
                financing := swap
                initialRisk := initial
                rMultiple := if 0 < initial then net / initial else 0
                exitReason := exitReasonFromComment closing.comment
                tags :=
                  (if 0 < initial then [] else ["risk_attribution_unavailable"]) ++
                    (if coid = "" then [] else ["coid:" ++ coid]) }
  | _, _ => none

/-! ## `fetch_closed_trades` -/

/-- `(end, pid)`, compared as Python compares pairs. -/
abbrev TripKey := ℕ ×ₗ ℕ

def tripKey (pid : ℕ) : TripKey := toLex (lastMsc values, pid)

/-- The two numbers of a cursor; `none` is the `ValueError`. -/
def readCursor (sinceId : String) : Option TripKey :=
  match (if sinceId = "" then "0:0" else sinceId).toList.splitOn ':' with
  | [ms, pid] =>
      match readNat ms, readNat pid with
      | some ms, some pid => some (toLex (ms, pid))
      | _, _ => none
  | _ => none

def writeCursor (cursor : TripKey) : String :=
  toString (ofLex cursor).1 ++ ":" ++ toString (ofLex cursor).2

def windowStart (cursor : TripKey) : ℤ :=
  if (ofLex cursor).1 = 0 then 946684800000
  else ((ofLex cursor).1 : ℤ) - 45 * 86400000

def History.absorbTrip (openIds : List ℕ) (cursor : TripKey)
    (acc : List ClosedTrade × TripKey) (group : ℕ × List Deal) :
    List ClosedTrade × TripKey :=
  if group.1 ∈ openIds then acc
  else
    let values := inOrder group.2
    if tripKey values group.1 ≤ cursor then acc
    else
      match v.roundTrip group.1 values with
      | none => acc
      | some trade => (acc.1 ++ [trade], max acc.2 (tripKey values group.1))

def fetchClosedTrades (sinceId : String) : Fetched :=
  match readCursor sinceId with
  | none => .error ("invalid MT5 history cursor '" ++ sinceId ++ "'")
  | some cursor =>
      match v.historyDealsGet (windowStart cursor) with
      | none => .error "MT5 realised history unavailable"
      | some deals =>
          match v.positionsGet with
          | none => .error "MT5 position book unavailable"
          | some book =>
              let (out, last) :=
                (grouped deals).items.foldl
                  (v.absorbTrip (book.map OpenRow.openId) cursor) ([], cursor)
              .ok (out.mergeSort fun t u => decide (t.closedNs < u.closedNs ∨
                    t.closedNs = u.closedNs ∧ t.tradeId ≤ u.tradeId),
                writeCursor last)

/-- The adapter as the agent polls it. -/
def historyBroker : HistoryBroker History where
  fetchClosedTrades := fetchClosedTrades

def History.wholeTrips (openIds : List ℕ) (groups : List (ℕ × List Deal)) : List TripKey :=
  (groups.filter fun group => group.1 ∉ openIds ∧ v.Whole (inOrder group.2)).map fun group =>
    tripKey (inOrder group.2) group.1

def History.trips (v : History) (openIds : List ℕ) (deals : List Deal) : List TripKey :=
  v.wholeTrips openIds (grouped deals).items

def answeredTrips (sinceId : String) : Option (List TripKey) :=
  (readCursor sinceId).bind fun cursor =>
    (v.historyDealsGet (windowStart cursor)).bind fun deals =>
      v.positionsGet.map fun book => v.trips (book.map OpenRow.openId) deals

def History.closed : List TripKey :=
  match v.positionsGet with
  | none => []
  | some book => v.trips (book.map OpenRow.openId) v.deals

/-! ## Grouping -/

def ofPosition (deals : List Deal) (pid : ℕ) : List Deal :=
  deals.filter fun d => d.positionId = pid

theorem get?_grouped (deals : List Deal) (pid : ℕ) :
    (grouped deals).get? pid =
      if pid ≠ 0 ∧ ofPosition deals pid ≠ [] then some (ofPosition deals pid) else none := by
  induction deals using List.reverseRecOn with
  | nil => simp [grouped, ofPosition, Dict.empty, Dict.get?]
  | append_singleton deals d ih =>
      have hgroup : grouped (deals ++ [d]) =
          if d.positionId = 0 then grouped deals
          else (grouped deals).set d.positionId
            ((grouped deals).getD d.positionId [] ++ [d]) := by
        simp [grouped, List.foldl_append]
      have hof : ofPosition (deals ++ [d]) pid =
          ofPosition deals pid ++ if d.positionId = pid then [d] else [] := by
        by_cases hd : d.positionId = pid <;> simp [ofPosition, hd]
      rw [hgroup, hof]
      by_cases hzero : d.positionId = 0
      · by_cases hpid : d.positionId = pid
        · have : pid = 0 := hpid ▸ hzero
          rw [if_pos hzero, ih]
          simp [this]
        · rw [if_pos hzero, ih]
          simp [hpid]
      · rw [if_neg hzero, Dict.get?_set]
        by_cases hpid : pid = d.positionId
        · subst hpid
          rw [if_pos rfl, Dict.getD, ih]
          by_cases hnil : ofPosition deals d.positionId = [] <;> simp [hzero, hnil]
        · rw [if_neg hpid, ih]
          simp [Ne.symm hpid]

theorem mem_grouped {deals : List Deal} {pid : ℕ} {values : List Deal} :
    (pid, values) ∈ (grouped deals).items ↔
      pid ≠ 0 ∧ values = ofPosition deals pid ∧ values ≠ [] := by
  rw [Dict.mem_items_iff, get?_grouped]
  constructor
  · intro h
    split_ifs at h with hof
    obtain rfl := Option.some.inj h
    exact ⟨hof.1, rfl, hof.2⟩
  · rintro ⟨hpid, rfl, hof⟩
    rw [if_pos ⟨hpid, hof⟩]

/-! ## The last deal -/

theorem inOrder_perm : (inOrder values).Perm values :=
  List.mergeSort_perm values _

theorem inOrder_of_pairwise {values : List Deal}
    (h : values.Pairwise fun d e => toLex (d.timeMsc, d.ticket) ≤ toLex (e.timeMsc, e.ticket)) :
    inOrder values = values :=
  List.mergeSort_of_pairwise (by simpa using h)

theorem inOrder_pairwise : (inOrder values).Pairwise fun d e => d.timeMsc ≤ e.timeMsc := by
  refine (List.pairwise_mergeSort ?_ ?_ values).imp ?_
  · intro a b c hab hbc
    simp only [decide_eq_true_eq] at hab hbc ⊢
    exact hab.trans hbc
  · intro a b
    simp only [Bool.or_eq_true, decide_eq_true_eq]
    exact le_total _ _
  · intro a b hab
    simp only [decide_eq_true_eq, Prod.Lex.toLex_le_toLex] at hab
    rcases hab with hlt | ⟨heq, _⟩
    · exact hlt.le
    · exact heq.le

theorem lastMsc_inOrder {values : List Deal} (h : values ≠ []) :
    (∃ d ∈ values, d.timeMsc = lastMsc (inOrder values)) ∧
      ∀ d ∈ values, d.timeMsc ≤ lastMsc (inOrder values) := by
  have hperm := inOrder_perm values
  have hsorted : inOrder values ≠ [] := fun hnil =>
    h (List.perm_nil.1 (hnil ▸ hperm).symm)
  have hlast : lastMsc (inOrder values) = ((inOrder values).getLast hsorted).timeMsc := by
    simp [lastMsc, List.getLast?_eq_getLast_of_ne_nil hsorted]
  rw [hlast]
  refine ⟨⟨_, hperm.mem_iff.1 (List.getLast_mem hsorted), rfl⟩, ?_⟩
  intro d hd
  have hd' : d ∈ (inOrder values).dropLast ++ [(inOrder values).getLast hsorted] := by
    rw [List.dropLast_append_getLast]
    exact hperm.mem_iff.2 hd
  have hpair := inOrder_pairwise values
  rw [← List.dropLast_append_getLast hsorted, List.pairwise_append] at hpair
  rcases List.mem_append.1 hd' with hinit | hend
  · exact hpair.2.2 d hinit _ (List.mem_singleton_self _)
  · rw [List.mem_singleton.1 hend]

theorem lastMsc_window {values : List Deal} {lower : ℤ}
    (h : (values.filter fun d => lower ≤ d.timeMsc) ≠ []) :
    lastMsc (inOrder (values.filter fun d => lower ≤ d.timeMsc)) =
      lastMsc (inOrder values) := by
  have hall : values ≠ [] := by
    rintro rfl
    exact h rfl
  obtain ⟨⟨d, hd, hdlast⟩, hle⟩ := lastMsc_inOrder h
  obtain ⟨⟨e, he, helast⟩, hle'⟩ := lastMsc_inOrder hall
  have hd' := List.mem_filter.1 hd
  have hde : d.timeMsc ≤ e.timeMsc := helast ▸ hle' d hd'.1
  -- the latest of all deals is in the window, since a deal in the window is no later
  have hewindow : e ∈ values.filter fun d => lower ≤ d.timeMsc := by
    refine List.mem_filter.2 ⟨he, ?_⟩
    have hlower : lower ≤ (d.timeMsc : ℤ) := by simpa using hd'.2
    simp only [decide_eq_true_eq]
    omega
  rw [← hdlast, ← helast]
  exact le_antisymm hde (hdlast ▸ hle e hewindow)

/-! ## What a poll takes -/

theorem tripId_injective : Function.Injective tripId := by
  intro p q h
  have hlist : "MT5-".toList ++ (toString p).toList = "MT5-".toList ++ (toString q).toList := by
    rw [← String.toList_append, ← String.toList_append]
    exact congrArg String.toList h
  exact toString_injective (String.toList_inj.1 (List.append_cancel_left hlist))

@[simp] theorem readCursor_writeCursor (cursor : TripKey) :
    readCursor (writeCursor cursor) = some cursor := by
  have hcolon : ∀ n : ℕ, ':' ∉ Nat.toDigits 10 n := by
    intro n hmem
    have hdigit := Nat.isDigit_of_mem_toDigits (by norm_num) (by norm_num) hmem
    revert hdigit
    decide
  have hlist : (writeCursor cursor).toList =
      [':'].intercalate [Nat.toDigits 10 (ofLex cursor).1, Nat.toDigits 10 (ofLex cursor).2] := by
    simp [writeCursor, List.intercalate]
  have hne : writeCursor cursor ≠ "" := by
    intro hempty
    rw [hempty] at hlist
    simp [List.intercalate] at hlist
  rw [readCursor, if_neg hne, hlist, List.splitOn_intercalate ':' (by simp [hcolon]) (by simp)]
  simp

@[simp] theorem readCursor_empty : readCursor "" = some (toLex (0, 0)) := by
  have hzero : writeCursor (toLex (0, 0)) = "0:0" := by decide
  have hread := readCursor_writeCursor (toLex (0, 0))
  rw [hzero, readCursor, if_neg (by decide)] at hread
  rw [readCursor, if_pos rfl]
  exact hread

theorem isSome_guard {α : Type*} {p : Prop} [Decidable p] {x : Option α} :
    (if p then none else x).isSome ↔ ¬p ∧ x.isSome := by
  split_ifs with hp <;> simp [hp]

theorem isSome_roundTrip (pid : ℕ) (values : List Deal) :
    (v.roundTrip pid values).isSome ↔ v.Whole values := by
  unfold History.roundTrip History.Whole
  cases hentries : entries values with
  | nil => simp
  | cons opening rest =>
      cases hexits : (exits values).getLast? with
      | none =>
          have hnil : exits values = [] := List.getLast?_eq_none_iff.1 hexits
          simp [hnil]
      | some closing =>
          have hne : exits values ≠ [] := by
            intro hnil
            rw [hnil] at hexits
            cases hexits
          have hinOut : (values.any fun d => d.entry = .entryInOut) = true ↔
              ¬∀ d ∈ values, d.entry ≠ .entryInOut := by simp
          have hmagic : ((opening :: rest).any fun d => d.magic ≠ v.magic) = true ↔
              ¬∀ d ∈ opening :: rest, d.magic = v.magic := by
            simp only [List.any_eq_true, decide_eq_true_eq, not_forall, exists_prop, ne_eq]
          have hvolume : (volume (opening :: rest) ≤ 0 ∨
                1 / 1000000 < |volume (opening :: rest) - volume (exits values)|) ↔
              ¬(0 < volume (opening :: rest) ∧
                |volume (opening :: rest) - volume (exits values)| ≤ 1 / 1000000) := by
            rw [not_and_or, not_lt, not_le]
          have hknown : (v.instruments.get? (v.canon opening.symbol)).isSome ↔
              ∀ d ∈ (opening :: rest).head?, (v.instruments.get? (v.canon d.symbol)).isSome := by
            simp
          rw [isSome_guard, isSome_guard, isSome_guard, hinOut, hmagic, hvolume, ← hknown]
          simp only [not_not]
          cases v.instruments.get? (v.canon opening.symbol) <;> simp [hne]

theorem roundTrip_stamp {v : History} {pid : ℕ} {values : List Deal} {t : ClosedTrade}
    (h : v.roundTrip pid values = some t) :
    t.tradeId = tripId pid ∧ t.closedNs = lastMsc values * 1000000 := by
  unfold History.roundTrip at h
  split at h
  · split at h
    · cases h
    split at h
    · cases h
    split at h
    · cases h
    split at h
    · cases h
    · obtain rfl := Option.some.inj h
      exact ⟨rfl, rfl⟩
  · cases h

def tradeStamp (t : ClosedTrade) : ℤ × String := (t.closedNs, t.tradeId)

def keyStamp (key : TripKey) : ℤ × String :=
  (((ofLex key).1 : ℤ) * 1000000, tripId (ofLex key).2)

theorem keyStamp_injective : Function.Injective keyStamp := by
  intro j k h
  obtain ⟨htime, hid⟩ := Prod.mk.inj h
  have hms : (ofLex j).1 = (ofLex k).1 := by omega
  have hpid : (ofLex j).2 = (ofLex k).2 := tripId_injective hid
  exact ofLex.injective (Prod.ext hms hpid)

theorem foldl_absorbTrip (openIds : List ℕ) (cursor : TripKey)
    (groups : List (ℕ × List Deal)) (acc : List ClosedTrade × TripKey) :
    ((groups.foldl (v.absorbTrip openIds cursor) acc).1.map tradeStamp =
        acc.1.map tradeStamp ++
          (Feed.fresh cursor (v.wholeTrips openIds groups)).map keyStamp) ∧
      (groups.foldl (v.absorbTrip openIds cursor) acc).2 =
        (Feed.fresh cursor (v.wholeTrips openIds groups)).foldl max acc.2 := by
  induction groups generalizing acc with
  | nil => simp [History.wholeTrips, Feed.fresh]
  | cons group groups ih =>
      rw [List.foldl_cons]
      obtain ⟨hout, hlast⟩ := ih (v.absorbTrip openIds cursor acc group)
      rw [hout, hlast]
      by_cases hopen : group.1 ∈ openIds
      · simp [History.absorbTrip, History.wholeTrips, hopen]
      by_cases hle : tripKey (inOrder group.2) group.1 ≤ cursor
      · have hskip : Feed.fresh cursor (v.wholeTrips openIds (group :: groups)) =
            Feed.fresh cursor (v.wholeTrips openIds groups) := by
          by_cases hwhole : v.Whole (inOrder group.2) <;>
            simp [History.wholeTrips, Feed.fresh, hopen, hwhole, not_lt.2 hle]
        simp [History.absorbTrip, hopen, hle, hskip]
      · cases htrip : v.roundTrip group.1 (inOrder group.2) with
        | none =>
            have hwhole : ¬v.Whole (inOrder group.2) := by
              rw [← isSome_roundTrip v group.1, htrip]
              simp
            simp [History.absorbTrip, History.wholeTrips, hopen, hle, htrip, hwhole]
        | some trade =>
            have hwhole : v.Whole (inOrder group.2) := by
              rw [← isSome_roundTrip v group.1, htrip]
              simp
            have htake : Feed.fresh cursor (v.wholeTrips openIds (group :: groups)) =
                tripKey (inOrder group.2) group.1 ::
                  Feed.fresh cursor (v.wholeTrips openIds groups) := by
              simp [History.wholeTrips, Feed.fresh, hopen, hwhole, not_le.1 hle]
            have hstamp : tradeStamp trade = keyStamp (tripKey (inOrder group.2) group.1) := by
              obtain ⟨hid, hclosed⟩ := roundTrip_stamp htrip
              rw [tradeStamp, hid, hclosed]
              rfl
            simp [History.absorbTrip, hopen, hle, htrip, htake, hstamp]

theorem historyBroker_reads :
    historyBroker.Reads readCursor tradeStamp keyStamp answeredTrips where
  supports := rfl
  answered := by
    intro v text cursor keys hcursor hkeys
    rw [answeredTrips, hcursor, Option.bind_some, Option.bind_eq_some_iff] at hkeys
    obtain ⟨deals, hdeals, hmap⟩ := hkeys
    obtain ⟨book, hbook, rfl⟩ := Option.map_eq_some_iff.1 hmap
    obtain ⟨hout, hlast⟩ := foldl_absorbTrip v (book.map OpenRow.openId) cursor
      (grouped deals).items ([], cursor)
    refine ⟨_, _, by
      simp only [historyBroker, fetchClosedTrades, hcursor, hdeals, hbook]
      rfl, ?_, ?_⟩
    · rw [readCursor_writeCursor, hlast]
      rfl
    · refine ((List.mergeSort_perm _ _).map _).trans ?_
      rw [hout]
      simp [History.trips]
  failed := by
    intro v text cursor hcursor hkeys
    rw [answeredTrips, hcursor, Option.bind_some] at hkeys
    cases hdeals : v.historyDealsGet (windowStart cursor) with
    | none =>
        exact .inl ⟨_, by simp only [historyBroker, fetchClosedTrades, hcursor, hdeals]; rfl⟩
    | some deals =>
        cases hbook : v.positionsGet with
        | none =>
            exact .inl ⟨_, by
              simp only [historyBroker, fetchClosedTrades, hcursor, hdeals, hbook]
              rfl⟩
        | some book =>
            rw [hdeals, hbook] at hkeys
            cases hkeys

/-! ## The answer and the record -/

theorem History.Whole.ne_nil {v : History} {values : List Deal} (h : v.Whole (inOrder values)) :
    values ≠ [] := by
  rintro rfl
  exact h.1 (by simp [inOrder, entries])

theorem mem_trips {v : History} {openIds : List ℕ} {deals : List Deal} {key : TripKey} :
    key ∈ v.trips openIds deals ↔
      (ofLex key).2 ≠ 0 ∧ (ofLex key).2 ∉ openIds ∧
        v.Whole (inOrder (ofPosition deals (ofLex key).2)) ∧
        key = tripKey (inOrder (ofPosition deals (ofLex key).2)) (ofLex key).2 := by
  simp only [History.trips, History.wholeTrips, List.mem_map, List.mem_filter,
    decide_eq_true_eq]
  constructor
  · rintro ⟨⟨pid, values⟩, ⟨hmem, hopen, hwhole⟩, rfl⟩
    obtain ⟨hpid, rfl, -⟩ := mem_grouped.1 hmem
    exact ⟨hpid, hopen, hwhole, rfl⟩
  · rintro ⟨hpid, hopen, hwhole, hkey⟩
    exact ⟨((ofLex key).2, ofPosition deals (ofLex key).2),
      ⟨mem_grouped.2 ⟨hpid, rfl, hwhole.ne_nil⟩, hopen, hwhole⟩, hkey.symm⟩

theorem trips_of_pairwise {v : History} {openIds : List ℕ} {deals : List Deal}
    (h : deals.Pairwise fun d e => toLex (d.timeMsc, d.ticket) ≤ toLex (e.timeMsc, e.ticket)) :
    v.trips openIds deals =
      ((grouped deals).items.filter fun group =>
        group.1 ∉ openIds ∧ v.Whole group.2).map fun group => tripKey group.2 group.1 := by
  have hsorted : ∀ group ∈ (grouped deals).items, inOrder group.2 = group.2 := by
    rintro ⟨pid, values⟩ hmem
    obtain ⟨-, rfl, -⟩ := mem_grouped.1 hmem
    exact inOrder_of_pairwise (h.sublist List.filter_sublist)
  have hfilter : (grouped deals).items.filter
        (fun group => group.1 ∉ openIds ∧ v.Whole (inOrder group.2)) =
      (grouped deals).items.filter fun group => group.1 ∉ openIds ∧ v.Whole group.2 :=
    List.filter_congr fun group hgroup => by rw [hsorted group hgroup]
  rw [History.trips, History.wholeTrips, hfilter]
  exact List.map_congr_left fun group hgroup => by
    rw [hsorted group (List.mem_filter.1 hgroup).1]

theorem nodup_trips (openIds : List ℕ) (deals : List Deal) :
    ((v.trips openIds deals).map fun key => tripId (ofLex key).2).Nodup := by
  have hids : (v.trips openIds deals).map (fun key => tripId (ofLex key).2) =
      (((grouped deals).items.filter fun group =>
        group.1 ∉ openIds ∧ v.Whole (inOrder group.2)).map Prod.fst).map tripId := by
    simp [History.trips, History.wholeTrips, tripKey, Function.comp_def]
  rw [hids]
  refine List.Nodup.map tripId_injective ?_
  exact (grouped deals).nodup.sublist (List.filter_sublist.map Prod.fst)

def History.dealsSince (cursor : TripKey) (pid : ℕ) : List Deal :=
  (ofPosition v.deals pid).filter fun d => windowStart cursor ≤ d.timeMsc

theorem ofPosition_window (deals : List Deal) (lower : ℤ) (pid : ℕ) :
    ofPosition (deals.filter fun d => lower ≤ d.timeMsc) pid =
      (ofPosition deals pid).filter fun d => lower ≤ d.timeMsc := by
  simp only [ofPosition, List.filter_filter, Bool.and_comm]

theorem mem_answeredTrips {v : History} {text : String} {cursor : TripKey}
    {keys : List TripKey} (hcursor : readCursor text = some cursor)
    (hkeys : answeredTrips v text = some keys) :
    ∃ book, v.positionsGet = some book ∧
      ∀ key, key ∈ keys ↔
        (ofLex key).2 ≠ 0 ∧ (ofLex key).2 ∉ book.map OpenRow.openId ∧
          v.Whole (inOrder (v.dealsSince cursor (ofLex key).2)) ∧
          key = tripKey (inOrder (ofPosition v.deals (ofLex key).2)) (ofLex key).2 := by
  rw [answeredTrips, hcursor, Option.bind_some, Option.bind_eq_some_iff] at hkeys
  obtain ⟨deals, hdeals, hmap⟩ := hkeys
  obtain ⟨book, hbook, rfl⟩ := Option.map_eq_some_iff.1 hmap
  refine ⟨book, hbook, fun key => ?_⟩
  rw [mem_trips, v.get_eq _ _ hdeals, ofPosition_window]
  refine and_congr_right fun _ => and_congr_right fun _ => and_congr_right fun hwhole => ?_
  rw [tripKey, lastMsc_window hwhole.ne_nil, tripKey]

end MetaTrader

end Sentinel

/-!
## Asking MetaTrader about an order

The venue knows no client order ids.  The adapter keeps what it sent and looks
for a deal whose comment holds the id, or that has the symbol, the volume and
the magic number of the order.  The direction of the deal and whether it opens
or closes are not compared.
-/

namespace Sentinel

namespace MetaTrader

structure OrderDeal extends Deal where
  order : ℕ
  deriving DecidableEq

/-- What `_sent` keeps of an order. -/
structure SentOrder extends SentMeta where
  instrument : String
  side : Side
  lots : Dec
  tsNs : ℤ

structure VenueFill extends Fill where
  clientOrderId : String
  instrument : String
  side : Side
  tsNs : ℤ
  commission : Dec

/-- The adapter and its terminal when it is asked. -/
structure QueryDesk where
  /-- `_magic` -/
  magic : ℤ
  /-- `_canon` -/
  canon : String → String := id
  /-- `_sent` -/
  sent : Dict String SentOrder
  /-- the deals since a time -/
  historyDealsGet : ℤ → Option (List OrderDeal)

namespace QueryDesk

def commentMatch (id : String) (d : OrderDeal) : Bool :=
  containsText (id.toList.take 31) d.comment.toList

variable (v : QueryDesk) (deals : List OrderDeal) (owner : OrderDeal → Option String)

def signatureMatch (v : QueryDesk) (sent : SentOrder) (d : OrderDeal) : Bool :=
  v.canon d.symbol = sent.instrument ∧ |d.volume - sent.lots| < 1 / 1000000000 ∧
    d.magic = v.magic

def looksLike (v : QueryDesk) (id : String) (sent : SentOrder) (d : OrderDeal) : Bool :=
  commentMatch id d || v.signatureMatch sent d

def recentDeals (v : QueryDesk) (sent : SentOrder) : List OrderDeal :=
  (v.historyDealsGet (sent.tsNs - 5 * 1000000000)).getD []

def fillOf (v : QueryDesk) (id : String) (d : OrderDeal) : VenueFill where
  venueOrderId := toString d.order
  lots := d.volume
  price := d.price
  clientOrderId := id
  instrument := v.canon d.symbol
  side := if d.isBuy then .buy else .sell
  tsNs := d.timeMsc * 1000000
  commission := d.commission

/-- The deal the loop of `query_order` stops at. -/
def matchedDeal (v : QueryDesk) (id : String) : Option OrderDeal :=
  (v.sent.get? id).bind fun sent => (v.recentDeals sent).find? (v.looksLike id sent)

def queryOrder (v : QueryDesk) (id : String) : Option SubmitResult :=
  (v.matchedDeal id).map fun d =>
    { state := .filled
      venueOrderId := some (toString d.order)
      fills := [(v.fillOf id d).toFill] }

/-! ## What a report says about the order -/

def Executes (v : QueryDesk) (sent : SentOrder) (d : OrderDeal) : Prop :=
  d.entry = .entryIn ∧ (if d.isBuy then Side.buy else Side.sell) = sent.side ∧
    v.canon d.symbol = sent.instrument ∧ d.volume = sent.lots

instance (v : QueryDesk) (sent : SentOrder) (d : OrderDeal) : Decidable (v.Executes sent d) := by
  unfold Executes
  infer_instance

/-- The order was executed by one of the venue's deals; `owner` says which
order a deal executed. -/
def Executed (id : String) (sent : SentOrder) : Prop :=
  ∃ d ∈ deals, owner d = some id ∧ v.Executes sent d

def FilledSoundly : Prop :=
  (∀ id sent, v.sent.get? id = some sent → ∀ r, v.queryOrder id = some r → r.state = .filled →
    v.Executed deals owner id sent) ∧
  ∀ id other, id ≠ other → ∀ d e, v.matchedDeal id = some d → v.matchedDeal other = some e →
    d.ticket ≠ e.ticket

def Resembles (v : QueryDesk) (id : String) (sent : SentOrder) (d : OrderDeal) : Prop :=
  id.toList.take 31 <:+: d.comment.toList ∨
    v.canon d.symbol = sent.instrument ∧ |d.volume - sent.lots| < 1 / 1000000000 ∧
      d.magic = v.magic

/-- `found` are the deals of the terminal from five seconds before the order
on. -/
def Since (v : QueryDesk) (sent : SentOrder) (found : List OrderDeal) : Prop :=
  v.historyDealsGet (sent.tsNs - 5 * 1000000000) = some found

/-- `d` comes first among the deals in `found` that resemble the order. -/
def First (v : QueryDesk) (id : String) (sent : SentOrder) (found : List OrderDeal)
    (d : OrderDeal) : Prop :=
  ∃ pre post, found = pre ++ d :: post ∧ v.Resembles id sent d ∧ ∀ e ∈ pre, ¬v.Resembles id sent e

/-- No deal since an order was sent resembles it unless it was executed, and the
first deals that resemble two orders are different. -/
def Unmistakable : Prop :=
  (∀ id sent, v.sent.get? id = some sent → ¬v.Executed deals owner id sent →
    ∀ found, v.Since sent found → ∀ d ∈ found, ¬v.Resembles id sent d) ∧
  ∀ id other sent sent', id ≠ other → v.sent.get? id = some sent →
    v.sent.get? other = some sent' → ∀ found found', v.Since sent found → v.Since sent' found' →
    ∀ d e, v.First id sent found d → v.First other sent' found' e → d.ticket ≠ e.ticket

theorem containsText_iff {part text : List Char} :
    containsText part text = true ↔ part <:+: text := by
  induction text with
  | nil => simp [containsText]
  | cons c cs ih =>
      rw [containsText, Bool.or_eq_true, ih, List.isPrefixOf_iff_prefix, List.infix_cons_iff]

theorem looksLike_iff {v : QueryDesk} {id : String} {sent : SentOrder} {d : OrderDeal} :
    v.looksLike id sent d = true ↔ v.Resembles id sent d := by
  simp only [looksLike, commentMatch, signatureMatch, Bool.or_eq_true, containsText_iff,
    decide_eq_true_eq, Resembles]

theorem recentDeals_of_since {v : QueryDesk} {sent : SentOrder} {found : List OrderDeal}
    (h : v.Since sent found) : v.recentDeals sent = found := by
  rw [recentDeals, h, Option.getD_some]

theorem matchedDeal_eq_some_iff {v : QueryDesk} {id : String} {sent : SentOrder}
    (hsent : v.sent.get? id = some sent) {d : OrderDeal} :
    v.matchedDeal id = some d ↔ ∃ found, v.Since sent found ∧ v.First id sent found d := by
  rw [matchedDeal, hsent, Option.bind_some]
  constructor
  · intro hd
    cases hfound : v.historyDealsGet (sent.tsNs - 5 * 1000000000) with
    | none =>
        rw [recentDeals, hfound] at hd
        cases hd
    | some found =>
        rw [recentDeals_of_since hfound, List.find?_eq_some_iff_append] at hd
        obtain ⟨hlooks, pre, post, hsplit, hpre⟩ := hd
        refine ⟨found, hfound, pre, post, hsplit, looksLike_iff.1 hlooks, fun e he hsame => ?_⟩
        have hno := hpre e he
        rw [looksLike_iff.2 hsame] at hno
        cases hno
  · rintro ⟨found, hfound, pre, post, hsplit, hsame, hpre⟩
    rw [recentDeals_of_since hfound, List.find?_eq_some_iff_append]
    refine ⟨looksLike_iff.2 hsame, pre, post, hsplit, fun e he => ?_⟩
    simpa using fun hlooks => hpre e he (looksLike_iff.1 hlooks)

theorem isSome_matchedDeal {v : QueryDesk} {id : String} {sent : SentOrder}
    (hsent : v.sent.get? id = some sent) {found : List OrderDeal} (hfound : v.Since sent found)
    {d : OrderDeal} (hd : d ∈ found) (hsame : v.Resembles id sent d) :
    (v.matchedDeal id).isSome := by
  rw [matchedDeal, hsent, Option.bind_some, recentDeals_of_since hfound, List.find?_isSome]
  exact ⟨d, hd, looksLike_iff.2 hsame⟩

/-- Whatever deals are on record and whatever orders were sent, reports are
sound exactly when no order can be mistaken. -/
theorem filledSoundly_iff : v.FilledSoundly deals owner ↔ v.Unmistakable deals owner := by
  refine and_congr ?_ ?_
  · refine forall₃_congr fun id sent hsent => ?_
    constructor
    · intro hsound hnot found hfound d hd hsame
      obtain ⟨first, hfirst⟩ :=
        Option.isSome_iff_exists.1 (isSome_matchedDeal hsent hfound hd hsame)
      exact hnot (hsound _ (by rw [queryOrder, hfirst, Option.map_some]) rfl)
    · intro halike r hr _
      by_contra hnot
      obtain ⟨d, hd, -⟩ := Option.map_eq_some_iff.1 hr
      obtain ⟨found, hfound, pre, post, hsplit, hsame, -⟩ := (matchedDeal_eq_some_iff hsent).1 hd
      exact halike hnot found hfound d (by rw [hsplit]; simp) hsame
  · constructor
    · intro hdeals id other sent sent' hne hsent hsent' found found' hfound hfound' d e hd he
      exact hdeals id other hne d e ((matchedDeal_eq_some_iff hsent).2 ⟨found, hfound, hd⟩)
        ((matchedDeal_eq_some_iff hsent').2 ⟨found', hfound', he⟩)
    · intro hfirst id other hne d e hd he
      obtain ⟨sent, hsent, -⟩ := Option.bind_eq_some_iff.1 hd
      obtain ⟨sent', hsent', -⟩ := Option.bind_eq_some_iff.1 he
      obtain ⟨found, hfound, hd'⟩ := (matchedDeal_eq_some_iff hsent).1 hd
      obtain ⟨found', hfound', he'⟩ := (matchedDeal_eq_some_iff hsent').1 he
      exact hfirst id other sent sent' hne hsent hsent' found found' hfound hfound' d e hd' he'

end QueryDesk

def closingDealDesk : QueryDesk where
  magic := 0
  sent := .ofEntries [("SFX2", { instrument := "EUR_USD", side := .buy, lots := 1, tsNs := 0 })]
  historyDealsGet _ := some
    [{ ticket := 9, timeMsc := 0, entry := .entryOut, isBuy := false, symbol := "EUR_USD",
       volume := 1, price := 11 / 10, comment := "close:time_stop", order := 9 }]

theorem not_filledSoundly_closingDeal :
    ¬closingDealDesk.FilledSoundly
      ((closingDealDesk.historyDealsGet 0).getD []) (fun _ => none) := by
  rintro ⟨hsound, -⟩
  have hmatched : (closingDealDesk.matchedDeal "SFX2").isSome := by decide +kernel
  obtain ⟨d, hd⟩ := Option.isSome_iff_exists.1 hmatched
  obtain ⟨_, _, howner, -⟩ := hsound "SFX2" _ rfl _
    (by rw [QueryDesk.queryOrder, hd, Option.map_some]) rfl
  cases howner

end MetaTrader

end Sentinel
