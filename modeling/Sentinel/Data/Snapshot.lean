import Mathlib.Order.WithBot
import Sentinel.Agent.Context
import Sentinel.Brokers.MetaTraderClock
import Sentinel.Data.BarFeed

/-!
# The age of a quote

A snapshot reports for every instrument the older of two ages, since the quote
came in and since the venue stamped it, and marks a quote from the future.  The
terminal stamps a tick with the clock of its server, so the second age is
measured on another clock than the first.
-/

namespace Sentinel

/-! ## The snapshot -/

structure DataPassport where
  bars : ℕ
  lastStartNs : Option ℤ
  ageSec : WithTop Dec
  gaps : ℕ
  quality : DataQuality

/-- `passport`; the count of gaps is given. -/
def BarStore.passport (s : BarStore) (gaps : ℕ) (instrument timeframe : String) (nowNs : ℤ) :
    DataPassport :=
  match s.latestStartNs instrument timeframe with
  | none => { bars := 0, lastStartNs := none, ageSec := ⊤, gaps := 0, quality := .gap }
  | some last =>
      let age : Dec := (nowNs - last) / 1000000000
      { bars := (s.series instrument timeframe).length
        lastStartNs := some last
        ageSec := age
        gaps := gaps
        quality :=
          if barSeconds timeframe * 3 < age then .stale else if 0 < gaps then .gap else .ok }

theorem BarStore.quality_passport_ne (s : BarStore) (gaps : ℕ) (instrument timeframe : String)
    (nowNs : ℤ) : (s.passport gaps instrument timeframe nowNs).quality ≠ .suspect := by
  rw [passport]
  split
  · simp
  · simp only
    split_ifs <;> simp

structure MarketFeed.FeedSnapshot where
  quotes : Dict String StampedQuote := .empty
  passports : Dict String DataPassport := .empty
  ages : Dict String (WithTop Dec) := .empty
  quality : Dict String DataQuality := .empty
  errors : Dict String String := .empty

def StampedQuote.venueAge (q : StampedQuote) (nowNs : ℤ) : Dec :=
  if q.tsNs ≠ 0 then (nowNs - q.tsNs) / 1000000000 else 0

def StampedQuote.age (q : StampedQuote) (nowNs : ℤ) : Dec :=
  max ((nowNs - q.receivedNs) / 1000000000) (q.venueAge nowNs)

def StampedQuote.FromFuture (q : StampedQuote) (nowNs : ℤ) : Prop :=
  q.tsNs ≠ 0 ∧ nowNs + 2000000000 < q.tsNs

instance (q : StampedQuote) (nowNs : ℤ) : Decidable (q.FromFuture nowNs) := by
  delta StampedQuote.FromFuture
  infer_instance

namespace MarketFeed.FeedSnapshot

def addQuote (snap : MarketFeed.FeedSnapshot) (nowNs : ℤ) (sym : String) :
    Except String StampedQuote → MarketFeed.FeedSnapshot
  | .ok q =>
      { snap with
        quotes := snap.quotes.set sym q
        quality := if q.FromFuture nowNs then snap.quality.set sym .suspect else snap.quality
        ages := snap.ages.set sym (q.age nowNs) }
  | .error why =>
      { snap with
        errors := snap.errors.set sym ("quote: " ++ why)
        quality := snap.quality.set sym .gap }

def addPassport (snap : MarketFeed.FeedSnapshot) (sym : String) (p : DataPassport) :
    MarketFeed.FeedSnapshot :=
  { snap with
    passports := snap.passports.set sym p
    quality := snap.quality.setDefault sym p.quality
    ages := snap.ages.setDefault sym p.ageSec }

end MarketFeed.FeedSnapshot

/-- The arguments of a snapshot, with the store as `refresh` leaves it and the
reading of the clock at which each quote comes in. -/
structure SnapshotCall where
  nowNs : ℤ
  instruments : List String
  timeframe : String
  store : BarStore
  gaps : String → ℕ
  wallNs : String → ℤ

/-- `snapshot`, over a venue with a state. -/
def snapshot {σ : Type} (quote : σ → String → Except String StampedQuote × σ)
    (call : SnapshotCall) (s : σ) : MarketFeed.FeedSnapshot × σ :=
  call.instruments.foldl
    (fun acc sym =>
      let (answer, s) := quote acc.2 sym
      let passport := call.store.passport (call.gaps sym) sym call.timeframe call.nowNs
      ((acc.1.addQuote call.nowNs sym answer).addPassport sym passport, s))
    ({}, s)

def SnapshotCall.read (call : SnapshotCall) (answer : String → Except String StampedQuote)
    (snap : MarketFeed.FeedSnapshot) (sym : String) : MarketFeed.FeedSnapshot :=
  (snap.addQuote call.nowNs sym (answer sym)).addPassport sym
    (call.store.passport (call.gaps sym) sym call.timeframe call.nowNs)

theorem snapshot_fst {σ : Type} {quote : σ → String → Except String StampedQuote × σ}
    {answer : String → Except String StampedQuote} (h : ∀ s sym, (quote s sym).1 = answer sym)
    (call : SnapshotCall) (s : σ) :
    (snapshot quote call s).1 = call.instruments.foldl (call.read answer) {} := by
  rw [snapshot]
  generalize ({} : MarketFeed.FeedSnapshot) = snap
  induction call.instruments generalizing snap s with
  | nil => rfl
  | cons sym rest ih =>
      rw [List.foldl_cons, List.foldl_cons, SnapshotCall.read, ← h s sym]
      exact ih _ _

theorem reported {call : SnapshotCall} {answer : String → Except String StampedQuote}
    {sym : String} {q : StampedQuote} (h : answer sym = .ok q) (done : List String) :
    (done.foldl (call.read answer) {}).ages.get? sym =
        (if sym ∈ done then some ((q.age call.nowNs : Dec) : WithTop Dec) else none) ∧
      (done.foldl (call.read answer) {}).quality.get? sym =
        if sym ∈ done then
          some (if q.FromFuture call.nowNs then .suspect
            else (call.store.passport (call.gaps sym) sym call.timeframe call.nowNs).quality)
        else none := by
  induction done using List.reverseRecOn with
  | nil => exact ⟨rfl, rfl⟩
  | append_singleton done last ih =>
      rw [List.foldl_append, List.foldl_cons, List.foldl_nil]
      generalize done.foldl (call.read answer) {} = snap at ih
      obtain ⟨hage, hquality⟩ := ih
      by_cases hlast : sym = last
      · subst hlast
        simp only [SnapshotCall.read, h, MarketFeed.FeedSnapshot.addQuote,
          MarketFeed.FeedSnapshot.addPassport, Dict.get?_setDefault, Dict.get?_set_self, if_pos,
          Option.getD_some, List.mem_append, List.mem_singleton, or_true, true_and]
        by_cases hfuture : q.FromFuture call.nowNs
        · rw [if_pos hfuture, if_pos hfuture, Dict.get?_set_self]
          rfl
        · rw [if_neg hfuture, if_neg hfuture, hquality]
          by_cases hdone : sym ∈ done
          · rw [if_pos hdone, if_neg hfuture]
            rfl
          · rw [if_neg hdone]
            rfl
      · have hmem : sym ∈ done ++ [last] ↔ sym ∈ done := by simp [hlast]
        have hother : (call.read answer snap last).ages.get? sym = snap.ages.get? sym ∧
            (call.read answer snap last).quality.get? sym = snap.quality.get? sym := by
          rw [SnapshotCall.read, MarketFeed.FeedSnapshot.addPassport]
          rcases answer last with why | q'
          · simp [MarketFeed.FeedSnapshot.addQuote, Dict.get?_setDefault, Dict.get?_set, hlast]
          · simp only [MarketFeed.FeedSnapshot.addQuote, Dict.get?_setDefault, Dict.get?_set, hlast,
              if_false]
            split_ifs <;> simp [Dict.get?_set, hlast]
        rw [hother.1, hother.2]
        simp only [hmem]
        exact ⟨hage, hquality⟩

/-! ## A terminal whose server has its own clock -/

structure ServerTick where
  bid : Dec
  ask : Dec
  utcMs : ℤ

def ServerTick.utcNs (k : ServerTick) : ℤ := k.utcMs * 1000000

/-- The tick as the server stamps it: `offset` is its clock minus UTC, in
seconds, at an instant. -/
def ServerTick.stamp (offset : ℤ → ℤ) (k : ServerTick) : MetaTrader.Tick :=
  { bid := k.bid, ask := k.ask, timeMsc := k.utcMs + 1000 * offset k.utcMs }

/-- The last tick of every symbol, and the calibration of the adapter. -/
structure TerminalState where
  ticks : Dict String ServerTick := .empty
  clock : MetaTrader.ServerClock := {}

inductive TerminalMove where
  | tick (venueSymbol : String) (k : ServerTick)
  | snapshot (call : SnapshotCall)

namespace TerminalState

variable (offset : ℤ → ℤ) (venueSymbol : String → String)

def lastTick (s : TerminalState) (sym : String) : Option ServerTick :=
  s.ticks.get? (venueSymbol sym)

/-- `snapshot` on the adapter of the terminal. -/
def snapshot (s : TerminalState) (call : SnapshotCall) :
    MarketFeed.FeedSnapshot × MetaTrader.ServerClock :=
  Sentinel.snapshot
    (fun clock sym => clock.quote sym ((s.lastTick venueSymbol sym).map (·.stamp offset))
      (call.wallNs sym))
    call s.clock

def move (s : TerminalState) : TerminalMove → TerminalState
  | .tick symbol k => { s with ticks := s.ticks.set symbol k }
  | .snapshot call => { s with clock := (s.snapshot offset venueSymbol call).2 }

end TerminalState

def ServerTick.trueAge (k : ServerTick) (nowNs : ℤ) : Dec := (nowNs - k.utcNs) / 1000000000

structure ServerTick.Current (k : ServerTick) (limit : ℕ) (nowNs wallNs : ℤ) : Prop where
  made : k.utcNs ≤ nowNs + 2000000000
  recent : k.trueAge nowNs ≤ limit
  received : (nowNs - wallNs : Dec) / 1000000000 ≤ limit

def ServerTick.quote (k : ServerTick) (h : k.bid ≤ k.ask) (offset : ℤ → ℤ) (sym : String)
    (wallNs : ℤ) : StampedQuote :=
  { instrument := sym, bid := k.bid, ask := k.ask, bid_le_ask := h
    tsNs := (k.utcMs + 1000 * offset k.utcMs) * 1000000, receivedNs := wallNs, source := "mt5" }

theorem ServerTick.tsNs_ne_zero {offset : ℤ → ℤ} (k : ServerTick) (h : k.bid ≤ k.ask)
    (sym : String) (wallNs : ℤ) (hstamped : k.utcMs + 1000 * offset k.utcMs ≠ 0) :
    (k.quote h offset sym wallNs).tsNs ≠ 0 :=
  mul_ne_zero hstamped (by norm_num)

theorem ServerTick.tsNs_eq {offset : ℤ → ℤ} (k : ServerTick) (h : k.bid ≤ k.ask) (sym : String)
    (wallNs : ℤ) :
    (k.quote h offset sym wallNs).tsNs = k.utcNs + offset k.utcMs * 1000000000 := by
  rw [quote, utcNs]
  ring

namespace TerminalState

variable (offset : ℤ → ℤ) (venueSymbol : String → String) (limit : ℕ)

structure Quoted (s : TerminalState) (call : SnapshotCall) (sym : String) (k : ServerTick) :
    Prop where
  asked : sym ∈ call.instruments
  last : s.lastTick venueSymbol sym = some k
  uncrossed : k.bid ≤ k.ask
  stamped : k.utcMs + 1000 * offset k.utcMs ≠ 0

variable (s : TerminalState)

def Honest : TerminalMove → Prop
  | .tick _ _ => True
  | .snapshot call => ∀ sym k, s.Quoted offset venueSymbol call sym k →
      ∃ age : Dec, (s.snapshot offset venueSymbol call).1.ages.get? sym = some (age : WithTop Dec) ∧
        k.trueAge call.nowNs ≤ age ∧
        (k.Current limit call.nowNs (call.wallNs sym) → age ≤ limit ∧
          (s.snapshot offset venueSymbol call).1.quality.get? sym ≠ some .suspect)

def Aligned : TerminalMove → Prop
  | .tick _ _ => True
  | .snapshot call => ∀ sym k, s.Quoted offset venueSymbol call sym k →
      (call.wallNs sym ≤ k.utcNs ∨ offset k.utcMs ≤ 0) ∧
        (k.Current limit call.nowNs (call.wallNs sym) →
          k.utcNs + offset k.utcMs * 1000000000 ≤ call.nowNs + 2000000000 ∧
            call.nowNs - k.utcNs - offset k.utcMs * 1000000000 ≤ limit * 1000000000)

variable {offset venueSymbol limit}

theorem reported_of_quoted {s : TerminalState} {call : SnapshotCall} {sym : String}
    {k : ServerTick} (h : s.Quoted offset venueSymbol call sym k) :
    (s.snapshot offset venueSymbol call).1.ages.get? sym =
        some (((k.quote h.uncrossed offset sym (call.wallNs sym)).age call.nowNs : Dec) :
          WithTop Dec) ∧
      ((s.snapshot offset venueSymbol call).1.quality.get? sym = some .suspect ↔
        (k.quote h.uncrossed offset sym (call.wallNs sym)).FromFuture call.nowNs) := by
  let answer : String → Except String StampedQuote := fun sym =>
    (({} : MetaTrader.ServerClock).quote sym
      ((s.lastTick venueSymbol sym).map (·.stamp offset)) (call.wallNs sym)).1
  have hanswer : answer sym = .ok (k.quote h.uncrossed offset sym (call.wallNs sym)) := by
    simp only [answer, h.last, Option.map_some, MetaTrader.ServerClock.quote]
    exact congrArg Prod.fst (dif_pos h.uncrossed)
  have hsame : (s.snapshot offset venueSymbol call).1 =
      call.instruments.foldl (call.read answer) {} := by
    apply snapshot_fst
    intro clock sym'
    exact MetaTrader.ServerClock.quote_fst _ _ _ _ _
  obtain ⟨hage, hquality⟩ := reported hanswer call.instruments
  rw [if_pos h.asked] at hage hquality
  rw [hsame]
  refine ⟨hage, ?_⟩
  rw [hquality, Option.some.injEq]
  split_ifs with hfuture
  · exact iff_of_true rfl hfuture
  · exact iff_of_false (BarStore.quality_passport_ne _ _ _ _ _) hfuture

theorem trueAge_le_iff {k : ServerTick} (h : k.bid ≤ k.ask) (sym : String) (nowNs wallNs : ℤ)
    (hstamped : k.utcMs + 1000 * offset k.utcMs ≠ 0) :
    k.trueAge nowNs ≤ (k.quote h offset sym wallNs).age nowNs ↔
      wallNs ≤ k.utcNs ∨ offset k.utcMs ≤ 0 := by
  have hts : (k.quote h offset sym wallNs).tsNs ≠ 0 := k.tsNs_ne_zero h sym wallNs hstamped
  rw [ServerTick.trueAge, StampedQuote.age, StampedQuote.venueAge, if_pos hts, le_max_iff,
    div_le_div_iff_of_pos_right (by norm_num), div_le_div_iff_of_pos_right (by norm_num),
    sub_le_sub_iff_left, sub_le_sub_iff_left, Int.cast_le, Int.cast_le]
  rw [k.tsNs_eq h sym wallNs, add_le_iff_nonpos_right]
  apply or_congr_right
  constructor
  · intro hle
    linarith
  · intro hle
    linarith

theorem within_iff {k : ServerTick} (h : k.bid ≤ k.ask) (sym : String) (nowNs wallNs : ℤ)
    (hstamped : k.utcMs + 1000 * offset k.utcMs ≠ 0)
    (hreceived : (nowNs - wallNs : Dec) / 1000000000 ≤ limit) :
    (k.quote h offset sym wallNs).age nowNs ≤ limit ∧
        ¬ (k.quote h offset sym wallNs).FromFuture nowNs ↔
      k.utcNs + offset k.utcMs * 1000000000 ≤ nowNs + 2000000000 ∧
        nowNs - k.utcNs - offset k.utcMs * 1000000000 ≤ limit * 1000000000 := by
  have hts := k.tsNs_ne_zero h sym wallNs hstamped
  have hage : (k.quote h offset sym wallNs).age nowNs ≤ limit ↔
      nowNs - k.utcNs - offset k.utcMs * 1000000000 ≤ limit * 1000000000 := by
    rw [StampedQuote.age, StampedQuote.venueAge, if_pos hts, max_le_iff]
    refine (and_iff_right hreceived).trans ?_
    rw [k.tsNs_eq h sym wallNs, div_le_iff₀ (by norm_num), sub_sub]
    norm_cast
  rw [hage, StampedQuote.FromFuture, k.tsNs_eq h sym wallNs, and_comm]
  apply and_congr_left
  intro _
  rw [← k.tsNs_eq h sym wallNs, not_and, not_lt]
  exact ⟨fun hnot => hnot hts, fun hle _ => hle⟩

theorem honest_iff_aligned (m : TerminalMove) :
    s.Honest offset venueSymbol limit m ↔ s.Aligned offset venueSymbol limit m := by
  rcases m with ⟨symbol, k⟩ | call
  · exact Iff.rfl
  · apply forall_congr'
    intro sym
    apply forall_congr'
    intro k
    apply forall_congr'
    intro hquoted
    obtain ⟨hage, hquality⟩ := reported_of_quoted hquoted
    have hold := trueAge_le_iff hquoted.uncrossed sym call.nowNs (call.wallNs sym) hquoted.stamped
    have hwithin := fun hreceived : (call.nowNs - call.wallNs sym : Dec) / 1000000000 ≤ limit =>
      within_iff hquoted.uncrossed sym call.nowNs (call.wallNs sym) hquoted.stamped hreceived
    constructor
    · rintro ⟨age, hreported, htrue, hcurrent⟩
      have heq : age = (k.quote hquoted.uncrossed offset sym (call.wallNs sym)).age call.nowNs :=
        WithTop.coe_injective (Option.some.inj (hreported.symm.trans hage))
      rw [heq] at htrue hcurrent
      refine ⟨hold.mp htrue, ?_⟩
      intro hk
      obtain ⟨hlimit, hsuspect⟩ := hcurrent hk
      exact (hwithin hk.received).mp ⟨hlimit, fun hfuture => hsuspect (hquality.mpr hfuture)⟩
    · rintro ⟨htrue, hcurrent⟩
      refine ⟨_, hage, hold.mpr htrue, ?_⟩
      intro hk
      obtain ⟨hlimit, hfuture⟩ := (hwithin hk.received).mpr (hcurrent hk)
      exact ⟨hlimit, fun hsuspect => hfuture (hquality.mp hsuspect)⟩

theorem along_honest_iff (moves : List TerminalMove) :
    Along (move offset venueSymbol) (Honest offset venueSymbol limit) s moves ↔
      Along (move offset venueSymbol) (Aligned offset venueSymbol limit) s moves := by
  apply Along.iff_of_kept (I := fun _ => True) (fun _ _ _ _ => trivial) _ trivial
  exact fun s m _ => honest_iff_aligned s m

theorem aligned_of_utc (hutc : ∀ utcMs, utcMs + 1000 * offset utcMs ≠ 0 → offset utcMs = 0)
    (s : TerminalState) (m : TerminalMove) : s.Aligned offset venueSymbol limit m := by
  rcases m with ⟨symbol, k⟩ | call
  · trivial
  · intro sym k hquoted
    have hzero := hutc k.utcMs hquoted.stamped
    refine ⟨.inr hzero.le, ?_⟩
    intro hk
    have hrecent := hk.recent
    rw [ServerTick.trueAge, div_le_iff₀ (by norm_num)] at hrecent
    rw [hzero]
    refine ⟨by linarith [hk.made], ?_⟩
    have hle : call.nowNs - k.utcNs ≤ limit * 1000000000 := by exact_mod_cast hrecent
    linarith

def tickThenSnapshot (venueSymbol : String → String) (utcMs nowNs wallNs : ℤ) : List TerminalMove :=
  [.tick (venueSymbol "EUR_USD") { bid := 1, ask := 1, utcMs := utcMs },
    .snapshot
      { nowNs := nowNs, instruments := ["EUR_USD"], timeframe := "H1", store := {},
        gaps := fun _ => 0, wallNs := fun _ => wallNs }]

theorem quoted_tick {utcMs nowNs wallNs : ℤ} (hstamped : utcMs + 1000 * offset utcMs ≠ 0)
    (halong : Along (move offset venueSymbol) (Aligned offset venueSymbol limit) {}
      (tickThenSnapshot venueSymbol utcMs nowNs wallNs)) :
    (wallNs ≤ utcMs * 1000000 ∨ offset utcMs ≤ 0) ∧
      (ServerTick.Current { bid := 1, ask := 1, utcMs := utcMs } limit nowNs wallNs →
        utcMs * 1000000 + offset utcMs * 1000000000 ≤ nowNs + 2000000000 ∧
          nowNs - utcMs * 1000000 - offset utcMs * 1000000000 ≤ limit * 1000000000) := by
  obtain ⟨-, hsnapshot, -⟩ := halong
  apply hsnapshot "EUR_USD" { bid := 1, ask := 1, utcMs := utcMs }
  exact ⟨List.mem_singleton.mpr rfl, Dict.get?_set_self _ _ _, le_rfl, hstamped⟩

theorem utc_of_aligned (h : ∀ moves, Along (move offset venueSymbol)
    (Aligned offset venueSymbol limit) {} moves) (utcMs : ℤ)
    (hstamped : utcMs + 1000 * offset utcMs ≠ 0) : offset utcMs = 0 := by
  rcases lt_trichotomy (offset utcMs) 0 with hbehind | hzero | hahead
  · -- the tick is as old as the limit, and its stamp is older
    have hrun := quoted_tick hstamped (h (tickThenSnapshot venueSymbol utcMs
      (utcMs * 1000000 + limit * 1000000000) (utcMs * 1000000 + limit * 1000000000)))
    have hcurrent : ServerTick.Current { bid := 1, ask := 1, utcMs := utcMs } limit
        (utcMs * 1000000 + limit * 1000000000) (utcMs * 1000000 + limit * 1000000000) := by
      refine ⟨?_, ?_, ?_⟩
      · have hlimit := Int.natCast_nonneg limit
        rw [ServerTick.utcNs]
        linarith
      · rw [ServerTick.trueAge, ServerTick.utcNs, div_le_iff₀ (by norm_num)]
        push_cast
        linarith
      · rw [sub_self, zero_div]
        exact Nat.cast_nonneg limit
    have hstale := (hrun.2 hcurrent).2
    linarith
  · exact hzero
  · -- the quote comes in after its tick was made
    have hrun := quoted_tick hstamped (h (tickThenSnapshot venueSymbol utcMs
      (utcMs * 1000000) (utcMs * 1000000 + 1)))
    rcases hrun.1 with hearly | hbehind
    · omega
    · exact hbehind.antisymm hahead.le

end TerminalState

open TerminalState

/-- In a run, every quote is honest exactly when, at every snapshot, the server
clock is not ahead for a tick received after it was made and a current tick is
current by its stamp; that holds in all runs exactly for a server on UTC. -/
theorem quote_age_on_one_clock (offset : ℤ → ℤ) (venueSymbol : String → String) (limit : ℕ) :
    (∀ s moves, Along (move offset venueSymbol) (Honest offset venueSymbol limit) s moves ↔
        Along (move offset venueSymbol) (Aligned offset venueSymbol limit) s moves) ∧
      ((∀ moves, Along (move offset venueSymbol) (Honest offset venueSymbol limit) {} moves) ↔
        ∀ utcMs, utcMs + 1000 * offset utcMs ≠ 0 → offset utcMs = 0) := by
  refine ⟨along_honest_iff, ?_⟩
  constructor
  · intro h
    exact utc_of_aligned fun moves => (along_honest_iff {} moves).mp (h moves)
  · intro hutc moves
    rw [along_honest_iff]
    exact Along.of_forall (aligned_of_utc hutc) _ _

/-- A server three hours ahead: an hour-old tick, whose quote just came in, is
reported as new. -/
theorem frozen_feed_reads_fresh :
    ¬ Along (move (fun _ => 10800) id) (Honest (fun _ => 10800) id 90) {}
      (tickThenSnapshot id 1750000000000 1750003600000000000 1750003600000000000) := by
  intro h
  rw [along_honest_iff] at h
  rcases (quoted_tick (by norm_num) h).1 with hearly | hbehind
  · norm_num at hearly
  · norm_num at hbehind

end Sentinel
