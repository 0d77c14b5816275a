import Sentinel.Brokers.MetaTraderClock
import Sentinel.Data.BarSeries

/-!
# Bars of a terminal

`fetch_bars` corrects every bar of an answer by one offset: the half hour nearest
to what the last usable tick shows or, before there is one, what the profile
declares.  A bar is on UTC where that is the offset that was in force at its own
stamp; then a bar that is fetched again has the start that it had, and the store
holds no two bars of a series that overlap.
-/

namespace Sentinel
namespace MetaTrader

/-! ## `fetch_bars` -/

structure RateRow where
  time : Option ℤ
  openPrice : Option Dec
  high : Option Dec
  low : Option Dec
  close : Option Dec
  tickVolume : Dec := 0

structure RatesAnswer where
  hasTimeframe : Bool := true
  tick : Option Tick
  rates : Option (List RateRow)
  ratesSelected : Option (List RateRow) := none

def RatesAnswer.rows (a : RatesAnswer) : List RateRow :=
  match a.rates with
  | some (r :: rs) => r :: rs
  | _ => a.ratesSelected.getD []

/-- Why `fetch_bars` raises a `BrokerError`. -/
inductive FetchBarsError
  | badTimeframe (timeframe : String)
  | noBars (symbol timeframe : String)
  deriving DecidableEq

def timeframes : List String := ["M1", "M5", "M15", "M30", "H1", "H4", "D1", "W1"]

/-- One call of `fetch_bars`. -/
structure FetchCall where
  symbol : String
  timeframe : String
  count : ℤ
  endNs : Option ℤ
  wallNs : ℤ
  answer : RatesAnswer

/-! ### What the ticks show -/

/-- The server's clock is nearest to `k` half hours ahead of UTC by the tick. -/
def Tick.Shows (t : Tick) (wallNs k : ℤ) : Prop :=
  |(t.timeMsc / 1000 - wallNs / 1000000000 : Dec) - k * 1800| < 900 ∨
    |(t.timeMsc / 1000 - wallNs / 1000000000 : Dec) - k * 1800| = 900 ∧ k % 2 = 0

inductive Shown : List (Tick × ℤ) → Option ℤ → Prop
  | nothing : Shown [] none
  | newest {t : Tick} {wallNs k : ℤ} {older : List (Tick × ℤ)} :
      0 < t.timeMsc → t.Shows wallNs k → |k * 1800| ≤ 14 * 3600 →
        Shown ((t, wallNs) :: older) (some (k * 1800))
  | unusable {t : Tick} {wallNs : ℤ} {older : List (Tick × ℤ)} {offset : Option ℤ} :
      (t.timeMsc ≤ 0 ∨ ∀ k, t.Shows wallNs k → 14 * 3600 < |k * 1800|) → Shown older offset →
        Shown ((t, wallNs) :: older) offset

def KnownOffset (profile : ClockProfile) (wallNs : ℤ) (ticks : List (Tick × ℤ)) (offset : ℤ) :
    Prop :=
  Shown ticks (some offset) ∨
    Shown ticks none ∧
      offset = (profile.serverUtcOffsetHours +
        if profile.serverObservesDst = true ∧ TzRules.euDst wallNs = true then 1 else 0) * 3600

theorem Tick.shows_iff {t : Tick} {wallNs k : ℤ} :
    t.Shows wallNs k ↔
      roundHalfEven ((t.timeMsc / 1000 - wallNs / 1000000000 : Dec) / offsetQuantumSec) = k := by
  have hscale : (t.timeMsc / 1000 - wallNs / 1000000000 : Dec) / offsetQuantumSec - k =
      ((t.timeMsc / 1000 - wallNs / 1000000000 : Dec) - k * 1800) / 1800 := by
    simp only [offsetQuantumSec]
    push_cast
    ring
  rw [roundHalfEven_eq_iff, hscale, abs_div, abs_of_pos (by norm_num : (0 : Dec) < 1800),
    div_lt_iff₀ (by norm_num), div_eq_iff (by norm_num), Shows]
  norm_num

theorem Shown.unique {ticks : List (Tick × ℤ)} {a b : Option ℤ} (ha : Shown ticks a)
    (hb : Shown ticks b) : a = b := by
  induction ha with
  | nothing =>
      cases hb
      rfl
  | newest hpos hshows hnear =>
      cases hb with
      | newest _ hshows' _ =>
          rw [← Tick.shows_iff.mp hshows, Tick.shows_iff.mp hshows']
      | unusable hout _ =>
          rcases hout with hundated | hfar
          · exact absurd hpos (not_lt.mpr hundated)
          · exact absurd (hfar _ hshows) (not_lt.mpr hnear)
  | unusable hout _ ih =>
      cases hb with
      | newest hpos hshows hnear =>
          rcases hout with hundated | hfar
          · exact absurd hpos (not_lt.mpr hundated)
          · exact absurd (hfar _ hshows) (not_lt.mpr hnear)
      | unusable _ hb => exact ih hb

theorem Shown.observe {ticks : List (Tick × ℤ)} {c : ServerClock}
    (h : Shown ticks c.serverOffsetSec) (t : Tick) (wallNs : ℤ) :
    Shown ((t, wallNs) :: ticks) (c.observe t wallNs).serverOffsetSec := by
  have hdated : (t.timeMsc / 1000 : Dec) ≤ 0 ↔ t.timeMsc ≤ 0 := by
    rw [div_le_iff₀ (by norm_num), zero_mul]
    exact Int.cast_nonpos
  rw [ServerClock.observe]
  dsimp only
  by_cases hundated : (t.timeMsc / 1000 : Dec) ≤ 0
  · rw [if_pos hundated]
    exact .unusable (.inl (hdated.mp hundated)) h
  · rw [if_neg hundated]
    generalize hk : roundHalfEven
      ((t.timeMsc / 1000 - wallNs / 1000000000 : Dec) / offsetQuantumSec) = k
    have hshows : t.Shows wallNs k := Tick.shows_iff.mpr hk
    have hnear : |(t.timeMsc / 1000 - wallNs / 1000000000 : Dec) - (k * offsetQuantumSec : ℤ)| ≤
        offsetMaxStaleSec := by
      simp only [offsetQuantumSec, offsetMaxStaleSec]
      push_cast
      rcases hshows with hlt | ⟨heq, -⟩
      · exact hlt.le
      · exact heq.le
    by_cases hfar : offsetMaxAbsSec < |k * offsetQuantumSec|
    · rw [if_pos (.inl hfar)]
      refine .unusable (.inr fun k' hk' => ?_) h
      rw [← Tick.shows_iff.mp hk', hk]
      exact hfar
    · rw [if_neg (not_or.mpr ⟨hfar, not_lt.mpr hnear⟩)]
      exact .newest (not_le.mp fun hle => hundated (hdated.mpr hle)) hshows (not_lt.mp hfar)

theorem knownOffset_iff {ticks : List (Tick × ℤ)} {c : ServerClock}
    (h : Shown ticks c.serverOffsetSec) (profile : ClockProfile) (wallNs offset : ℤ) :
    KnownOffset profile wallNs ticks offset ↔ c.offsetSeconds profile wallNs = offset := by
  rw [KnownOffset, ServerClock.offsetSeconds]
  rcases hclock : c.serverOffsetSec with - | measured
  · rw [hclock] at h
    have hnone : ¬Shown ticks (some offset) := fun hsome => by cases h.unique hsome
    simp only [hnone, h, false_or, true_and, Bool.and_eq_true]
    exact eq_comm
  · rw [hclock] at h
    constructor
    · rintro (hsome | ⟨hnone, -⟩)
      · exact Option.some.inj (h.unique hsome)
      · cases h.unique hnone
    · rintro rfl
      exact .inl h

namespace FetchCall

variable (call : FetchCall) (c : ServerClock) (profile : ClockProfile)

def observed : ServerClock :=
  match call.answer.tick with
  | some t => c.observe t call.wallNs
  | none => c

def ticksRead (ticks : List (Tick × ℤ)) : List (Tick × ℤ) :=
  if (call.timeframe ∉ timeframes ∨ call.answer.hasTimeframe = false) ∨ call.count ≤ 0 then ticks
  else (call.answer.tick.map fun t => (t, call.wallNs)).toList ++ ticks

def offsetInUse : ℤ := (call.observed c).offsetSeconds profile call.wallNs

def bar? (r : RateRow) : Option Bar := do
  let time ← r.time
  let openPrice ← r.openPrice
  let high ← r.high
  let low ← r.low
  let close ← r.close
  let startNs := (call.observed c).barStartNs profile call.wallNs time
  let endNs := startNs + intervalNs call.timeframe
  if h : low ≤ high ∧ (low ≤ openPrice ∧ openPrice ≤ high) ∧ (low ≤ close ∧ close ≤ high) ∧
      startNs < endNs then
    some
      { instrument := call.symbol, timeframe := call.timeframe, openPrice, high, low, close
        volume := r.tickVolume, startNs, endNs
        complete := endNs ≤ call.endNs.getD call.wallNs, source := "mt5"
        low_le_high := h.1, open_within := h.2.1, close_within := h.2.2.1
        start_lt_end := h.2.2.2 }
  else none

def out : List Bar :=
  let bars := (call.answer.rows.filterMap (call.bar? c profile)).mergeSort fun a b =>
    a.startNs ≤ b.startNs
  match call.endNs with
  | some endNs => bars.filter fun b => b.startNs < endNs
  | none => bars

def fetchBars : Except FetchBarsError (List Bar) × ServerClock :=
  if call.timeframe ∉ timeframes ∨ call.answer.hasTimeframe = false then
    (.error (.badTimeframe call.timeframe), c)
  else if call.count ≤ 0 then (.ok [], c)
  else if call.answer.rows.isEmpty then
    (.error (.noBars call.symbol call.timeframe), call.observed c)
  else
    let out := call.out c profile
    (.ok (out.drop (out.length - call.count.toNat)), call.observed c)

def Returns (r : RateRow) (b : Bar) : Prop :=
  r ∈ call.answer.rows ∧ call.bar? c profile r = some b ∧
    ∃ bars, (call.fetchBars c profile).1 = .ok bars ∧ b ∈ bars

end FetchCall

/-! ## Runs -/

/-- The adapter's calibration, and the feed that it serves.  `ticks`, what it has
read since it was started, is no part of the program. -/
structure BarDesk where
  clock : ServerClock := {}
  feed : MarketFeed := {}
  ticks : List (Tick × ℤ) := []

inductive DeskMove
  | quote (tick : Option Tick) (wallNs : ℤ)
  | fetch (call : FetchCall)
  | refresh (instrument timeframe : String) (nowNs wallNs : ℤ) (answer : RatesAnswer)
  | restart

namespace BarDesk

def call (s : BarDesk) : DeskMove → Option FetchCall
  | .fetch call => some call
  | .refresh instrument timeframe nowNs wallNs answer =>
      (s.feed.asks instrument timeframe nowNs).map fun count =>
        ⟨instrument, timeframe, count, some nowNs, wallNs, answer⟩
  | _ => none

def step (profile : ClockProfile) (s : BarDesk) : DeskMove → BarDesk
  | .quote tick wallNs =>
      match tick with
      | some t => { s with clock := s.clock.observe t wallNs, ticks := (t, wallNs) :: s.ticks }
      | none => s
  | .fetch call =>
      { s with clock := (call.fetchBars s.clock profile).2, ticks := call.ticksRead s.ticks }
  | .refresh instrument timeframe nowNs wallNs answer =>
      match s.call (.refresh instrument timeframe nowNs wallNs answer) with
      | some call =>
          let fetched := call.fetchBars s.clock profile
          { clock := fetched.2
            feed := (s.feed.ingest instrument timeframe nowNs fetched.1.toOption).1
            ticks := call.ticksRead s.ticks }
      | none => s
  | .restart => { clock := {}, feed := s.feed.restart, ticks := [] }

end BarDesk

abbrev OffsetHistory : Type := ℤ → ℤ

namespace OffsetHistory

variable (o : OffsetHistory) (profile : ClockProfile)

def utcNs (time : ℤ) : ℤ := (time - o time) * 1000000000

def Stamped (s : BarDesk) (m : DeskMove) : Prop :=
  ∀ call, s.call m = some call → ∀ r b, call.Returns s.clock profile r b →
    ∀ time, r.time = some time → b.startNs = o.utcNs time

def InForce (s : BarDesk) (m : DeskMove) : Prop :=
  ∀ call, s.call m = some call → ∀ r b, call.Returns s.clock profile r b →
    ∀ time, r.time = some time →
      KnownOffset profile call.wallNs (call.ticksRead s.ticks) (o time)

/-- The stamps of the bars of every series, which do not overlap in UTC: from
one bar to a later one the offset rises by no more than the gap between them. -/
structure Series where
  stamps : String → String → Set ℤ
  apart : ∀ instrument timeframe, ∀ time ∈ stamps instrument timeframe,
    ∀ time' ∈ stamps instrument timeframe, time < time' →
      time + barSeconds timeframe + (o time' - o time) ≤ time'

def Series.Lists {o : OffsetHistory} (series : o.Series) (profile : ClockProfile) (s : BarDesk)
    (m : DeskMove) : Prop :=
  ∀ call, s.call m = some call → ∀ r b, call.Returns s.clock profile r b →
    ∀ time, r.time = some time → time ∈ series.stamps call.symbol call.timeframe

end OffsetHistory

def StoredApart (store : BarStore) : Prop :=
  ∀ k r k' r', store.rows.get? k = some r → store.rows.get? k' = some r' →
    r.complete = true → r'.complete = true → k.instrument = k'.instrument →
      k.timeframe = k'.timeframe → k.startNs < k'.startNs → r.endNs ≤ k'.startNs

/-! ## One call -/

theorem ok_of_toOption {ε α : Type} {x : Except ε α} {a : α} (h : x.toOption = some a) :
    x = .ok a := by
  rcases x with why | b
  · cases h
  · rw [Option.some.inj h]

namespace FetchCall

variable {call : FetchCall} {c : ServerClock} {profile : ClockProfile}

theorem bar?_eq_some {r : RateRow} {b : Bar} (h : call.bar? c profile r = some b) :
    ∃ time, r.time = some time ∧
      b.startNs = (time - call.offsetInUse c profile) * 1000000000 ∧
        b.instrument = call.symbol ∧ b.timeframe = call.timeframe ∧
          b.endNs = b.startNs + intervalNs call.timeframe := by
  simp only [bar?, Option.bind_eq_bind, Option.bind_eq_some_iff] at h
  obtain ⟨time, htime, _, _, _, _, _, _, _, _, h⟩ := h
  split_ifs at h
  rw [← Option.some.inj h]
  exact ⟨time, htime, (sub_mul _ _ _).symm, rfl, rfl, rfl⟩

theorem exists_returns {bars : List Bar} (h : (call.fetchBars c profile).1 = .ok bars) {b : Bar}
    (hb : b ∈ bars) : ∃ r, call.Returns c profile r b := by
  have hrow : ∃ r ∈ call.answer.rows, call.bar? c profile r = some b := by
    rw [fetchBars] at h
    split_ifs at h
    · rw [← Except.ok.inj h] at hb
      cases hb
    · rw [← Except.ok.inj h] at hb
      have hout : b ∈ call.out c profile := List.mem_of_mem_drop hb
      rw [out] at hout
      split at hout
      · rw [List.mem_filter, List.mem_mergeSort, List.mem_filterMap] at hout
        exact hout.1
      · rwa [List.mem_mergeSort, List.mem_filterMap] at hout
  obtain ⟨r, hr, hbar⟩ := hrow
  exact ⟨r, hr, hbar, bars, h, hb⟩

theorem returns_of_mem (hknown : call.timeframe ∈ timeframes)
    (hhas : call.answer.hasTimeframe = true) (hend : call.endNs = none) (hpos : 0 < call.count)
    (hcount : (call.answer.rows.length : ℤ) ≤ call.count) {r : RateRow} {b : Bar}
    (hr : r ∈ call.answer.rows) (hbar : call.bar? c profile r = some b) :
    call.Returns c profile r b := by
  have hout : call.out c profile = (call.answer.rows.filterMap (call.bar? c profile)).mergeSort
      fun a b => a.startNs ≤ b.startNs := by
    rw [out, hend]
  have hlength : (call.out c profile).length ≤ call.count.toNat := by
    rw [hout, List.length_mergeSort]
    have hle := List.length_filterMap_le (call.bar? c profile) call.answer.rows
    omega
  have hrows : ¬call.answer.rows.isEmpty = true := by
    rw [List.isEmpty_iff]
    exact List.ne_nil_of_mem hr
  refine ⟨hr, hbar, call.out c profile, ?_, ?_⟩
  · simp only [fetchBars]
    rw [if_neg (by simp [hknown, hhas]), if_neg (by omega), if_neg hrows,
      Nat.sub_eq_zero_of_le hlength, List.drop_zero]
  · rw [hout, List.mem_mergeSort, List.mem_filterMap]
    exact ⟨r, hr, hbar⟩

theorem shown_fetchBars {ticks : List (Tick × ℤ)} (h : Shown ticks c.serverOffsetSec) :
    Shown (call.ticksRead ticks) (call.fetchBars c profile).2.serverOffsetSec := by
  have hobserved : Shown ((call.answer.tick.map fun t => (t, call.wallNs)).toList ++ ticks)
      (call.observed c).serverOffsetSec := by
    rw [observed]
    split
    · rename_i t htick
      rw [htick]
      exact h.observe t call.wallNs
    · rename_i htick
      rw [htick]
      exact h
  rw [ticksRead, fetchBars]
  by_cases hframe : call.timeframe ∉ timeframes ∨ call.answer.hasTimeframe = false
  · rw [if_pos hframe, if_pos (.inl hframe)]
    exact h
  · rw [if_neg hframe]
    by_cases hcount : call.count ≤ 0
    · rw [if_pos hcount, if_pos (.inr hcount)]
      exact h
    · rw [if_neg hcount, if_neg (not_or.mpr ⟨hframe, hcount⟩)]
      split <;> exact hobserved

theorem Returns.knownOffset {ticks : List (Tick × ℤ)} (h : Shown ticks c.serverOffsetSec)
    {r : RateRow} {b : Bar} (hreturns : call.Returns c profile r b) (offset : ℤ) :
    KnownOffset profile call.wallNs (call.ticksRead ticks) offset ↔
      call.offsetInUse c profile = offset := by
  obtain ⟨-, -, bars, hbars, hb⟩ := hreturns
  have hclock : (call.fetchBars c profile).2 = call.observed c := by
    rw [fetchBars] at hbars ⊢
    split_ifs at hbars ⊢
    · rw [← Except.ok.inj hbars] at hb
      cases hb
    · rfl
  have hshown : Shown (call.ticksRead ticks) (call.fetchBars c profile).2.serverOffsetSec :=
    shown_fetchBars h
  rw [hclock] at hshown
  exact knownOffset_iff hshown profile call.wallNs offset

theorem Returns.startNs {r : RateRow} {b : Bar} (h : call.Returns c profile r b) {time : ℤ}
    (htime : r.time = some time) :
    b.startNs = (time - call.offsetInUse c profile) * 1000000000 := by
  obtain ⟨time', htime', hstart, -⟩ := bar?_eq_some h.2.1
  rw [htime] at htime'
  rw [hstart, Option.some.inj htime']

end FetchCall

/-! ## Whole runs -/

namespace OffsetHistory

variable {o : OffsetHistory} {profile : ClockProfile}

theorem shown_step {s : BarDesk} (h : Shown s.ticks s.clock.serverOffsetSec) (m : DeskMove) :
    Shown (s.step profile m).ticks (s.step profile m).clock.serverOffsetSec := by
  rcases m with ⟨tick, wallNs⟩ | call | ⟨instrument, timeframe, nowNs, wallNs, answer⟩ | -
  · rcases tick with - | t
    · exact h
    · exact h.observe t wallNs
  · exact FetchCall.shown_fetchBars h
  · rcases hcall : s.call (.refresh instrument timeframe nowNs wallNs answer) with - | call
    · simp only [BarDesk.step, hcall]
      exact h
    · simp only [BarDesk.step, hcall]
      exact FetchCall.shown_fetchBars h
  · exact .nothing

theorem stamped_iff_inForce {s : BarDesk} (hs : Shown s.ticks s.clock.serverOffsetSec)
    (m : DeskMove) : o.Stamped profile s m ↔ o.InForce profile s m := by
  apply forall₂_congr
  intro call _
  apply forall₃_congr
  intro r b hreturns
  apply forall₂_congr
  intro time htime
  rw [hreturns.startNs htime, utcNs, hreturns.knownOffset hs]
  constructor
  · intro h
    have hsub := mul_right_cancel₀ (by decide) h
    omega
  · intro h
    rw [h]

def OnSeries (series : o.Series) (store : BarStore) : Prop :=
  ∀ k r, store.rows.get? k = some r → ∃ time ∈ series.stamps k.instrument k.timeframe,
    k.startNs = o.utcNs time ∧ r.endNs = k.startNs + intervalNs k.timeframe

theorem storedApart_of_onSeries {series : o.Series} {store : BarStore}
    (h : OnSeries series store) : StoredApart store := by
  intro k r k' r' hr hr' _ _ hinstrument htimeframe hlt
  obtain ⟨time, htime, hstart, hend⟩ := h k r hr
  obtain ⟨time', htime', hstart', -⟩ := h k' r' hr'
  rw [← hinstrument, ← htimeframe] at htime'
  rcases lt_trichotomy time time' with hbefore | rfl | hafter
  · have hapart := series.apart _ _ time htime time' htime' hbefore
    rw [hend, hstart, hstart', utcNs, utcNs, intervalNs]
    omega
  · rw [hstart, hstart'] at hlt
    exact absurd hlt (lt_irrefl _)
  · have hapart := series.apart _ _ time' htime' time htime hafter
    have hpos := intervalNs_pos k.timeframe
    rw [hstart, hstart', utcNs, utcNs] at hlt
    rw [intervalNs] at hpos
    omega

theorem OnSeries.upsert {series : o.Series} {s : BarDesk} {m : DeskMove} {store : BarStore}
    (h : OnSeries series store) (hs : Shown s.ticks s.clock.serverOffsetSec)
    (hm : o.InForce profile s m ∧ series.Lists profile s m) {call : FetchCall}
    (hcall : s.call m = some call) {bars : List Bar}
    (hbars : (call.fetchBars s.clock profile).1 = .ok bars) (nowNs : ℤ) :
    OnSeries series (store.upsert nowNs (MarketFeed.fresh bars nowNs)) := by
  intro k r hr
  have hcomplete : ∀ b ∈ MarketFeed.fresh bars nowNs, b.complete = true :=
    MarketFeed.fresh_complete
  rcases store.get?_upsert nowNs hcomplete k with
    ⟨-, hsame⟩ | ⟨b, hb, rfl, source, hrow⟩
  · rw [hsame] at hr
    exact h k r hr
  · rw [hrow] at hr
    obtain ⟨row, hreturns⟩ := FetchCall.exists_returns hbars (List.mem_of_mem_filter hb)
    obtain ⟨time, htime, hstart, hinstrument, htimeframe, hend⟩ :=
      FetchCall.bar?_eq_some hreturns.2.1
    have huse := (hreturns.knownOffset hs _).mp (hm.1 call hcall row b hreturns time htime)
    have hlisted := hm.2 call hcall row b hreturns time htime
    rw [← hinstrument, ← htimeframe] at hlisted
    refine ⟨time, hlisted, ?_, ?_⟩
    · rw [Bar.key, hstart, huse, utcNs]
    · rw [← Option.some.inj hr, Bar.key, htimeframe]
      exact hend

theorem OnSeries.step {series : o.Series} {s : BarDesk} {m : DeskMove}
    (h : OnSeries series s.feed.store) (hs : Shown s.ticks s.clock.serverOffsetSec)
    (hm : o.InForce profile s m ∧ series.Lists profile s m) :
    OnSeries series (s.step profile m).feed.store := by
  rcases m with ⟨tick, wallNs⟩ | call | ⟨instrument, timeframe, nowNs, wallNs, answer⟩ | -
  · rcases tick with - | t <;> exact h
  · exact h
  · rcases hcall : s.call (.refresh instrument timeframe nowNs wallNs answer) with - | call
    · simp only [BarDesk.step, hcall]
      exact h
    · simp only [BarDesk.step, hcall]
      obtain ⟨count, -, rfl⟩ := Option.map_eq_some_iff.mp hcall
      rcases MarketFeed.ingest_cases s.feed instrument timeframe nowNs _ with
        ⟨hsame, -⟩ | ⟨count', bars, -, hbars, -, hstore⟩
      · rw [hsame]
        exact h
      · rw [hstore]
        exact h.upsert hs hm hcall (ok_of_toOption hbars) nowNs
  · exact h

/-- A run returns every bar at the instant of its stamp exactly when what the ticks
show, or else the profile declares, was always the offset in force; and then, with
bars that do not overlap in UTC, the store never holds two bars that do. -/
theorem stamped_run (o : OffsetHistory) (series : o.Series) (profile : ClockProfile)
    (history : ℕ) (ms : List DeskMove) :
    (Along (BarDesk.step profile) (o.Stamped profile) { feed := { history } } ms ↔
        Along (BarDesk.step profile) (o.InForce profile) { feed := { history } } ms) ∧
      (Along (BarDesk.step profile) (fun s m => o.InForce profile s m ∧ series.Lists profile s m)
          { feed := { history } } ms →
        Along (BarDesk.step profile)
          (fun s m => o.Stamped profile s m ∧ StoredApart (s.step profile m).feed.store)
          { feed := { history } } ms) := by
  constructor
  · exact Along.iff_of_kept (I := fun s => Shown s.ticks s.clock.serverOffsetSec)
      (fun _ m hs _ => shown_step hs m) (fun _ m hs => stamped_iff_inForce hs m) .nothing
  · refine Along.mono
      (I := fun s => Shown s.ticks s.clock.serverOffsetSec ∧ OnSeries series s.feed.store)
      (fun _ m h hm => ⟨shown_step h.1 m, h.2.step h.1 hm⟩) (fun _ m h hm => ?_) ⟨.nothing, ?_⟩
    · exact ⟨(stamped_iff_inForce h.1 m).mpr hm.1, storedApart_of_onSeries (h.2.step h.1 hm)⟩
    · intro k r hr
      cases hr

end OffsetHistory

/-! ## A change of the clock -/

def summerFrom (change : ℤ) : OffsetHistory := fun time => if time < change then 7200 else 10800

def easternProfile : ClockProfile := ⟨2, true⟩

def rateAt (time : ℤ) : RateRow := ⟨some time, some 1, some 1, some 1, some 1, 0⟩

def callAt (nowSec halfHours : ℤ) (times : List ℤ) : FetchCall where
  symbol := "EURUSD"
  timeframe := "H4"
  count := 10
  endNs := none
  wallNs := nowSec * 1000000000
  answer :=
    { tick := some ⟨1, 1, (nowSec + halfHours * 1800) * 1000⟩
      rates := some (times.map rateAt) }

theorem offsetInUse_callAt {nowSec k : ℤ} (hpos : 0 < nowSec + k * 1800)
    (hk : |k * offsetQuantumSec| ≤ offsetMaxAbsSec) (times : List ℤ) (c : ServerClock)
    (profile : ClockProfile) : (callAt nowSec k times).offsetInUse c profile = k * 1800 := by
  have hobserved : ((callAt nowSec k times).observed c).serverOffsetSec =
      some (k * offsetQuantumSec) := by
    change (c.observe ⟨1, 1, (nowSec + k * 1800) * 1000⟩ (nowSec * 1000000000)).serverOffsetSec = _
    apply ServerClock.observe_measures c hk
    · simp only
      omega
    · simp only [offsetQuantumSec, offsetMaxStaleSec]
      push_cast
      ring_nf
      norm_num
  rw [FetchCall.offsetInUse, ServerClock.offsetSeconds, hobserved]
  rfl

theorem exists_bar?_rateAt (call : FetchCall) (c : ServerClock) (profile : ClockProfile)
    (time : ℤ) : ∃ b, call.bar? c profile (rateAt time) = some b := by
  have hpos := intervalNs_pos call.timeframe
  simp only [FetchCall.bar?, rateAt, Option.bind_eq_bind, Option.bind_some]
  rw [dif_pos ⟨le_rfl, ⟨le_rfl, le_rfl⟩, ⟨le_rfl, le_rfl⟩, by omega⟩]
  exact ⟨_, rfl⟩

theorem mem_rows_callAt {nowSec k : ℤ} {times : List ℤ} {r : RateRow}
    (h : r ∈ (callAt nowSec k times).answer.rows) : ∃ time ∈ times, rateAt time = r := by
  rcases times with - | ⟨time, times⟩
  · cases h
  · exact List.mem_map.mp h

theorem inForce_callAt {o : OffsetHistory} {nowSec k : ℤ} {times : List ℤ}
    (hpos : 0 < nowSec + k * 1800) (hk : |k * 1800| ≤ 14 * 3600)
    (h : ∀ time ∈ times, o time = k * 1800) (profile : ClockProfile) (s : BarDesk) :
    o.InForce profile s (.fetch (callAt nowSec k times)) := by
  intro call hcall r b hreturns time htime
  rw [← Option.some.inj hcall] at hreturns ⊢
  obtain ⟨time', hmem, rfl⟩ := mem_rows_callAt hreturns.1
  rw [h time (Option.some.inj htime ▸ hmem)]
  refine .inl (.newest ?_ (.inl ?_) hk)
  · dsimp only
    omega
  · simp only [callAt]
    push_cast
    ring_nf
    norm_num

def twoSeasons : (summerFrom 1454400).Series where
  stamps _ timeframe := {time | timeframe = "H4" ∧ (time = 1440000 ∨ time = 1468800)}
  apart _ timeframe time htime time' htime' hlt := by
    obtain ⟨rfl, rfl | rfl⟩ := htime
    · obtain ⟨-, rfl | rfl⟩ := htime'
      · exact absurd hlt (lt_irrefl _)
      · decide
    · obtain ⟨-, rfl | rfl⟩ := htime'
      · exact absurd hlt (by decide)
      · exact absurd hlt (lt_irrefl _)

theorem lists_callAt {nowSec k time : ℤ} (htime : time = 1440000 ∨ time = 1468800)
    (profile : ClockProfile) (s : BarDesk) :
    twoSeasons.Lists profile s (.fetch (callAt nowSec k [time])) := by
  intro call hcall r b hreturns time' htime'
  rw [← Option.some.inj hcall] at hreturns ⊢
  obtain ⟨time'', hmem, rfl⟩ := mem_rows_callAt hreturns.1
  rw [List.mem_singleton] at hmem
  rw [← Option.some.inj htime', hmem]
  exact ⟨rfl, htime⟩

/-- A bar of winter that is fetched in summer starts an hour early. -/
theorem winter_bar_shifted :
    ¬Along (BarDesk.step easternProfile)
      (fun s m => (summerFrom 1454400).Stamped easternProfile s m ∧
        StoredApart (s.step easternProfile m).feed.store)
      { feed := { history := 1500 } } [.fetch (callAt 1472400 6 [1440000, 1468800])] := by
  intro h
  obtain ⟨b, hb⟩ := exists_bar?_rateAt (callAt 1472400 6 [1440000, 1468800]) {} easternProfile
    1440000
  have hreturns := FetchCall.returns_of_mem (by decide) rfl rfl (by decide) (by decide)
    List.mem_cons_self hb
  have hstamped := h.1.1 _ rfl _ b hreturns 1440000 rfl
  rw [hreturns.startNs rfl, offsetInUse_callAt (by decide) (by decide)] at hstamped
  revert hstamped
  decide

/-- The bar of each season is fetched in its season. -/
theorem each_in_season :
    Along (BarDesk.step easternProfile)
      (fun s m => (summerFrom 1454400).Stamped easternProfile s m ∧
        StoredApart (s.step easternProfile m).feed.store)
      { feed := { history := 1500 } }
      [.fetch (callAt 1447200 4 [1440000]), .fetch (callAt 1472400 6 [1468800])] := by
  refine (OffsetHistory.stamped_run (summerFrom 1454400) twoSeasons easternProfile 1500 _).2
    ⟨⟨?_, lists_callAt (.inl rfl) _ _⟩, ⟨?_, lists_callAt (.inr rfl) _ _⟩, trivial⟩
  · exact inForce_callAt (by decide) (by decide) (by decide) _ _
  · exact inForce_callAt (by decide) (by decide) (by decide) _ _

end MetaTrader
end Sentinel
