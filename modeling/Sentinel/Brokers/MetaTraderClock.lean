import Sentinel.Core.Clock
import Sentinel.Core.Types

/-!
# The server clock of a terminal

A terminal stamps its ticks and bars with the clock of the broker's server.
The adapter measures how far that clock is from UTC on every fresh tick, and
corrects the bars by it; the quotes keep the stamp of the server.  One call
reads the clock of the machine once.
-/

namespace Sentinel

structure StampedQuote extends Quote where
  tsNs : ℤ
  receivedNs : ℤ
  source : String := "unknown"

namespace MetaTrader

/-- A tick, as `symbol_info_tick` returns it. -/
structure Tick where
  bid : Dec
  ask : Dec
  timeMsc : ℤ

structure ServerClock where
  serverOffsetSec : Option ℤ := none
  measuredNs : ℤ := 0
  deriving DecidableEq

structure ClockProfile where
  serverUtcOffsetHours : ℤ
  serverObservesDst : Bool

def offsetQuantumSec : ℤ := 1800

def offsetMaxStaleSec : ℤ := 900

def offsetMaxAbsSec : ℤ := 14 * 3600

namespace ServerClock

variable (c : ServerClock)

/-- `_observe_server_clock`: calibrate from a tick, if the tick is fresh. -/
def observe (t : Tick) (wallNs : ℤ) : ServerClock :=
  let serverSec : Dec := t.timeMsc / 1000
  if serverSec ≤ 0 then c
  else
    let raw := serverSec - wallNs / 1000000000
    -- the residual is the tick's own age, and must be small
    let snapped := roundHalfEven (raw / offsetQuantumSec) * offsetQuantumSec
    if offsetMaxAbsSec < |snapped| ∨ (offsetMaxStaleSec : Dec) < |raw - snapped| then c
    else { serverOffsetSec := some snapped, measuredNs := wallNs }

/-- `_server_offset_seconds`: measured if possible, declared otherwise. -/
def offsetSeconds (profile : ClockProfile) (wallNs : ℤ) : ℤ :=
  match c.serverOffsetSec with
  | some offset => offset
  | none =>
      let summer := profile.serverObservesDst && TzRules.euDst wallNs
      (profile.serverUtcOffsetHours + if summer then 1 else 0) * 3600

/-- The start of a bar in `fetch_bars`, from the server time of its row. -/
def barStartNs (profile : ClockProfile) (wallNs time : ℤ) : ℤ :=
  time * 1000000000 - c.offsetSeconds profile wallNs * 1000000000

/-- `quote`, from the terminal's answer. -/
def quote (c : ServerClock) (symbol : String) (answer : Option Tick) (wallNs : ℤ) :
    Except String StampedQuote × ServerClock :=
  match answer with
  | none => (.error ("no tick for " ++ symbol), c)
  | some t =>
      let observed := c.observe t wallNs
      if h : t.bid ≤ t.ask then
        (.ok
          { instrument := symbol, bid := t.bid, ask := t.ask, bid_le_ask := h
            tsNs := t.timeMsc * 1000000, receivedNs := wallNs, source := "mt5" }, observed)
      else (.error ("crossed quote on " ++ symbol), observed)

theorem quote_fst (c c' : ServerClock) (symbol : String) (answer : Option Tick) (wallNs : ℤ) :
    (c.quote symbol answer wallNs).1 = (c'.quote symbol answer wallNs).1 := by
  rcases answer with _ | t
  · rfl
  · simp only [quote]
    split_ifs <;> rfl

theorem observe_measures {t : Tick} {wallNs k : ℤ}
    (hk : |k * offsetQuantumSec| ≤ offsetMaxAbsSec) (hpos : 0 < t.timeMsc)
    (hfresh : |(t.timeMsc / 1000 : Dec) - k * offsetQuantumSec - wallNs / 1000000000| <
      offsetMaxStaleSec) :
    (c.observe t wallNs).serverOffsetSec = some (k * offsetQuantumSec) := by
  have hsec : ¬ (t.timeMsc / 1000 : Dec) ≤ 0 := by
    have hcast : (0 : Dec) < t.timeMsc := by exact_mod_cast hpos
    rw [not_le]
    positivity
  have hraw :
      |((t.timeMsc : Dec) / 1000 - wallNs / 1000000000) / offsetQuantumSec - k| < 1 / 2 := by
    rw [abs_lt] at hfresh ⊢
    simp only [offsetQuantumSec, offsetMaxStaleSec] at hfresh ⊢
    push_cast at hfresh ⊢
    constructor <;> linarith [hfresh.1, hfresh.2]
  have hround := roundHalfEven_eq_of_abs_lt hraw
  have hkept : ¬ (offsetMaxAbsSec < |k * offsetQuantumSec| ∨ (offsetMaxStaleSec : Dec) <
      |(t.timeMsc : Dec) / 1000 - wallNs / 1000000000 - ((k * offsetQuantumSec : ℤ) : Dec)|) := by
    rw [not_or, not_lt, not_lt]
    refine ⟨hk, ?_⟩
    rw [sub_right_comm]
    push_cast
    exact hfresh.le
  rw [observe]
  simp only [hround]
  rw [if_neg hsec, if_neg hkept]

end ServerClock

end MetaTrader

end Sentinel
