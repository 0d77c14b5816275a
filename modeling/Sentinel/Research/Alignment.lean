import Sentinel.Core.Money
import Sentinel.Strategy.Series
import Sentinel.Support.Dict

/-!
# Frames on one clock

The frames of a backtest are checked and put on the sorted union of their
instants.  An instant at which a symbol has no bar is a row without a price.
-/

namespace Sentinel

open Float64 Causal

variable {F : Type} [Float64 F]

/-! ## The data boundary -/

def Ohlc.Impossible (b : Ohlc F) : Prop :=
  lt b.high (maximum b.openPrice b.close) ∨ lt (minimum b.openPrice b.close) b.low ∨
    lt b.high b.low

instance (b : Ohlc F) : Decidable b.Impossible :=
  inferInstanceAs (Decidable (_ ∨ _ ∨ _))

def Ohlc.prices (b : Ohlc F) : List F := [b.openPrice, b.high, b.low, b.close]

/-- `validate_frame`; the instant in the text of the last but one refusal is
left out. -/
def validateFrame (name : String) (f : Frame F) : Except ValueError Unit :=
  let stamps := f.map FrameRow.tsNs
  let prices := f.flatMap fun r => r.toOhlc.prices
  if f.isEmpty then .error ⟨name ++ ": empty"⟩
  else if ¬ stamps.Nodup then .error ⟨name ++ ": duplicate timestamps"⟩
  else if ¬ stamps.Pairwise (· ≤ ·) then .error ⟨name ++ ": timestamps are not increasing"⟩
  else if ¬ prices.all isFinite then .error ⟨name ++ ": non-finite mid prices"⟩
  else if prices.any fun x => le x (ofRat 0) then .error ⟨name ++ ": non-positive mid prices"⟩
  else if ∃ r ∈ f, r.toOhlc.Impossible then .error ⟨name ++ ": impossible OHLC geometry"⟩
  else if f.any fun r => !isFinite r.volume || lt r.volume (ofRat 0) then
    .error ⟨name ++ ": invalid volume"⟩
  else .ok ()

/-! ## The clock -/

def Frame.rowAt {G : Type} (f : Frame G) (tsNs : ℤ) : Option (FrameRow G) :=
  f.find? fun r => r.tsNs = tsNs

def FrameRow.gap (tsNs : ℤ) : FrameRow F := { Ohlc.missing with tsNs, volume := nan }

def Frame.reindex (f : Frame F) (clock : List ℤ) : Frame F :=
  clock.map fun t => (f.rowAt t).getD (FrameRow.gap t)

def unionClock {G : Type} (frames : List (Frame G)) : List ℤ :=
  sortedKeys (frames.flatMap fun f => f.map FrameRow.tsNs)

def Frame.span {G : Type} (f : Frame G) : Option (ℤ × ℤ) :=
  f.head?.bind fun first => f.getLast?.map fun last => (first.tsNs, last.tsNs)

def overlap {G : Type} (clock : List ℤ) (a b : Frame G) : ℕ :=
  match a.span, b.span with
  | some (a0, a1), some (b0, b1) => clock.countP fun t => max a0 b0 ≤ t ∧ t ≤ min a1 b1
  | _, _ => 0

def pairs {α : Type} : List α → List (α × α)
  | [] => []
  | x :: xs => xs.map (fun y => (x, y)) ++ pairs xs

/-- `_align_on_timestamps`: the aligned frames and the clock. -/
def alignOnTimestamps (frames : List (String × Frame F)) (warmup : ℕ) :
    Except ValueError (List (String × Frame F) × List ℤ) :=
  let clock := unionClock (frames.map Prod.snd)
  match (pairs frames).find? fun p => overlap clock p.1.2 p.2.2 ≤ warmup with
  | some (a, b) =>
      .error ⟨a.1 ++ " and " ++ b.1 ++ " share only " ++
        toString (overlap clock a.2 b.2) ++ " bars of history"⟩
  | none => .ok (frames.map fun p => (p.1, p.2.reindex clock), clock)

end Sentinel
