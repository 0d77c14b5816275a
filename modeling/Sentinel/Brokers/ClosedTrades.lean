import Sentinel.Core.Types
import Sentinel.Support.CursorFeed
import Mathlib.Data.List.Basic

/-!
# Closed trades and the cursors of the adapters

An adapter reads the venue's history from a cursor, a text that the agent keeps
between two polls and does not look into.  `Reads` is what the two live
adapters have in common: behind the text stands a key, and a poll takes the
round trips whose key is above it.
-/

namespace Sentinel

/-- One completed round trip: the fields an adapter fills in. -/
structure ClosedTrade where
  tradeId : String
  strategy : String
  instrument : String
  side : Side
  lots : Dec
  entryPrice : Dec
  exitPrice : Dec
  openedNs : ℤ
  closedNs : ℤ
  pnl : Dec
  pnlPips : Dec
  commission : Dec := 0
  financing : Dec := 0
  initialRisk : Dec := 0
  rMultiple : Dec := 0
  exitReason : String := ""
  tags : List String := []
  deriving DecidableEq

/-- What `fetch_closed_trades` ends in: the trades and the new cursor, or the
message of an exception. -/
abbrev Fetched := Except String (List ClosedTrade × String)

structure HistoryBroker (ν : Type) where
  supportsClosedTradeHistory : Bool := true
  fetchClosedTrades : ν → String → Fetched

/-! ## Numbers in a cursor -/

-- Without it a wider import decides the condition by going through every character.
@[reducible] def decidableDigits (cs : List Char) : Decidable (∀ c ∈ cs, c.isDigit) :=
  List.decidableBAll _ cs

attribute [local instance] decidableDigits in
/-- `int(text)` of a text of decimal digits. -/
def readNat (cs : List Char) : Option ℕ :=
  if cs ≠ [] ∧ ∀ c ∈ cs, c.isDigit then some (Nat.ofDigitChars 10 cs 0) else none

@[simp] theorem readNat_toDigits (n : ℕ) : readNat (Nat.toDigits 10 n) = some n := by
  have hdigits : ∀ c ∈ Nat.toDigits 10 n, c.isDigit := fun c hc =>
    Nat.isDigit_of_mem_toDigits (by norm_num) (by norm_num) hc
  rw [readNat, if_pos ⟨Nat.toDigits_ne_nil, hdigits⟩,
    Nat.ofDigitChars_toDigits (by norm_num) (by norm_num)]

theorem toList_toString (n : ℕ) : (toString n).toList = Nat.toDigits 10 n :=
  String.toList_ofList

theorem toString_injective : Function.Injective (toString : ℕ → String) := by
  intro m n h
  have hread : readNat (toString m).toList = readNat (toString n).toList := by rw [h]
  simpa [toList_toString] using hread

/-! ## Reading from a cursor -/

/-- The adapter takes from an answer the round trips whose key is above the
cursor.  `decode` reads a cursor, `stamp` and `mark` are the same data of a
trade and of a key, and `page` is the keys in the venue's answer, when it gives
one. -/
structure HistoryBroker.Reads {ν κ τ : Type} [LinearOrder κ] (broker : HistoryBroker ν)
    (decode : String → Option κ) (stamp : ClosedTrade → τ) (mark : κ → τ)
    (page : ν → String → Option (List κ)) : Prop where
  supports : broker.supportsClosedTradeHistory = true
  answered : ∀ v text cursor keys, decode text = some cursor → page v text = some keys →
    ∃ trades next, broker.fetchClosedTrades v text = .ok (trades, next) ∧
      decode next = some (Feed.advance cursor keys) ∧
      (trades.map stamp).Perm ((Feed.fresh cursor keys).map mark)
  failed : ∀ v text cursor, decode text = some cursor → page v text = none →
    (∃ message, broker.fetchClosedTrades v text = .error message) ∨
      broker.fetchClosedTrades v text = .ok ([], text)

end Sentinel
