import Sentinel.Brokers.PaperConservation

/-!
# The book within the account

The positions and the quotes of the simulated venue are the book of the paper broker, and
its calls are the book's: a change of a stop, and a close whose proceeds can be converted
into the currency of the account.
-/

namespace Sentinel

namespace PaperBroker

structure Books (b : PaperBroker) (v : Paper.Venue) : Prop where
  positions : ∀ symbol, v.positions.get? symbol =
    (b.positions.get? symbol).map fun pos => pos.toPosition symbol
  quotes : v.quotes = b.quotes

def Agrees {α β : Type} (same : α → β → Prop) :
    EStateM.Result PaperError PaperBroker α → Except String β × Paper.Venue → Prop
  | .ok a b, (.ok a', v) => same a a' ∧ Books b v
  | .error _ b, (.error _, v) => Books b v
  | _, _ => False

variable {cfg : PaperSetup} {b b' : PaperBroker} {v : Paper.Venue} {instrument : String}

namespace Books

theorem of_eq (h : Books b v) (hpositions : b'.positions = b.positions)
    (hquotes : b'.quotes = b.quotes) : Books b' v where
  positions := by
    rw [hpositions]
    exact h.positions
  quotes := h.quotes.trans hquotes.symm

theorem set (h : Books b v) (pos : PaperPosition) :
    Books (b.hold instrument pos)
      { v with positions := v.positions.set instrument (pos.toPosition instrument) } where
  positions symbol := by
    rw [hold, Dict.get?_set, Dict.get?_set]
    split_ifs with heq
    · rw [heq]
      rfl
    · exact h.positions symbol
  quotes := h.quotes

theorem erase (h : Books b v) :
    Books { b with positions := b.positions.erase instrument }
      { v with positions := v.positions.erase instrument } where
  positions symbol := by
    rw [Dict.get?_erase, Dict.get?_erase]
    split_ifs
    · rfl
    · exact h.positions symbol
  quotes := h.quotes

end Books

theorem toPosition_withStops (pos : PaperPosition) (stop : Dec) :
    (withStops pos (some stop) none).toPosition instrument =
      { pos.toPosition instrument with
        stopLoss := some stop, brokerStopConfirmed := true } := by
  simp [withStops, PaperPosition.toPosition]

theorem modifyPosition_agrees (h : Books b v) (stop : Dec) :
    Agrees Eq ((modifyPosition cfg instrument (some stop) none).run b)
      (Paper.modifyPosition cfg.instruments v instrument stop) := by
  have hheld := h.positions instrument
  rw [modifyPosition, Paper.modifyPosition, run_bind_get]
  cases hpos : b.positions.get? instrument with
  | none =>
      rw [hpos] at hheld
      rw [hheld]
      exact ⟨rfl, h⟩
  | some pos =>
      rw [hpos] at hheld
      rw [hheld]
      cases hinst : cfg.instruments.get? instrument with
      | none => exact h
      | some inst =>
          simp only [Option.map_some, Option.bind_some, Option.map_none]
          cases Paper.widening (pos.toPosition instrument) (inst.roundPrice stop) with
          | some message => exact h
          | none =>
              refine ⟨rfl, ?_⟩
              rw [← toPosition_withStops]
              exact (h.set _).of_eq rfl rfl

/-! ## What a close leaves -/

theorem toPosition_leftOpen {pos : PaperPosition} {inst : Instrument} {exitPrice lots
    extraCommission rate : Dec} (hpos : 0 < lots) (hle : lots ≤ pos.lots) (trade : PaperTrade) :
    (leftOpen pos lots extraCommission (portion pos inst exitPrice lots extraCommission rate)
        trade).toPosition instrument =
      Paper.realise (pos.toPosition instrument) lots := by
  have hheld : 0 < pos.lots := hpos.trans_le hle
  have hpart : 0 ≤ 1 - lots / pos.lots := sub_nonneg.mpr ((div_le_one hheld).mpr hle)
  have hrisk : max 0 (pos.initialRisk - pos.initialRisk * (lots / pos.lots)) =
      max 0 (max 0 pos.initialRisk - max 0 pos.initialRisk * (lots / pos.lots)) := by
    rw [← mul_one_sub, ← mul_one_sub]
    rcases le_total 0 pos.initialRisk with hrisk | hrisk
    · rw [max_eq_right hrisk]
    · rw [max_eq_left hrisk, zero_mul, max_self,
        max_eq_left (mul_nonpos_of_nonpos_of_nonneg hrisk hpart)]
  simp [leftOpen, portion, Paper.realise, PaperPosition.toPosition, hheld, hrisk]

theorem Books.putBack (h : Books b v) (instrument : String) (left : PaperPosition) :
    Books (b.putBack instrument left)
      { v with
        positions :=
          if left.lots ≤ 0 then v.positions.erase instrument
          else v.positions.set instrument (left.toPosition instrument) } := by
  rw [PaperBroker.putBack]
  split_ifs
  · exact h.erase.of_eq rfl rfl
  · exact h.set left

theorem quotes_protectBalance (b : PaperBroker) : (b.protectBalance cfg).quotes = b.quotes := by
  unfold protectBalance
  split_ifs <;> rfl

variable (cfg instrument) in
theorem Books.realised (h : Books b v) (pos : PaperPosition) (inst : Instrument)
    (exitPrice : Dec) {lots : Dec} (tsNs : ℤ) (reason : String) (extraCommission rate : Dec)
    (hpos : 0 < lots) (hle : lots ≤ pos.lots) :
    Books (b.realised cfg instrument pos inst exitPrice lots tsNs reason extraCommission rate)
      { v with
        positions :=
          if (Paper.realise (pos.toPosition instrument) lots).lots ≤ 0 then
            v.positions.erase instrument
          else v.positions.set instrument (Paper.realise (pos.toPosition instrument) lots) } := by
  let x := portion pos inst exitPrice lots extraCommission rate
  let trade := b.closedTrade instrument pos inst exitPrice lots tsNs reason x
  have hpaid : Books
      { b with
        balance := b.balance + x.pricePnl
        tradeSeq := b.tradeSeq + 1
        closed := b.closed ++ [trade] } v := h.of_eq rfl rfl
  have hback := hpaid.putBack instrument (leftOpen pos lots extraCommission x trade)
  rw [toPosition_leftOpen hpos hle] at hback
  unfold PaperBroker.realised
  exact (hback.of_eq (positions_protectBalance cfg _) (quotes_protectBalance _)).of_eq rfl rfl

theorem closePosition_agrees (h : Books b v) (lots : Option Dec) (reason : String)
    (slippagePips : Dec)
    (hrate : ∀ inst ∈ cfg.instruments.get? instrument,
      (b.conversionRate inst.quote cfg.currency).isSome) :
    Agrees (fun a a' => a.state = a'.state ∧ a.rejectReason = a'.rejectReason)
      ((closePosition cfg instrument lots reason slippagePips).run b)
      (Paper.closePosition cfg.instruments v instrument lots) := by
  have hheld := h.positions instrument
  rw [closePosition, Paper.closePosition, run_bind_get, h.quotes]
  cases hpos : b.positions.get? instrument with
  | none =>
      rw [hpos] at hheld
      rw [hheld]
      exact ⟨⟨rfl, rfl⟩, h⟩
  | some pos =>
      rw [hpos] at hheld
      rw [hheld]
      cases hquote : b.quotes.get? instrument with
      | none => exact ⟨⟨rfl, rfl⟩, h⟩
      | some q =>
          cases hinst : cfg.instruments.get? instrument with
          | none => exact h
          | some inst =>
              change Agrees _ (EStateM.run (if closeLots inst pos lots ≤ 0 then _ else _) b)
                (if closeLots inst pos lots ≤ 0 then _ else _)
              by_cases hnone : closeLots inst pos lots ≤ 0
              · rw [if_pos hnone, if_pos hnone]
                exact ⟨⟨rfl, rfl⟩, h⟩
              · obtain ⟨rate, hsome⟩ := Option.isSome_iff_exists.mp (hrate inst hinst)
                have hclosed := not_le.mp hnone
                have hbooks := h.realised cfg instrument pos inst
                  (closePrice inst pos q slippagePips) b.nowNs reason 0 rate hclosed (closeLots_le inst pos hclosed)
                rw [if_neg hnone, if_neg hnone, run_bind, run_realise, hsome]
                exact ⟨⟨rfl, rfl⟩, by rw [← h.quotes]; exact hbooks.of_eq rfl rfl⟩

end PaperBroker

end Sentinel
