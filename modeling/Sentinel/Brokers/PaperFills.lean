import Sentinel.Brokers.PaperLedger

/-!
# The fills of the paper broker

Only an order records a fill: one at most, at the time of the venue, and where
its answer comes in time the caller is told of it.  No other call of the venue
records one.
-/

namespace Sentinel

def PaperTxn.fillTime (txn : PaperTxn) : Option ℤ :=
  match txn.kind with
  | .orderFill _ _ _ _ _ => some txn.tsNs
  | _ => none

namespace PaperBroker

def fillTimes (b : PaperBroker) : List ℤ := b.transactions.filterMap PaperTxn.fillTime

/-- No fill is recorded, and a venue whose time is `now` keeps it. -/
structure Unfilled (now : ℤ) (b b' : PaperBroker) : Prop where
  fillTimes : b'.fillTimes = b.fillTimes
  nowNs : b.nowNs = now → b'.nowNs = now

variable {now : ℤ}

instance : Std.Refl (Unfilled now) := ⟨fun _ => ⟨rfl, id⟩⟩

instance : IsTrans PaperBroker (Unfilled now) :=
  ⟨fun _ _ _ h h' => ⟨h'.fillTimes.trans h.fillTimes, fun hnow => h'.nowNs (h.nowNs hnow)⟩⟩

theorem unfilled_of_eq {b b' : PaperBroker} (htransactions : b'.transactions = b.transactions)
    (hnow : b'.nowNs = b.nowNs) : Unfilled now b b' :=
  ⟨by rw [PaperBroker.fillTimes, PaperBroker.fillTimes, htransactions], fun h => hnow.trans h⟩

theorem fillTimes_recordTxn (b : PaperBroker) (clientOrderId : String) (kind : TxnKind) :
    (b.recordTxn clientOrderId kind).fillTimes = b.fillTimes ++
      (PaperTxn.fillTime ⟨b.txnSeq + 1, kind, clientOrderId, b.nowNs⟩).toList := by
  rw [fillTimes, fillTimes, recordTxn, List.filterMap_append]
  congr 1

theorem unfilled_recordTxn (b : PaperBroker) (clientOrderId : String) (kind : TxnKind)
    (hkind : PaperTxn.fillTime ⟨b.txnSeq + 1, kind, clientOrderId, b.nowNs⟩ = none) :
    Unfilled now b (b.recordTxn clientOrderId kind) := by
  refine ⟨?_, fun h => h⟩
  rw [fillTimes_recordTxn, hkind]
  exact List.append_nil _

variable (cfg : PaperSetup)

theorem unfilled_protectBalance (b : PaperBroker) : Unfilled now b (b.protectBalance cfg) := by
  rw [protectBalance]
  split_ifs
  · have hrecorded : Unfilled now b (b.recordTxn "" (.negativeBalanceReset b.balance)) :=
      unfilled_recordTxn b _ _ rfl
    exact IsTrans.trans _ _ _ hrecorded (unfilled_of_eq rfl rfl)
  · exact Std.Refl.refl b

theorem unfilled_putBack (b : PaperBroker) (symbol : String) (left : PaperPosition) :
    Unfilled now b (b.putBack symbol left) := by
  rw [putBack]
  split_ifs
  · exact unfilled_of_eq rfl rfl
  · exact unfilled_of_eq rfl rfl

/-! ## Reading and closing -/

theorem unfilled_account : Moves (Unfilled now) (account cfg) := by
  refine Moves.bind_get fun b => ?_
  rcases b.positions.items.foldlM (b.mark cfg) (0, 0) with e | sums
  · exact Moves.throw e b
  · refine Moves.bind (R := Unfilled now) (Moves.modify fun t => ?_) (fun _ => Moves.pure _) b
    exact unfilled_of_eq rfl rfl

theorem unfilled_conv (inst : Instrument) : Moves (Unfilled now) (conv cfg inst) := by
  refine Moves.bind_get fun b => ?_
  rcases b.conversionRate inst.quote cfg.currency with _ | rate
  · exact Std.Refl.refl b
  · exact Std.Refl.refl b

theorem unfilled_realise (symbol : String) (pos : PaperPosition) (inst : Instrument)
    (exitPrice lots : Dec) (tsNs : ℤ) (reason : String) (extraCommission : Dec) :
    Moves (Unfilled now)
      (realise cfg symbol pos inst exitPrice lots tsNs reason extraCommission) := by
  refine Moves.bind (unfilled_conv cfg inst) fun rate => ?_
  refine Moves.bind_get fun b => ?_
  refine Moves.bind (R := Unfilled now) ?_ (fun _ => ?_) b
  · exact Moves.modify fun t => unfilled_of_eq rfl rfl
  refine Moves.bind (Moves.modify fun t => unfilled_putBack t _ _) fun _ => ?_
  refine Moves.bind (Moves.modify fun t => unfilled_protectBalance cfg t) fun _ => ?_
  exact Moves.modify fun t => unfilled_recordTxn t _ _ rfl

/-! ## Quotes -/

theorem unfilled_charge (multiplier : Dec) (symbol : String) :
    Moves (Unfilled now) (charge cfg multiplier symbol) := by
  refine Moves.bind_get fun b => ?_
  rcases b.positions.get? symbol with _ | pos
  · exact Std.Refl.refl b
  · rcases cfg.instruments.get? symbol with _ | inst
    · exact Std.Refl.refl b
    · refine Moves.bind (R := Unfilled now) (unfilled_conv cfg inst) (fun rate => ?_) b
      exact Moves.modify fun t => unfilled_of_eq rfl rfl

theorem unfilled_rollDay (day : ℤ) : Moves (Unfilled now) (rollDay cfg day) := by
  refine Moves.ite (fun _ => ?_) fun _ => Moves.pure _
  refine Moves.bind_get fun b => ?_
  exact Moves.bind (Moves.forM (unfilled_charge cfg _) _)
    (fun _ => Moves.modify fun t => unfilled_recordTxn t _ _ rfl) b

theorem unfilled_applyRollover : Moves (Unfilled now) (applyRollover cfg) := by
  have hday : ∀ day, Moves (ε := PaperError) (Unfilled now)
      (modify fun b : PaperBroker => { b with lastRolloverDay := some day }) :=
    fun day => Moves.modify fun t => unfilled_of_eq rfl rfl
  refine Moves.bind_get fun b => ?_
  simp only
  rcases b.lastRolloverDay with _ | last
  · exact hday _ b
  · refine Moves.ite (fun _ => ?_) (fun _ => Moves.pure _) b
    refine Moves.bind (hday _) fun _ => ?_
    exact Moves.ite (fun _ => Moves.pure _) fun _ => Moves.forM (unfilled_rollDay cfg) _

theorem unfilled_trackExcursions (symbol : String) (pos : PaperPosition) (inst : Instrument)
    (q : Quote) : Moves (Unfilled now) (trackExcursions cfg symbol pos inst q) := by
  refine Moves.ite (fun _ => ?_) fun _ => Moves.pure _
  refine Moves.bind (unfilled_conv cfg inst) fun rate => ?_
  exact Moves.bind (Moves.modify fun t => unfilled_of_eq rfl rfl) fun _ => Moves.pure _

theorem unfilled_checkExits (q : Quote) (tsNs : ℤ) (slippagePips : Dec) :
    Moves (Unfilled now) (checkExits cfg q tsNs slippagePips) := by
  refine Moves.bind_get fun b => ?_
  rcases b.positions.get? q.instrument with _ | held
  · exact Std.Refl.refl b
  · rcases cfg.instruments.get? q.instrument with _ | inst
    · exact Std.Refl.refl b
    · refine Moves.bind (R := Unfilled now) (unfilled_trackExcursions cfg _ held inst q)
        (fun pos => ?_) b
      refine Moves.ite (fun _ => unfilled_realise cfg _ _ _ _ _ _ _ _) fun _ => ?_
      exact Moves.ite (fun _ => unfilled_realise cfg _ _ _ _ _ _ _ _) fun _ => Moves.pure _

theorem unfilled_closeLosers (n : ℕ) : Moves (Unfilled now) (closeLosers cfg n) := by
  induction n with
  | zero => exact Moves.pure _
  | succ n ih =>
      refine Moves.bind_get fun b => ?_
      rcases b.positions.items.foldlM (b.worse cfg) none with e | _ | m
      · exact Std.Refl.refl b
      · exact Std.Refl.refl b
      · refine Moves.bind (R := Unfilled now) (unfilled_realise cfg _ _ _ _ _ _ _ _)
          (fun _ => ?_) b
        refine Moves.bind (unfilled_account cfg) fun acct => ?_
        exact Moves.ite (fun _ => Moves.pure _) fun _ => ih

theorem unfilled_checkMargin : Moves (Unfilled now) (checkMargin cfg) := by
  refine Moves.bind (unfilled_account cfg) fun acct => ?_
  refine Moves.ite (fun _ => Moves.pure _) fun _ => ?_
  exact Moves.bind_get fun b => unfilled_closeLosers cfg _ b

theorem unfilled_onQuote (q : Quote) (slippagePips : Dec) :
    Moves (Unfilled now) (onQuote cfg q now slippagePips) := by
  refine Moves.bind (Moves.modify fun t => ?_) fun _ => ?_
  · exact ⟨rfl, fun h => by rw [h]; exact max_self now⟩
  refine Moves.bind (Moves.modify fun t => ?_) fun _ => ?_
  · rcases cfg.instruments.get? q.instrument with _ | inst
    · exact Std.Refl.refl t
    · simp only
      split_ifs
      · exact unfilled_of_eq rfl rfl
      · exact Std.Refl.refl t
  · refine Moves.bind (unfilled_applyRollover cfg) fun _ => ?_
    exact Moves.bind (unfilled_checkExits cfg q now slippagePips) fun _ => unfilled_checkMargin cfg

/-! ## The other calls -/

theorem unfilled_closePosition (instrument : String) (lots : Option Dec) (reason : String)
    (slippagePips : Dec) :
    Moves (Unfilled now) (closePosition cfg instrument lots reason slippagePips) := by
  refine Moves.bind_get fun b => ?_
  rcases b.positions.get? instrument with _ | pos
  · exact Std.Refl.refl b
  rcases b.quotes.get? instrument with _ | q
  · exact Std.Refl.refl b
  rcases cfg.instruments.get? instrument with _ | inst
  · exact Std.Refl.refl b
  refine Moves.ite (fun _ => Moves.pure _) (fun _ => ?_) b
  refine Moves.bind (unfilled_realise cfg _ _ _ _ _ _ _ _) fun _ => ?_
  refine Moves.bind (Moves.modify fun t => unfilled_of_eq rfl rfl) fun _ => ?_
  exact Moves.bind Moves.get fun _ => Moves.pure _

theorem unfilled_modifyPosition (instrument : String) (stopLoss takeProfit : Option Dec) :
    Moves (Unfilled now) (modifyPosition cfg instrument stopLoss takeProfit) := by
  refine Moves.bind_get fun b => ?_
  rcases b.positions.get? instrument with _ | pos
  · exact Std.Refl.refl b
  rcases cfg.instruments.get? instrument with _ | inst
  · exact Std.Refl.refl b
  simp only
  split
  · exact Std.Refl.refl b
  · refine Moves.bind (R := Unfilled now) ?_ (fun _ => ?_) b
    · exact Moves.modify fun t => unfilled_of_eq rfl rfl
    refine Moves.bind (Moves.modify fun t => ?_) fun _ => Moves.pure _
    exact unfilled_recordTxn t _ _ rfl

/-! ## Orders -/

variable (intent : OrderIntent)

theorem unfilled_applyFill (inst : Instrument) (fill : PaperFill) :
    Moves (Unfilled now) (applyFill cfg intent inst fill) := by
  have hhold : ∀ pos, Moves (ε := PaperError) (Unfilled now)
      (modify fun b : PaperBroker => b.hold intent.instrument pos) :=
    fun pos => Moves.modify fun t => unfilled_of_eq rfl rfl
  refine Moves.bind_get fun b => ?_
  rcases b.positions.get? intent.instrument with _ | pos
  · exact hhold _ b
  refine Moves.ite (fun _ => ?_) (fun _ => ?_) b
  · exact Moves.ite (fun _ => Moves.throw _) fun _ => Moves.modify fun t => unfilled_of_eq rfl rfl
  · refine Moves.bind (unfilled_realise cfg _ _ _ _ _ _ _ _) fun _ => ?_
    exact Moves.ite (fun _ => hhold _) fun _ => Moves.pure _

theorem unfilled_refusesMargin (inst : Instrument) (q : Quote)
    (lots : Dec) : Moves (Unfilled now) (refusesMargin cfg intent inst q lots) := by
  refine Moves.bind_get fun b => ?_
  simp only
  split
  · refine Moves.bind (R := Unfilled now) (unfilled_account cfg) (fun acct => ?_) b
    refine Moves.ite (fun _ => ?_) fun _ => Moves.pure _
    exact Moves.bind (Moves.modify fun t => unfilled_recordTxn t _ _ rfl) fun _ => Moves.pure _
  · exact Std.Refl.refl b

/-- A venue at the time `now` with these fills. -/
def FilledAt (now : ℤ) (fills : List ℤ) (b : PaperBroker) : Prop :=
  b.nowNs = now ∧ b.fillTimes = fills

variable {fills : List ℤ}

theorem ends_of_unfilled {α : Type} {p : PaperM α} (h : Moves (Unfilled now) p) :
    Ends (FilledAt now fills) p (fun _ => FilledAt now fills) (fun _ => True) := by
  intro b hb
  have hmoved := h b
  rw [finalState] at hmoved
  rcases hrun : p.run b with ⟨a, t⟩ | ⟨e, t⟩
  · rw [hrun] at hmoved
    exact ⟨hmoved.nowNs hb.1, hmoved.fillTimes.trans hb.2⟩
  · trivial

theorem complete_fills (order : Order) (inst : Instrument) (q : Quote) (lots slippagePips : Dec)
    (hidden : Bool) :
    Ends (FilledAt now fills) (complete cfg order inst q lots slippagePips hidden)
      (fun done t => FilledAt now (fills ++ [now]) t ∧
        (hidden = false → done.state = .filled ∨ done.state = .partlyFilled))
      (fun _ => True) := by
  refine Ends.bind (Ends.modify (Q := fun _ => FilledAt now fills) fun t ht => ht) fun _ => ?_
  refine Ends.bind_get_of fun b _ => ?_
  refine Ends.bind (Ends.modify (Q := fun _ => FilledAt now fills) fun t ht => ht) fun _ => ?_
  refine Ends.bind (Ends.modify (Q := fun _ => FilledAt now fills) fun t ht => ht) fun _ => ?_
  refine Ends.bind (ends_of_unfilled (unfilled_applyFill cfg _ inst _)) fun _ => ?_
  refine Ends.bind (Ends.modify (Q := fun _ => FilledAt now (fills ++ [now])) fun t ht => ?_)
    fun _ => Ends.pure fun t ht => ⟨ht, fun hshown => ?_⟩
  · refine ⟨ht.1, ?_⟩
    rw [fillTimes_recordTxn, ht.2, ← ht.1]
    rfl
  · simp only [withFill, hshown, Bool.false_eq_true, if_false]
    split_ifs
    · exact .inr rfl
    · exact .inl rfl

theorem submit_fills {timeoutMs : Dec} {draws : Draws}
    (htime : draws.latencyMs ≤ timeoutMs) :
    Ends (FilledAt now fills) (submit cfg intent timeoutMs draws)
      (fun res t => FilledAt now fills t ∨ FilledAt now (fills ++ [now]) t ∧
        (res.state = .filled ∨ res.state = .partlyFilled))
      (fun _ => True) := by
  have hkept : ∀ res : SubmitResult, Ends (ε := PaperError) (FilledAt now fills) (pure res)
      (fun res t => FilledAt now fills t ∨ FilledAt now (fills ++ [now]) t ∧
        (res.state = .filled ∨ res.state = .partlyFilled)) (fun _ => True) :=
    fun res => Ends.pure fun t ht => .inl ht
  refine Ends.bind_get_of fun b _ => ?_
  rcases b.orders.get? intent.clientOrderId with _ | existing
  · rcases cfg.instruments.get? intent.instrument with _ | inst
    · exact hkept _
    rcases b.quotes.get? intent.instrument with _ | q
    · exact hkept _
    refine Ends.ite (fun _ => hkept _) fun _ => Ends.ite (fun _ => hkept _) fun _ => ?_
    refine Ends.bind (ends_of_unfilled (unfilled_refusesMargin cfg intent inst q _))
      fun refused => ?_
    rcases refused with _ | refusal
    · refine Ends.bind (Ends.modify (Q := fun _ => FilledAt now fills) fun t ht => ht) fun _ => ?_
      refine Ends.ite (fun hlate => absurd htime (not_le.mpr hlate)) fun _ => ?_
      refine Ends.ite (fun _ => ?_) fun _ => ?_
      · refine Ends.bind (Ends.modify (Q := fun _ => FilledAt now fills) fun t ht => ht)
          fun _ => ?_
        refine Ends.bind (Ends.modify (Q := fun _ => FilledAt now fills) fun t ht => ?_)
          fun _ => hkept _
        exact ⟨ht.1, by rw [fillTimes_recordTxn, ht.2]; exact List.append_nil _⟩
      · refine Ends.bind (complete_fills cfg _ inst q _ _ false) fun done => ?_
        exact Ends.pure fun t ht => .inr ⟨ht.1, ht.2 rfl⟩
    · exact hkept _
  · exact hkept _

end PaperBroker

end Sentinel
