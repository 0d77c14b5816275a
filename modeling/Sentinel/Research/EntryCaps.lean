import Sentinel.Brokers.PaperFills
import Sentinel.Research.EntryBudgets
import Sentinel.Research.NoLookAhead

/-!
# The frequency caps of the backtester

The engine refuses an entry once a counter has reached its cap.  The loop enters
the signals of the bar before at the open, and starts the counters of a new day,
week or year again after that, so the entries at the first bar of a period are
counted in the one before.  Where no signal waits for such a bar, and no order is
answered after its timeout, the caps hold in every period.
-/

namespace Sentinel

open Float64 Causal

variable {F P : Type}

def LoopState.counters (s : LoopState F) : EntryCounters :=
  { s with }

def PaperBroker.Call.InTime : PaperBroker.Call → Prop
  | .submit _ timeoutMs draws => draws.latencyMs ≤ timeoutMs
  | _ => True

instance : DecidablePred PaperBroker.Call.InTime := by
  intro c
  unfold PaperBroker.Call.InTime
  split <;> infer_instance

/-- No order was answered after its timeout. -/
def LoopState.Punctual (s : LoopState F) : Prop := ∀ c ∈ s.calls, c.InTime

instance (s : LoopState F) : Decidable s.Punctual := by
  delta LoopState.Punctual
  infer_instance

/-- No entry is filled and none is counted. -/
structure LoopState.Kept (s t : LoopState F) : Prop where
  fills : t.venue.fillTimes = s.venue.fillTimes
  counters : t.counters = s.counters
  calls : s.calls <+: t.calls

/-- Nor does the loop drop a signal, or the venue leave the time `now`. -/
structure LoopState.Opening (now : ℤ) (s t : LoopState F) : Prop extends s.Kept t where
  pending : t.pending = s.pending
  nowNs : s.venue.nowNs = now → t.venue.nowNs = now

open LoopState

instance : Std.Refl (Kept (F := F)) := ⟨fun s => ⟨rfl, rfl, s.calls.prefix_refl⟩⟩

instance : IsTrans (LoopState F) Kept :=
  ⟨fun _ _ _ h h' => ⟨h'.fills.trans h.fills, h'.counters.trans h.counters,
    h.calls.trans h'.calls⟩⟩

instance (now : ℤ) : Std.Refl (Opening (F := F) now) := ⟨fun s => ⟨Std.Refl.refl s, rfl, id⟩⟩

instance (now : ℤ) : IsTrans (LoopState F) (Opening now) :=
  ⟨fun _ _ _ h h' => ⟨IsTrans.trans _ _ _ h.toKept h'.toKept, h'.pending.trans h.pending,
    fun hnow => h'.nowNs (h.nowNs hnow)⟩⟩

theorem LoopState.Punctual.of_isPrefix {s t : LoopState F} (h : t.Punctual)
    (hcalls : s.calls <+: t.calls) : s.Punctual :=
  fun c hc => h c (hcalls.subset hc)

namespace Backtest

/-! ## What neither fills nor counts -/

section Frame

variable {now : ℤ} {α : Type} (c : PaperBroker.Call) {p : PaperM α}

theorem opening_call
    (h : Moves (PaperBroker.Unfilled now) p) : Moves (Opening (F := F) now) (call c p) := by
  refine Moves.bind_get fun s => ?_
  have hvenue := h s.venue
  rw [finalState] at hvenue
  rcases hrun : p.run s.venue with ⟨a, b⟩ | ⟨e, b⟩
  · rw [hrun] at hvenue
    exact ⟨⟨hvenue.fillTimes, rfl, List.prefix_append _ _⟩, rfl, hvenue.nowNs⟩
  · rw [hrun] at hvenue
    exact ⟨⟨hvenue.fillTimes, rfl, List.prefix_append _ _⟩, rfl, hvenue.nowNs⟩

theorem kept_call (h : Moves (PaperBroker.Unfilled 0) p) : Moves (Kept (F := F)) (call c p) :=
  (opening_call c h).mono fun _ _ h => h.toKept

theorem kept_attempt
    (h : Moves (PaperBroker.Unfilled 0) p) : Moves (Kept (F := F)) (attempt c p) := by
  refine Moves.bind_get fun s => ?_
  have hvenue := h s.venue
  rw [finalState] at hvenue
  rcases hrun : p.run s.venue with ⟨a, b⟩ | ⟨e, b⟩
  · rw [hrun] at hvenue
    exact ⟨hvenue.fillTimes, rfl, List.prefix_append _ _⟩
  · rw [hrun] at hvenue
    exact ⟨hvenue.fillTimes, rfl, List.prefix_append _ _⟩

variable [Float64 F] (bt : Backtest F P) (x : Prepared F P)

omit [Float64 F] in
theorem opening_account : Moves (Opening now) (bt.account x) :=
  opening_call _ (PaperBroker.unfilled_account _)

theorem opening_feed (symbol : String) (price : F) :
    Moves (Opening now) (bt.feed x symbol price now) := by
  rw [feed]
  rcases (bt.setup x).instruments.get? symbol with _ | inst
  · exact Moves.throw _
  · simp only
    rcases spreadOut symbol inst (toRat price) (bt.spreadPrice x inst now / 2) with e | q
    · exact Moves.throw _
    · exact Moves.bind_get fun s => opening_call _ (PaperBroker.unfilled_onQuote _ q _) s

omit [Float64 F] in
theorem kept_modify {f : LoopState F → LoopState F} (hvenue : ∀ s, (f s).venue = s.venue)
    (hcounters : ∀ s, (f s).counters = s.counters) (hcalls : ∀ s, (f s).calls = s.calls) :
    Moves Kept (modify f : LoopM F PUnit) :=
  Moves.modify fun s => ⟨by rw [hvenue], hcounters s, by rw [hcalls]⟩

theorem kept_onBarPrices (symbol : String) (b : Ohlc F) (startNs endNs : ℤ) :
    Moves Kept (bt.onBarPrices x symbol b startNs endNs) := by
  have hfeed : ∀ price tsNs, Moves Kept (bt.feed x symbol price tsNs) :=
    fun price tsNs => (bt.opening_feed x symbol price).mono fun _ _ h => h.toKept
  refine Moves.bind_get fun s => ?_
  refine Moves.bind (R := Kept) (hfeed _ _) (fun _ => ?_) s
  refine Moves.bind (hfeed _ _) fun _ => ?_
  exact Moves.bind (hfeed _ _) fun _ => hfeed _ _

omit [Float64 F] in
theorem kept_closePosition (symbol : String) (lots : Option Dec) (reason : String) :
    Moves Kept (bt.closePosition x symbol lots reason) :=
  Moves.bind_get fun s => kept_call _ (PaperBroker.unfilled_closePosition _ symbol lots reason _) s

omit [Float64 F] in
theorem kept_leave (symbol reason : String) : Moves Kept (bt.leave x symbol reason) :=
  Moves.bind (kept_closePosition bt x symbol none reason) fun _ =>
    kept_modify (fun _ => rfl) (fun _ => rfl) fun _ => rfl

omit [Float64 F] in
theorem kept_timeExit (i : ℕ) (pos : Position) : Moves Kept (bt.timeExit x i pos) := by
  refine Moves.bind_get fun s => ?_
  refine Moves.ite (R := Kept) (fun _ => kept_leave bt x _ _) (fun _ => ?_) s
  exact Moves.ite (fun _ => kept_leave bt x _ _) fun _ => Moves.pure _

omit [Float64 F] in
theorem kept_follow (pos : Position) (act : ProtectInstruction) :
    Moves Kept (bt.follow x pos act) := by
  rw [follow]
  split
  · refine Moves.bind (kept_attempt _ (PaperBroker.unfilled_modifyPosition _ _ _ _)) fun moved => ?_
    refine Moves.ite (fun _ => ?_) fun _ => Moves.pure _
    exact kept_modify (fun _ => rfl) (fun _ => rfl) fun _ => rfl
  · refine Moves.ite (fun _ => ?_) fun _ => Moves.pure _
    refine Moves.bind (kept_closePosition bt x _ _ _) fun _ => ?_
    exact kept_modify (fun _ => rfl) (fun _ => rfl) fun _ => rfl
  · exact Moves.bind (kept_closePosition bt x _ _ _) fun _ => Moves.pure _

theorem kept_protectPosition (i : ℕ) (pos : Position) :
    Moves Kept (bt.protectPosition x i pos) := by
  refine Moves.bind_get fun s => ?_
  rcases s.venue.quotes.get? pos.instrument with _ | q
  · exact Std.Refl.refl s
  rcases bt.instruments.get? pos.instrument with _ | inst
  · exact Std.Refl.refl s
  simp only
  rcases bt.rateOf s inst with e | rate
  · exact Std.Refl.refl s
  · exact Moves.forM (kept_follow bt x pos) _ s

theorem kept_manageBar (i : ℕ) : Moves Kept (bt.manageBar x i) := by
  refine Moves.bind_get fun s => ?_
  refine Moves.bind (R := Kept) (Moves.forM (kept_timeExit bt x i) _) (fun _ => ?_) s
  refine Moves.ite (fun _ => ?_) fun _ => Moves.pure _
  exact Moves.bind_get fun t => Moves.forM (kept_protectPosition bt x i) _ t

theorem kept_raiseSignal (i : ℕ) (symbol : String) : Moves Kept (bt.raiseSignal x i symbol) := by
  refine Moves.ite (fun _ => Moves.pure _) fun _ => ?_
  split
  · refine Moves.bind ?_ fun _ => Moves.pure _
    exact kept_modify (fun _ => rfl) (fun _ => rfl) fun _ => rfl
  · exact Moves.pure _
  split
  · exact Moves.pure _
  · refine Moves.bind (kept_modify (fun _ => rfl) (fun _ => rfl) fun _ => rfl) fun _ => ?_
    split
    · refine Moves.bind ?_ fun _ => Moves.pure _
      exact kept_modify (fun _ => rfl) (fun _ => rfl) fun _ => rfl
    · refine Moves.bind ?_ fun _ => Moves.pure _
      exact kept_modify (fun _ => rfl) (fun _ => rfl) fun _ => rfl

end Frame

/-! ## The calls that a run has made -/

def Grows (s t : LoopState F) : Prop := s.calls <+: t.calls

instance : Std.Refl (Grows (F := F)) := ⟨fun s => s.calls.prefix_refl⟩

instance : IsTrans (LoopState F) Grows := ⟨fun _ _ _ h h' => List.IsPrefix.trans h h'⟩

theorem rel_of_run {α : Type} {R : LoopState F → LoopState F → Prop} {p : LoopM F α}
    (h : Moves R p) {s t : LoopState F} {a : α} (hrun : p.run s = .ok a t) : R s t := by
  have hstep := h s
  rw [finalState, hrun] at hstep
  exact hstep

theorem moves_foldlM {α β : Type} {R : LoopState F → LoopState F → Prop} [Std.Refl R]
    [IsTrans (LoopState F) R] {f : β → α → LoopM F β} (hf : ∀ b a, Moves R (f b a)) (l : List α)
    (b : β) : Moves R (l.foldlM f b) := by
  induction l generalizing b with
  | nil => exact Moves.pure b
  | cons a l ih =>
      rw [List.foldlM_cons]
      exact Moves.bind (hf b a) fun b' => ih b'

theorem moves_mapM {α β : Type} {R : LoopState F → LoopState F → Prop} [Std.Refl R]
    [IsTrans (LoopState F) R] {f : α → LoopM F β} (hf : ∀ a, Moves R (f a)) (l : List α) :
    Moves R (l.mapM f) := by
  induction l with
  | nil => exact Moves.pure _
  | cons a l ih =>
      rw [List.mapM_cons]
      exact Moves.bind (hf a) fun b => Moves.bind ih fun bs => Moves.pure _

theorem grows_call {α : Type} (c : PaperBroker.Call) (p : PaperM α) :
    Moves (Grows (F := F)) (call c p) := by
  refine Moves.bind_get fun s => ?_
  rcases hrun : p.run s.venue with ⟨a, b⟩ | ⟨e, b⟩
  · exact List.prefix_append _ _
  · exact List.prefix_append _ _

theorem grows_modify {f : LoopState F → LoopState F} (h : ∀ s, (f s).calls = s.calls) :
    Moves Grows (modify f : LoopM F PUnit) :=
  Moves.modify fun s => by rw [Grows, h]

section Growing

variable [Float64 F] (bt : Backtest F P) (x : Prepared F P)

omit [Float64 F] in
theorem grows_submit (acct : AccountState) (sig : RawSignal F) (intent : OrderIntent)
    (nowNs : ℤ) : Moves Grows (bt.submit x acct sig intent nowNs) := by
  refine Moves.bind_get fun s => ?_
  refine Moves.bind (R := Grows) (grows_call _ _) (fun res => ?_) s
  refine Moves.bind (grows_modify fun _ => rfl) fun _ => ?_
  refine Moves.ite (fun _ => ?_) fun _ => Moves.ite (fun _ => ?_) fun _ => Moves.pure _
  · exact Moves.bind (grows_modify fun _ => rfl) fun _ => grows_call _ _
  · exact Moves.bind (grows_modify fun _ => rfl) fun _ => Moves.pure _

omit [Float64 F] in
theorem foldl_count_eq (vetoes : List Veto) (s : LoopState F) :
    vetoes.foldl (fun s v => count s (.rule v.rule) 1) s =
      { s with
        vetoCounts := (vetoes.foldl (fun s v => count s (.rule v.rule) 1) s).vetoCounts } := by
  induction vetoes generalizing s with
  | nil => rfl
  | cons v vetoes ih =>
      rw [List.foldl_cons, ih]
      rfl

omit [Float64 F] in
theorem grows_judge (acct : AccountState) (sig : RawSignal F) (inst : Instrument)
    (intent : OrderIntent) (ctx : RiskContext) (nowNs : ℤ) :
    Moves Grows (bt.judge x acct sig inst intent ctx nowNs) := by
  rw [judge]
  split
  · exact Moves.throw _
  refine Moves.ite (fun _ => ?_) fun _ => ?_
  · refine Moves.bind (grows_modify fun s => ?_) fun _ => Moves.pure _
    rw [foldl_count_eq]
  · simp only
    split
    · exact Moves.bind (grows_modify fun _ => rfl) fun _ => Moves.pure _
    · exact grows_submit bt x acct sig _ nowNs

theorem grows_enter (i : ℕ) (acct : AccountState) (sig : RawSignal F) :
    Moves Grows (bt.enter x i acct sig) := by
  rw [enter]
  split
  · refine Moves.ite (fun _ => Moves.throw _) fun _ => Moves.ite (fun _ => ?_) fun _ => ?_
    · exact Moves.bind (grows_modify fun _ => rfl) fun _ => Moves.pure _
    refine Moves.bind_get fun s => ?_
    split
    · split
      · exact Moves.throw _ s
      · refine Moves.bind (R := Grows) ?_ (fun _ => ?_) s
        · exact grows_modify fun _ => rfl
        split
        · exact Moves.pure _
        · exact grows_judge bt x acct sig _ _ _ _
    · exact Std.Refl.refl s
  · exact Moves.pure _

theorem grows_openBar (i : ℕ) : Moves Grows (bt.openBar x i) := by
  have hfeed : ∀ symbol, Moves Grows (bt.feed x symbol (x.bar symbol i).openPrice (x.tsNs i)) :=
    fun symbol => (opening_feed bt x symbol _).mono fun _ _ h => h.calls
  have hmark : ∀ symbol, Moves Grows (if x.present symbol i then
      bt.feed x symbol (x.bar symbol i).openPrice (x.tsNs i) else pure ()) :=
    fun symbol => Moves.ite (fun _ => hfeed symbol) fun _ => Moves.pure _
  rw [openBar]
  refine Moves.bind (grows_call _ _) fun _ => Moves.bind (Moves.forM hmark _) fun _ => ?_
  refine Moves.bind (grows_call _ _) fun acct => Moves.bind_get fun s => ?_
  refine Moves.ite (R := Grows) (fun _ => ?_) (fun _ => ?_) s
  · refine Moves.ite (fun _ => ?_) fun _ => ?_
    · refine Moves.bind (moves_foldlM (grows_enter bt x i) _ _) fun _ => ?_
      exact grows_modify fun _ => rfl
    · refine Moves.ite (fun _ => ?_) fun _ => ?_
      · exact Moves.bind (grows_modify fun _ => rfl) fun _ => grows_modify fun _ => rfl
      · exact grows_modify fun _ => rfl
  · exact grows_modify fun _ => rfl

end Growing

/-! ## Entries -/

structure OpenWithin (β : EntryBudget) (bt : Backtest F P) (now : ℤ) (s : LoopState F) :
    Prop where
  within : β.Within (β.cap bt.risk) now s.venue.fillTimes s.counters
  keyed : β.key s.counters = some (β.number (dayOf now))
  nowNs : s.venue.nowNs = now

section Entries

variable {β : EntryBudget} {bt : Backtest F P} {x : Prepared F P} {now : ℤ} {s t : LoopState F}

theorem OpenWithin.opening (h : OpenWithin β bt now s) (hmove : s.Opening now t) :
    OpenWithin β bt now t := by
  constructor
  · rw [hmove.fills, hmove.counters]
    exact h.within
  · rw [hmove.counters]
    exact h.keyed
  · exact hmove.nowNs h.nowNs

theorem OpenWithin.of_eq (h : OpenWithin β bt now s) (hvenue : t.venue = s.venue)
    (hcounters : t.counters = s.counters) : OpenWithin β bt now t := by
  constructor
  · rw [hvenue, hcounters]
    exact h.within
  · rw [hcounters]
    exact h.keyed
  · rw [hvenue]
    exact h.nowNs

theorem call_eq_ok {α : Type} {c : PaperBroker.Call} {p : PaperM α} {a : α}
    (h : (call c p).run s = .ok a t) :
    ∃ b, p.run s.venue = .ok a b ∧ t = { s with venue := b, calls := s.calls ++ [c] } := by
  rw [call, run_bind_get] at h
  rcases hrun : p.run s.venue with ⟨a', b⟩ | ⟨e, b⟩
  · rw [hrun] at h
    cases h
    exact ⟨b, rfl, rfl⟩
  · rw [hrun] at h
    cases h

theorem OpenWithin.submit (h : OpenWithin β bt now s) (hcap : β.counter s.counters < β.cap bt.risk)
    {acct acct' : AccountState} {sig : RawSignal F} {intent : OrderIntent} {nowNs : ℤ}
    (hrun : (bt.submit x acct sig intent nowNs).run s = .ok acct' t) (ht : t.Punctual) :
    OpenWithin β bt now t := by
  rw [Backtest.submit, run_bind_get] at hrun
  obtain ⟨res, u, hcall, hrun⟩ := run_bind_eq_ok hrun
  have hlater : u.calls <+: t.calls := by
    refine rel_of_run (R := Grows) (s := u) ?_ hrun
    refine Moves.bind (grows_modify fun _ => rfl) fun _ => ?_
    refine Moves.ite (fun _ => ?_) fun _ => Moves.ite (fun _ => ?_) fun _ => Moves.pure _
    · exact Moves.bind (grows_modify fun _ => rfl) fun _ => grows_call _ _
    · exact Moves.bind (grows_modify fun _ => rfl) fun _ => Moves.pure _
  obtain ⟨b, hsubmit, rfl⟩ := call_eq_ok hcall
  have htime : (bt.orderDraws s.calls).latencyMs ≤ 5000 :=
    ht (.submit intent 5000 _) (hlater.subset (List.mem_append_right _ List.mem_cons_self))
  have hat : PaperBroker.FilledAt now s.venue.fillTimes s.venue := ⟨h.nowNs, rfl⟩
  have hfills := PaperBroker.submit_fills (bt.setup x) intent htime s.venue hat
  rw [hsubmit] at hfills
  obtain ⟨_, v, hv, hrun⟩ := run_bind_eq_ok hrun
  cases hv
  split_ifs at hrun with hfilled hrejected
  · obtain ⟨_, w, hw, hrun⟩ := run_bind_eq_ok hrun
    cases hw
    refine OpenWithin.opening ?_ (rel_of_run (opening_account bt x) hrun)
    rcases hfills with ⟨hnow, hsame⟩ | ⟨⟨hnow, hfill⟩, -⟩
    · exact ⟨hsame ▸ h.within.counts, (β.key_entered _).trans h.keyed, hnow⟩
    · exact ⟨hfill ▸ h.within.enters h.keyed hcap, (β.key_entered _).trans h.keyed, hnow⟩
  · obtain ⟨hnow, hsame⟩ := hfills.resolve_right fun h => hfilled h.2
    obtain ⟨_, w, hw, hrun⟩ := run_bind_eq_ok hrun
    cases hw
    cases hrun
    exact ⟨hsame ▸ h.within, h.keyed, hnow⟩
  · obtain ⟨hnow, hsame⟩ := hfills.resolve_right fun h => hfilled h.2
    cases hrun
    exact ⟨hsame ▸ h.within, h.keyed, hnow⟩

theorem OpenWithin.judge (h : OpenWithin β bt now s) {acct acct' : AccountState}
    {sig : RawSignal F} {inst : Instrument} {intent : OrderIntent} {ctx : RiskContext} {nowNs : ℤ}
    (htold : s.counters.Told ctx)
    (hrun : (bt.judge x acct sig inst intent ctx nowNs).run s = .ok acct' t) (ht : t.Punctual) :
    OpenWithin β bt now t := by
  rw [Backtest.judge] at hrun
  rcases hverdict : evaluateEntry bt.risk intent.toIntentFields ctx with e | decision
  · rw [hverdict] at hrun
    cases hrun
  rw [hverdict] at hrun
  simp only at hrun
  split_ifs at hrun with hvetoed hsmall
  · obtain ⟨_, u, hu, hrun⟩ := run_bind_eq_ok hrun
    cases hu
    cases hrun
    change OpenWithin β bt now (decision.vetoes.foldl _ s)
    rw [foldl_count_eq]
    exact h.of_eq rfl rfl
  · obtain ⟨_, u, hu, hrun⟩ := run_bind_eq_ok hrun
    cases hu
    cases hrun
    exact h.of_eq rfl rfl
  · have happroved : decision.approved := by simpa using hvetoed
    obtain ⟨m, stop, happroval⟩ := approval_of_approved hverdict happroved
    obtain ⟨be, -, hlocal⟩ := happroval.passedLocal
    exact h.submit (β.counter_lt _ _ _ hlocal.frequency htold) hrun ht

theorem told_of_riskContext {acct : AccountState} {nowNs : ℤ} {ctx : RiskContext}
    (h : bt.riskContext x acct nowNs s = .ok ctx) : s.counters.Told ctx := by
  rw [riskContext] at h
  obtain ⟨rates, -, h⟩ := bind_eq_ok h
  cases h
  exact ⟨rfl, rfl, rfl⟩

variable [Float64 F]

theorem OpenWithin.enter (h : OpenWithin β bt now s) {i : ℕ} {acct acct' : AccountState}
    {sig : RawSignal F} (hrun : (bt.enter x i acct sig).run s = .ok acct' t) (ht : t.Punctual) :
    OpenWithin β bt now t := by
  rw [Backtest.enter] at hrun
  split at hrun
  · split at hrun
    · cases hrun
    split at hrun
    · obtain ⟨_, u, hu, hrun⟩ := run_bind_eq_ok hrun
      cases hu
      cases hrun
      exact h.of_eq rfl rfl
    · rw [run_bind_get] at hrun
      split at hrun
      · rcases hctx : bt.riskContext x acct (x.tsNs i) s with e | ctx
        · rw [hctx] at hrun
          cases hrun
        · rw [hctx] at hrun
          obtain ⟨_, u, hu, hrun⟩ := run_bind_eq_ok hrun
          cases hu
          split at hrun
          · cases hrun
            exact h.of_eq rfl rfl
          · have hnext : OpenWithin β bt now { s with seq := s.seq + 1 } := h.of_eq rfl rfl
            exact hnext.judge (told_of_riskContext hctx) hrun ht
      · cases hrun
        exact h
  · cases hrun
    exact h

theorem OpenWithin.enters (h : OpenWithin β bt now s) {i : ℕ} {acct acct' : AccountState}
    {pending : List (RawSignal F)}
    (hrun : (pending.foldlM (bt.enter x i) acct).run s = .ok acct' t) (ht : t.Punctual) :
    OpenWithin β bt now t := by
  induction pending generalizing s acct with
  | nil =>
      cases hrun
      exact h
  | cons sig pending ih =>
      rw [List.foldlM_cons] at hrun
      obtain ⟨acct₁, u, hu, hrun⟩ := run_bind_eq_ok hrun
      have hlater : u.calls <+: t.calls :=
        rel_of_run (moves_foldlM (grows_enter bt x i) pending acct₁) hrun
      exact ih (h.enter hu (ht.of_isPrefix hlater)) hrun

omit [Float64 F] in
theorem setTime_eq_ok {ns : ℤ} {b b' : PaperBroker} {a : Unit}
    (h : (PaperBroker.setTime ns).run b = .ok a b') : b' = { b with nowNs := ns } := by
  rw [PaperBroker.setTime, run_bind_get] at h
  split_ifs at h
  · cases h
  · cases h
    rfl

theorem opening_marks {i : ℕ} {symbols : List String} {u : LoopState F} {a a' : Unit}
    (hset : (call (F := F) (.setTime (x.tsNs i)) (PaperBroker.setTime (x.tsNs i))).run s = .ok a u)
    (hmarks : (symbols.forM fun symbol => if x.present symbol i then
      bt.feed x symbol (x.bar symbol i).openPrice (x.tsNs i) else pure ()).run u = .ok a' t) :
    t.venue.fillTimes = s.venue.fillTimes ∧ t.counters = s.counters ∧ t.pending = s.pending ∧
      t.venue.nowNs = x.tsNs i := by
  obtain ⟨b, hb, rfl⟩ := call_eq_ok hset
  obtain rfl := setTime_eq_ok hb
  have hmove : Moves (Opening (x.tsNs i)) (symbols.forM fun symbol => if x.present symbol i then
      bt.feed x symbol (x.bar symbol i).openPrice (x.tsNs i) else pure ()) :=
    Moves.forM (fun symbol => Moves.ite (fun _ => opening_feed bt x symbol _)
      fun _ => Moves.pure _) symbols
  have hmarked := rel_of_run hmove hmarks
  exact ⟨hmarked.fills, hmarked.counters, hmarked.pending, hmarked.nowNs rfl⟩

theorem within_openBar {i : ℕ} (h : β.Within (β.cap bt.risk) now s.venue.fillTimes s.counters)
    (hle : now ≤ x.tsNs i)
    (hkeyed : s.pending ≠ [] → x.warmup ≤ i → bt.inSession (x.tsNs i) = true →
      β.key s.counters = some (β.number (dayOf (x.tsNs i))))
    (hrun : (bt.openBar x i).run s = .ok ⟨⟩ t) (ht : t.Punctual) :
    ∃ now' ≤ x.tsNs i, β.Within (β.cap bt.risk) now' t.venue.fillTimes t.counters := by
  rw [openBar] at hrun
  obtain ⟨_, u₁, hset, hrun⟩ := run_bind_eq_ok hrun
  obtain ⟨_, u₂, hmarks, hrun⟩ := run_bind_eq_ok hrun
  obtain ⟨acct, u₃, hacct, hrun⟩ := run_bind_eq_ok hrun
  obtain ⟨hfills, hcounters, hpending, hnow⟩ := opening_marks hset hmarks
  have hread : Opening (x.tsNs i) u₂ u₃ := rel_of_run (opening_account bt x) hacct
  rw [← hread.fills] at hfills
  rw [← hread.counters] at hcounters
  rw [← hread.pending] at hpending
  have hkept : β.Within (β.cap bt.risk) now u₃.venue.fillTimes u₃.counters := by
    rw [hfills, hcounters]
    exact h
  rw [run_bind_get] at hrun
  simp only at hrun
  split_ifs at hrun with hwarm hsession hwaiting
  · obtain ⟨acct', u₄, henter, hrun⟩ := run_bind_eq_ok hrun
    cases hrun
    by_cases hnone : u₃.pending = []
    · rw [hnone] at henter
      cases henter
      exact ⟨now, hle, hkept⟩
    · have hkey := hkeyed (hpending ▸ hnone) hwarm hsession
      rw [← hcounters] at hkey
      have hopen : OpenWithin β bt (x.tsNs i) u₃ := ⟨hkept.later hle hkey, hkey, hread.nowNs hnow⟩
      exact ⟨x.tsNs i, le_rfl, (hopen.enters henter ht).within⟩
  · cases hrun
    exact ⟨now, hle, hkept⟩
  · cases hrun
    exact ⟨now, hle, hkept⟩
  · cases hrun
    exact ⟨now, hle, hkept⟩

/-! ## Bars -/

omit [Float64 F] in
theorem counters_rolled (day : ℤ) (equity : Dec) (s : LoopState F) :
    (rolled day equity s).counters = s.counters.rolled day := by
  simp only [rolled, LoopState.counters, EntryCounters.rolled]
  split_ifs <;> simp_all

omit [Float64 F] in
theorem venue_rolled (day : ℤ) (equity : Dec) (s : LoopState F) :
    (rolled day equity s).venue = s.venue ∧ (rolled day equity s).calls = s.calls := by
  simp only [rolled]
  split_ifs <;> exact ⟨rfl, rfl⟩

theorem replayBar_rolls {i : ℕ} {equity : Dec} (hrun : (bt.replayBar x i).run s = .ok equity t) :
    t.venue.fillTimes = s.venue.fillTimes ∧
      t.counters = s.counters.rolled (dayOf (x.tsNs i)) ∧ s.calls <+: t.calls := by
  rw [replayBar] at hrun
  obtain ⟨_, u₁, hbars, hrun⟩ := run_bind_eq_ok hrun
  obtain ⟨acct, u₂, hacct, hrun⟩ := run_bind_eq_ok hrun
  obtain ⟨_, u₃, hpeak, hrun⟩ := run_bind_eq_ok hrun
  obtain ⟨_, u₄, hrolled, hrun⟩ := run_bind_eq_ok hrun
  have hreplayed : s.Kept u₁ := by
    refine rel_of_run (Moves.forM (fun symbol => ?_) x.symbols) hbars
    exact Moves.ite (fun _ => kept_onBarPrices bt x _ _ _ _) fun _ => Moves.pure _
  have hread : u₁.Kept u₂ := rel_of_run (kept_call _ (PaperBroker.unfilled_account _)) hacct
  have hkept : s.Kept u₂ := IsTrans.trans _ _ _ hreplayed hread
  cases hpeak
  cases hrolled
  cases hrun
  obtain ⟨hvenue, hcalls⟩ := venue_rolled (dayOf (x.tsNs i)) acct.equity
    { u₂ with peakEquity := max u₂.peakEquity acct.balance }
  refine ⟨?_, ?_, ?_⟩
  · rw [hvenue]
    exact hkept.fills
  · rw [counters_rolled, ← hkept.counters]
    rfl
  · rw [hcalls]
    exact hkept.calls

theorem restOfBar_rolls {i : ℕ} {report : BarReport F}
    (hrun : (bt.restOfBar x i).run s = .ok report t) :
    t.venue.fillTimes = s.venue.fillTimes ∧
      t.counters = s.counters.rolled (dayOf (x.tsNs i)) ∧ s.calls <+: t.calls := by
  rw [restOfBar] at hrun
  obtain ⟨equity, u, hreplay, hrun⟩ := run_bind_eq_ok hrun
  obtain ⟨hfills, hcounters, hcalls⟩ := replayBar_rolls hreplay
  have hkept : u.Kept t := by
    refine rel_of_run (Moves.ite (fun _ => Moves.pure _) fun _ => ?_) hrun
    refine Moves.bind (kept_manageBar bt x i) fun _ => ?_
    refine Moves.ite (fun _ => ?_) fun _ => Moves.pure _
    exact Moves.bind (moves_mapM (kept_raiseSignal bt x i) x.symbols) fun _ => Moves.pure _
  exact ⟨hkept.fills.trans hfills, hkept.counters.trans hcounters, hcalls.trans hkept.calls⟩

theorem within_playBar {i : ℕ} {report : BarReport F}
    (h : β.Within (β.cap bt.risk) now s.venue.fillTimes s.counters) (hle : now ≤ x.tsNs i)
    (hkeyed : s.pending ≠ [] → x.warmup ≤ i → bt.inSession (x.tsNs i) = true →
      β.key s.counters = some (β.number (dayOf (x.tsNs i))))
    (hrun : (bt.playBar x i).run s = .ok report t) (ht : t.Punctual) :
    β.Within (β.cap bt.risk) (x.tsNs i) t.venue.fillTimes t.counters ∧
      β.key t.counters = some (β.number (dayOf (x.tsNs i))) := by
  rw [playBar] at hrun
  obtain ⟨⟨⟩, u, hopen, hrun⟩ := run_bind_eq_ok hrun
  obtain ⟨hfills, hcounters, hcalls⟩ := restOfBar_rolls hrun
  obtain ⟨now', hle', hwithin⟩ := within_openBar h hle hkeyed hopen (ht.of_isPrefix hcalls)
  rw [hfills, hcounters]
  exact ⟨hwithin.rolls hle', β.key_rolled _ _⟩

/-! ## The run -/

omit [Float64 F] in
theorem tsNs_mono (hclock : x.clock.SortedLT) {i j : ℕ} (hij : i ≤ j) (hj : j < x.length) :
    x.tsNs i ≤ x.tsNs j := by
  rw [Prepared.length] at hj
  rw [Prepared.tsNs, Prepared.tsNs, List.getD_eq_getElem?_getD, List.getD_eq_getElem?_getD,
    List.getElem?_eq_getElem hj, List.getElem?_eq_getElem (hij.trans_lt hj)]
  exact hclock.getElem_le_getElem_iff.mpr hij

theorem sortedLT_clock {data : View F} (hx : bt.prepare data = .ok x) : x.clock.SortedLT := by
  obtain ⟨-, hclock, -⟩ := prepare_eq_ok hx
  have hsorted := sortedKeys_sortedLT
    (((bt.framesOf data).map Prod.snd).flatMap fun f => f.map FrameRow.tsNs)
  rw [hclock, runClock, clockOf, unionClock]
  split
  · exact hsorted
  · split_ifs
    · exact hsorted
    · exact (hsorted.pairwise.sublist (List.take_sublist _ _)).sortedLT

def EntersInPeriod (β : EntryBudget) (bt : Backtest F P) (x : Prepared F P) (i : ℕ)
    (s : LoopState F) : Prop :=
  s.pending ≠ [] → x.warmup ≤ i → bt.inSession (x.tsNs i) = true →
    β.number (dayOf (x.tsNs i)) = β.number (dayOf (x.tsNs (i - 1)))

/-- So at each of the first bars. -/
def InPeriods (β : EntryBudget) (bt : Backtest F P) (x : Prepared F P) (n : ℕ) : Prop :=
  ∀ i < n, ∀ reports u, (bt.rounds x i).run (bt.start x) = .ok reports u →
    EntersInPeriod β bt x i u

theorem rounds_succ_eq_ok {n : ℕ} {reports : List (BarReport F)}
    (h : (bt.rounds x (n + 1)).run s = .ok reports t) :
    ∃ first u report, (bt.rounds x n).run s = .ok first u ∧
      (bt.playBar x n).run u = .ok report t := by
  rw [rounds, List.range_succ, List.mapM_append] at h
  obtain ⟨first, u, hfirst, h⟩ := run_bind_eq_ok h
  obtain ⟨rest, v, hrest, h⟩ := run_bind_eq_ok h
  cases h
  rw [List.mapM_cons] at hrest
  obtain ⟨report, w, hreport, hrest⟩ := run_bind_eq_ok hrest
  cases hrest
  exact ⟨first, u, report, hfirst, hreport⟩

omit [Float64 F] in
theorem fillTimes_start : (bt.start x).venue.fillTimes = [] := by
  have hkept : ∀ (conversions : List (String × Dec)) (b : PaperBroker),
      (conversions.foldl (fun b c => b.step (bt.setup x) (.setConversion c.1 c.2)) b).fillTimes =
        b.fillTimes := by
    intro conversions
    induction conversions with
    | nil => exact fun b => rfl
    | cons c conversions ih => exact fun b => ih _
  exact hkept bt.conversions _

theorem within_rounds (hclock : x.clock.SortedLT) {n : ℕ} (hn : n ≤ x.length)
    (hperiods : InPeriods β bt x n) {reports : List (BarReport F)}
    (hrun : (bt.rounds x n).run (bt.start x) = .ok reports s) (hs : s.Punctual) :
    β.Within (β.cap bt.risk) (x.tsNs (n - 1)) s.venue.fillTimes s.counters ∧
      (s.pending = [] ∨ β.key s.counters = some (β.number (dayOf (x.tsNs (n - 1))))) := by
  induction n generalizing s reports with
  | zero =>
      cases hrun
      rw [fillTimes_start]
      exact ⟨EntryBudget.Within.nil, .inl rfl⟩
  | succ n ih =>
      obtain ⟨first, u, report, hfirst, hbar⟩ := rounds_succ_eq_ok hrun
      have hlater : u.calls <+: s.calls := by
        obtain ⟨_, v, hopen, hrest⟩ := run_bind_eq_ok hbar
        exact (rel_of_run (grows_openBar bt x n) hopen).trans (restOfBar_rolls hrest).2.2
      obtain ⟨hwithin, hkeyed⟩ := ih (Nat.le_of_succ_le hn)
        (fun i hi => hperiods i (hi.trans (Nat.lt_succ_self n))) hfirst (hs.of_isPrefix hlater)
      have hbefore : x.tsNs (n - 1) ≤ x.tsNs n := tsNs_mono hclock (Nat.sub_le n 1) hn
      have hnext := within_playBar hwithin hbefore (fun hwaiting hwarm hsession => ?_) hbar hs
      · exact ⟨hnext.1, .inr hnext.2⟩
      · rw [hperiods n (Nat.lt_succ_self n) first u hfirst hwaiting hwarm hsession]
        exact hkeyed.resolve_left hwaiting

/-- In every state that a run of the backtest reaches, the entries of a UTC day, an
ISO week (from its Monday) and a calendar year are within their caps, each where
no signal waits for the first bar of another such period and no order was
answered after its timeout. -/
theorem frequency_caps (bt : Backtest F P) {data : View F} (hx : bt.prepare data = .ok x) {n : ℕ}
    (hn : n ≤ x.length) {reports : List (BarReport F)}
    (hrun : (bt.rounds x n).run (bt.start x) = .ok reports s) (hs : s.Punctual) :
    (InPeriods .daily bt x n → ∀ day,
      s.venue.fillTimes.countP (fun t => dayOf t = day) ≤ bt.risk.maxTradesPerDay) ∧
    (InPeriods .weekly bt x n → ∀ monday,
      s.venue.fillTimes.countP (fun t => dayOf t - weekdayOf (dayOf t) = monday) ≤
        bt.risk.maxTradesPerWeek) ∧
    (InPeriods .yearly bt x n → ∀ year,
      s.venue.fillTimes.countP (fun t => (CivilDate.ofDay (dayOf t)).year = year) ≤
        bt.risk.maxTradesPerYear) := by
  have hclock := sortedLT_clock hx
  refine ⟨fun hperiods day => ?_, fun hperiods monday => ?_, fun hperiods year => ?_⟩
  · exact (within_rounds hclock hn hperiods hrun hs).1.capped day
  · exact (within_rounds hclock hn hperiods hrun hs).1.capped monday
  · exact (within_rounds hclock hn hperiods hrun hs).1.capped year

end Entries

/-! ## A night between two bars -/

def entriesAfter [Float64 F] (bt : Backtest F P) (data : View F) (n : ℕ) :
    Option (ℕ × List ℤ × Bool) :=
  match bt.prepare data with
  | .error _ => none
  | .ok x =>
      match (bt.rounds x n).run (bt.start x) with
      | .error _ _ => none
      | .ok _ s => some (x.length, s.venue.fillTimes, decide s.Punctual)

theorem run_of_entriesAfter [Float64 F] {bt : Backtest F P} {data : View F} {n length : ℕ}
    {fills : List ℤ} (h : entriesAfter bt data n = some (length, fills, true)) :
    ∃ x reports s, bt.prepare data = .ok x ∧ x.length = length ∧
      (bt.rounds x n).run (bt.start x) = .ok reports s ∧ s.venue.fillTimes = fills ∧
        s.Punctual := by
  rw [entriesAfter] at h
  rcases hx : bt.prepare data with e | x
  · rw [hx] at h
    cases h
  rw [hx] at h
  simp only at h
  rcases hrun : (bt.rounds x n).run (bt.start x) with ⟨reports, s⟩ | ⟨e, s⟩
  · rw [hrun] at h
    simp only [Option.some.injEq, Prod.mk.injEq, decide_eq_true_eq] at h
    exact ⟨x, reports, s, rfl, h.1, hrun, h.2.1, h.2.2⟩
  · rw [hrun] at h
    cases h

def overnight : View (Option ℚ) :=
  Dict.ofEntries [("EUR_USD", (List.range 12).map fun i =>
    { flatRow i 1 with tsNs := if i = 0 then 15 * hourNs else (31 + i) * hourNs })]

theorem twoPositions_le : 2 ≤ 10 := by norm_num

theorem oneTradePerDay_le : 1 * 5 ≤ (default : RiskConfig).maxTradesPerWeek * 2 := by decide

theorem defaultRisk_le : (default : RiskConfig).riskPerTradePct ≤ 3 := by decide +kernel

def oneTradeTest : Backtest (Option ℚ) Unit :=
  { longTest with
    risk :=
      { (default : RiskConfig) with
        maxTradesPerDay := 1, maxPositionsPerInstrument := 2, maxCurrencyExposurePct := 3
        maxPositionsPerInstrument_le := twoPositions_le
        tradesPerDay_consistent := oneTradePerDay_le, risk_le_currency := defaultRisk_le } }

theorem inPeriods_of_day [Float64 F] {β : EntryBudget} {bt : Backtest F P} {x : Prepared F P}
    {n : ℕ} {day : ℤ} (h : ∀ i < n, dayOf (x.tsNs i) = day) : InPeriods β bt x n := by
  intro i hi reports u _ _ _ _
  rw [h i hi, h (i - 1) ((Nat.sub_le i 1).trans_lt hi)]

/-- Twelve hours of one day, with an entry at the end of the Asian session. -/
theorem frequency_caps_twelveHours :
    ∃ x reports s, oneTradeTest.prepare (twelveHours 2) = .ok x ∧
      (oneTradeTest.rounds x 12).run (oneTradeTest.start x) = .ok reports s ∧
        s.venue.fillTimes = [6 * hourNs] ∧
          ∀ day, s.venue.fillTimes.countP (fun t => dayOf t = day) ≤
            oneTradeTest.risk.maxTradesPerDay := by
  have hentries : entriesAfter oneTradeTest (twelveHours 2) 12 =
      some (12, [6 * hourNs], true) := by decide +kernel
  obtain ⟨x, reports, s, hx, hlength, hrun, hfills, hs⟩ := run_of_entriesAfter hentries
  have hclock : x.clock = (List.range 12).map fun i : ℕ => i * hourNs :=
    (prepare_eq_ok hx).2.1.trans (clockOf_twelveHours 2)
  have hday : ∀ i < 12, dayOf (x.tsNs i) = 0 := by
    simp only [Prepared.tsNs, hclock]
    decide +kernel
  exact ⟨x, reports, s, hx, hrun, hfills,
    (frequency_caps oneTradeTest hx hlength.ge hrun hs).1 (inPeriods_of_day hday)⟩

/-- The entry at the first open of the second day is counted on the first, and
there is another one at the next. -/
theorem two_entries_on_one_day :
    ∃ x reports s, oneTradeTest.prepare overnight = .ok x ∧
      (oneTradeTest.rounds x x.length).run (oneTradeTest.start x) = .ok reports s ∧ s.Punctual ∧
        oneTradeTest.risk.maxTradesPerDay <
          s.venue.fillTimes.countP fun t => dayOf t = 1 := by
  have hentries : entriesAfter oneTradeTest overnight 12 =
      some (12, [32 * hourNs, 33 * hourNs], true) := by decide +kernel
  obtain ⟨x, reports, s, hx, hlength, hrun, hfills, hs⟩ := run_of_entriesAfter hentries
  refine ⟨x, reports, s, hx, hlength ▸ hrun, hs, ?_⟩
  rw [hfills]
  decide

end Backtest

end Sentinel
