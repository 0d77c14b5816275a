import Sentinel.Research.Backtest

/-!
# The backtester reads no later bar

Two data sets on the same instants that agree up to a bar give the loop the
same program for every bar up to it, and for the open of the next one.  The
runs are then the same up to there, whatever they end in later.
-/

namespace Sentinel

open Float64 Causal

variable {F P : Type} [Float64 F]

/-! ## What a bar of the loop reads -/

/-- Two preparations that a loop cannot tell apart before the open of bar
`i + 1` is over. -/
structure Prepared.AgreeTo (strategy : RulesStrategy F P) (i : ℕ) (x x' : Prepared F P) :
    Prop where
  symbols : x.symbols = x'.symbols
  clock : x.clock = x'.clock
  warmup : x.warmup = x'.warmup
  barNs : x.barNs = x'.barNs
  rows : ∀ symbol, (x.frame symbol).take (i + 1) = (x'.frame symbol).take (i + 1)
  opens : ∀ symbol, (x.bar symbol (i + 1)).openPrice = (x'.bar symbol (i + 1)).openPrice
  signals : ∀ j ≤ i, ∀ symbol,
    strategy.generate x.indicators x.view symbol j =
      strategy.generate x'.indicators x'.view symbol j

namespace Prepared.AgreeTo

variable {strategy : RulesStrategy F P} {i j : ℕ} {x x' : Prepared F P}

theorem bar (h : x.AgreeTo strategy i x') (hj : j ≤ i) (symbol : String) :
    x.bar symbol j = x'.bar symbol j :=
  Frame.bars_agree (h.rows symbol) j hj

theorem openPrice (h : x.AgreeTo strategy i x') (hj : j ≤ i + 1) (symbol : String) :
    (x.bar symbol j).openPrice = (x'.bar symbol j).openPrice := by
  rcases Nat.le_succ_iff.1 hj with hle | heq
  · rw [h.bar hle]
  · rw [heq]
    exact h.opens symbol

theorem present (h : x.AgreeTo strategy i x') (hj : j ≤ i + 1) (symbol : String) :
    x.present symbol j = x'.present symbol j := by
  rw [Prepared.present, Prepared.present, h.openPrice hj]

theorem tsNs (h : x.AgreeTo strategy i x') (j : ℕ) : x.tsNs j = x'.tsNs j := by
  rw [Prepared.tsNs, Prepared.tsNs, h.clock]

theorem length (h : x.AgreeTo strategy i x') : x.length = x'.length := by
  rw [Prepared.length, Prepared.length, h.clock]

theorem endNs (h : x.AgreeTo strategy i x') (j : ℕ) : x.endNs j = x'.endNs j := by
  rw [Prepared.endNs, Prepared.endNs, h.length, h.tsNs, h.tsNs, h.barNs]

theorem atr (h : x.AgreeTo strategy i x') (hj : j ≤ i) (symbol : String) :
    x.atr symbol j = x'.atr symbol j := by
  have hatr := Indicators.atr_agree (Frame.bars_agree (h.rows symbol)) 14 j hj
  rw [Prepared.atr, Prepared.atr, hatr]

end Prepared.AgreeTo

namespace Backtest

theorem barContext_congr {f g : Frame F} {i j : ℕ} (h : f.take (i + 1) = g.take (i + 1))
    (hj : j ≤ i) : barContext f j = barContext g j := by
  have hseen : f.take (j + 1) = g.take (j + 1) := take_of_take h hj
  have hstamp : f.stamps j = g.stamps j := Frame.stamps_agree h j hj
  have hrecent : (f.drop (j - 200)).take (j + 1 - (j - 200)) =
      (g.drop (j - 200)).take (j + 1 - (j - 200)) := by
    rw [← List.drop_take, ← List.drop_take, hseen]
  have hlength : f.length ≤ j ↔ g.length ≤ j := by
    have hlen := congrArg List.length hseen
    rw [List.length_take, List.length_take] at hlen
    omega
  rw [barContext, barContext, hseen, hstamp, hrecent]
  simp only [hlength]

variable {bt : Backtest F P} {i j : ℕ} {x x' : Prepared F P}

/-! ## The same program for the same bars -/

theorem setup_eq (h : x.AgreeTo bt.strategy i x') : bt.setup x = bt.setup x' := by
  rw [setup, setup, h.symbols]

theorem feed_eq (h : x.AgreeTo bt.strategy i x') : bt.feed x = bt.feed x' := by
  funext symbol price tsNs
  simp only [feed, spreadPrice, setup_eq h]

theorem account_eq (h : x.AgreeTo bt.strategy i x') : bt.account x = bt.account x' := by
  rw [account, account, setup_eq h]

theorem closePosition_eq (h : x.AgreeTo bt.strategy i x') :
    bt.closePosition x = bt.closePosition x' := by
  funext symbol lots reason
  rw [closePosition, closePosition, setup_eq h]

theorem riskContext_eq (h : x.AgreeTo bt.strategy i x') :
    bt.riskContext x = bt.riskContext x' := by
  funext acct nowNs s
  simp only [riskContext, contracts, h.symbols]

theorem submit_eq (h : x.AgreeTo bt.strategy i x') : bt.submit x = bt.submit x' := by
  funext acct sig intent nowNs
  have hseconds : bt.tfSeconds x = bt.tfSeconds x' := by
    rw [tfSeconds, tfSeconds, h.barNs]
  have hentered : bt.entered x = bt.entered x' := by
    funext sig nowNs s
    rw [entered, entered, hseconds]
  rw [submit, submit, setup_eq h, hentered, account_eq h]

theorem enter_eq (h : x.AgreeTo bt.strategy i x') (hj : j ≤ i + 1) :
    bt.enter x j = bt.enter x' j := by
  funext acct sig
  have hjudge : bt.judge x = bt.judge x' := by
    funext acct sig inst intent ctx nowNs
    simp only [judge, submit_eq h]
  simp only [enter, h.symbols, h.present hj, h.tsNs, riskContext_eq h, hjudge]

theorem openBar_eq (h : x.AgreeTo bt.strategy i x') (hj : j ≤ i + 1) :
    bt.openBar x j = bt.openBar x' j := by
  simp only [openBar, h.tsNs, h.symbols, h.present hj, h.openPrice hj, h.warmup, feed_eq h,
    account_eq h, enter_eq h hj]

theorem replayBar_eq (h : x.AgreeTo bt.strategy i x') (hj : j ≤ i) :
    bt.replayBar x j = bt.replayBar x' j := by
  have hpath : bt.onBarPrices x = bt.onBarPrices x' := by
    funext symbol b startNs endNs
    simp only [onBarPrices, feed_eq h]
  simp only [replayBar, h.symbols, h.present (Nat.le_succ_of_le hj), h.bar hj, h.tsNs, h.endNs,
    hpath, account_eq h]

theorem manageBar_eq (h : x.AgreeTo bt.strategy i x') (hj : j ≤ i) :
    bt.manageBar x j = bt.manageBar x' j := by
  have hleave : bt.leave x = bt.leave x' := by
    funext symbol reason
    simp only [leave, closePosition_eq h]
  have hexit : bt.timeExit x j = bt.timeExit x' j := by
    funext pos
    simp only [timeExit, h.endNs, hleave]
  have hfollow : bt.follow x = bt.follow x' := by
    funext pos act
    simp only [follow, setup_eq h, closePosition_eq h]
  have hprotect : bt.protectPosition x j = bt.protectPosition x' j := by
    funext pos
    simp only [protectPosition, h.atr hj, hfollow]
  rw [manageBar, manageBar, hexit, hprotect]

theorem raiseSignal_eq (h : x.AgreeTo bt.strategy i x') (hj : j ≤ i) :
    bt.raiseSignal x j = bt.raiseSignal x' j := by
  funext symbol
  simp only [raiseSignal, h.present (Nat.le_succ_of_le hj), h.signals j hj, h.tsNs,
    barContext_congr (h.rows symbol) hj]

theorem playBar_eq (h : x.AgreeTo bt.strategy i x') (hj : j ≤ i) :
    bt.playBar x j = bt.playBar x' j := by
  rw [playBar, playBar, openBar_eq h (Nat.le_succ_of_le hj), restOfBar, restOfBar,
    replayBar_eq h hj, manageBar_eq h hj, raiseSignal_eq h hj, h.warmup, h.length, h.symbols]

theorem start_eq (h : x.AgreeTo bt.strategy i x') : bt.start x = bt.start x' := by
  rw [start, start, setup_eq h, h.tsNs]

omit [Float64 F] in
theorem mapM_congr {α β : Type} {f g : α → LoopM F β} {l : List α} (h : ∀ a ∈ l, f a = g a) :
    l.mapM f = l.mapM g := by
  induction l with
  | nil => rfl
  | cons a l ih =>
      rw [List.mapM_cons, List.mapM_cons, h a List.mem_cons_self,
        ih fun b hb => h b (List.mem_cons_of_mem a hb)]

theorem rounds_eq (h : x.AgreeTo bt.strategy i x') {n : ℕ} (hn : n ≤ i + 1) :
    bt.rounds x n = bt.rounds x' n := by
  apply mapM_congr
  intro j hj
  exact playBar_eq h (Nat.le_of_lt_succ ((List.mem_range.1 hj).trans_le hn))

/-! ## What the loop is prepared with -/

theorem bind_eq_ok {ε α β : Type} {p : Except ε α} {f : α → Except ε β} {b : β}
    (h : p >>= f = .ok b) : ∃ a, p = .ok a ∧ f a = .ok b := by
  rcases p with e | a
  · cases h
  · exact ⟨a, rfl, h⟩

theorem ok_of_mapError {ε ε' α : Type} {f : ε → ε'} {p : Except ε α} {a : α}
    (h : p.mapError f = .ok a) : p = .ok a := by
  rcases p with e | b
  · cases h
  · exact congrArg Except.ok (Except.ok.inj h)

theorem alignOnTimestamps_eq_ok {frames : List (String × Frame F)} {warmup : ℕ}
    {aligned : List (String × Frame F)} {clock : List ℤ}
    (h : alignOnTimestamps frames warmup = .ok (aligned, clock)) :
    aligned = frames.map (fun p => (p.1, p.2.reindex clock)) ∧
      clock = unionClock (frames.map Prod.snd) := by
  rw [alignOnTimestamps] at h
  split at h
  · cases h
  · have heq := Except.ok.inj h
    rw [Prod.mk.injEq] at heq
    rw [← heq.2]
    exact ⟨heq.1.symm, rfl⟩

def viewOf (bt : Backtest F P) (data : View F) (clock : List ℤ) : View F :=
  Dict.ofEntries ((bt.symbolsOf data).map fun symbol =>
    (symbol, ((data.getD symbol []).reindex (bt.clockOf data)).take clock.length))

theorem prepare_eq_ok {data : View F} (h : bt.prepare data = .ok x) :
    x.symbols = bt.symbolsOf data ∧ x.clock = bt.runClock (bt.clockOf data) ∧
      x.warmup = bt.warmupBars ∧ x.barNs = medianSpacing x.clock ∧
      x.view = viewOf bt data x.clock ∧ bt.strategy.prepare x.view = .ok x.indicators := by
  rw [prepare] at h
  obtain ⟨-, -, h⟩ := bind_eq_ok h
  obtain ⟨-, -, h⟩ := bind_eq_ok h
  obtain ⟨⟨aligned, union⟩, halign, h⟩ := bind_eq_ok h
  obtain ⟨-, -, h⟩ := bind_eq_ok h
  obtain ⟨-, -, h⟩ := bind_eq_ok h
  obtain ⟨indicators, hprepare, h⟩ := bind_eq_ok h
  obtain ⟨rfl, rfl⟩ := alignOnTimestamps_eq_ok (ok_of_mapError halign)
  rw [← Except.ok.inj h]
  refine ⟨rfl, rfl, rfl, rfl, ?_, ok_of_mapError hprepare⟩
  simp only [viewOf, framesOf, List.map_map, Function.comp_def, clockOf]

theorem frame_viewOf {data : View F} {clock : List ℤ} (hview : x.view = viewOf bt data clock)
    (symbol : String) :
    x.frame symbol =
      if symbol ∈ bt.symbolsOf data then
        ((data.getD symbol []).reindex (bt.clockOf data)).take clock.length
      else [] := by
  rw [Prepared.frame, hview, viewOf, Dict.getD, Dict.get?_ofEntries_map]
  split
  · rfl
  · rfl

theorem keys_viewOf (data : View F) (clock : List ℤ) :
    (viewOf bt data clock).keys = bt.symbolsOf data := by
  have hkeys : ((bt.symbolsOf data).map fun symbol =>
      (symbol, ((data.getD symbol []).reindex (bt.clockOf data)).take clock.length)).map
        Prod.fst = bt.symbolsOf data := by
    rw [List.map_map]
    exact List.map_id _
  have hnodup : (bt.symbolsOf data).Nodup := data.nodup.filter _
  have hitems := Dict.items_foldl_set ((bt.symbolsOf data).map fun symbol =>
    (symbol, ((data.getD symbol []).reindex (bt.clockOf data)).take clock.length)) .empty
      (by rw [hkeys]; exact hnodup)
  rw [Dict.keys, viewOf, Dict.ofEntries, hitems]
  exact hkeys

theorem stamps_reindex (f : Frame F) (clock : List ℤ) :
    (f.reindex clock).map FrameRow.tsNs = clock := by
  rw [Frame.reindex, List.map_map]
  conv_rhs => rw [← List.map_id clock]
  apply List.map_congr_left
  intro t _
  rcases hrow : f.rowAt t with - | r
  · rw [Function.comp_apply, hrow]
    rfl
  · have hstamp := List.find?_some (Frame.rowAt.eq_def f t ▸ hrow)
    rw [Function.comp_apply, hrow]
    exact of_decide_eq_true hstamp

theorem open_reindex {f g : Frame F} {clock : List ℤ} {k : ℕ} (n : ℕ)
    (h : ∀ t ∈ clock[k]?, (f.rowAt t).map (fun r => r.openPrice) =
      (g.rowAt t).map fun r => r.openPrice) :
    (Frame.bars ((f.reindex clock).take n) k).openPrice =
      (Frame.bars ((g.reindex clock).take n) k).openPrice := by
  simp only [Frame.bars, rows, Frame.reindex, List.getElem?_map, List.getElem?_take]
  split
  · rcases hget : clock[k]? with - | t
    · rfl
    · have hrow := h t hget
      rcases hf : f.rowAt t with - | r
      · rcases hg : g.rowAt t with - | r'
        · simp only [Option.map_some, hf, hg]
        · rw [hf, hg] at hrow
          cases hrow
      · rcases hg : g.rowAt t with - | r'
        · rw [hf, hg] at hrow
          cases hrow
        · rw [hf, hg] at hrow
          simp only [Option.map_some, hf, hg, Option.getD_some]
          exact Option.some.inj hrow
  · rfl

/-! ## Two data sets -/

/-- The same symbols and instants, the same rows up to bar `i` of the common
clock, and the same opens of the next bar. -/
structure SameUpTo (bt : Backtest F P) (i : ℕ) (data data' : View F) : Prop where
  keys : data.keys = data'.keys
  stamps : ∀ symbol,
    (data.getD symbol []).map FrameRow.tsNs = (data'.getD symbol []).map FrameRow.tsNs
  rows : ∀ j ≤ i, ∀ t ∈ (bt.clockOf data)[j]?, ∀ symbol,
    (data.getD symbol []).rowAt t = (data'.getD symbol []).rowAt t
  opens : ∀ t ∈ (bt.clockOf data)[i + 1]?, ∀ symbol,
    ((data.getD symbol []).rowAt t).map (fun r => r.openPrice) =
      ((data'.getD symbol []).rowAt t).map fun r => r.openPrice

/-- Views with the same instants and the same rows up to row `i`. -/
structure SameView (i : ℕ) (v v' : View F) : Prop where
  keys : v.keys = v'.keys
  stamps : ∀ symbol,
    (v.getD symbol []).map FrameRow.tsNs = (v'.getD symbol []).map FrameRow.tsNs
  rows : ∀ symbol, (v.getD symbol []).take (i + 1) = (v'.getD symbol []).take (i + 1)

/-- `generate` depends only on the rows up to the one it is asked about. -/
def ReadsNoLaterRow (strategy : RulesStrategy F P) : Prop :=
  ∀ i v v' p p', SameView i v v' → strategy.prepare v = .ok p → strategy.prepare v' = .ok p' →
    ∀ symbol, strategy.generate p v symbol i = strategy.generate p' v' symbol i

namespace SameUpTo

variable {data data' : View F}

omit [Float64 F] in
theorem symbolsOf_eq (h : SameUpTo bt i data data') : bt.symbolsOf data = bt.symbolsOf data' := by
  rw [symbolsOf, symbolsOf, h.keys]

omit [Float64 F] in
theorem clockOf_eq (h : SameUpTo bt i data data') : bt.clockOf data = bt.clockOf data' := by
  have hstamps : (bt.symbolsOf data').flatMap
        (fun symbol => (data.getD symbol []).map FrameRow.tsNs) =
      (bt.symbolsOf data').flatMap fun symbol => (data'.getD symbol []).map FrameRow.tsNs := by
    simp only [h.stamps]
  simp only [clockOf, unionClock, framesOf, List.map_map, List.flatMap_map, Function.comp_def,
    h.symbolsOf_eq, hstamps]

theorem reindex_eq (h : SameUpTo bt i data data') (symbol : String) {j : ℕ} (hj : j ≤ i) :
    ((data.getD symbol []).reindex (bt.clockOf data)).take (j + 1) =
      ((data'.getD symbol []).reindex (bt.clockOf data')).take (j + 1) := by
  rw [Frame.reindex, Frame.reindex, ← List.map_take, ← List.map_take, ← h.clockOf_eq]
  apply List.map_congr_left
  intro t ht
  obtain ⟨k, hk, hget⟩ := List.getElem_of_mem ht
  rw [List.length_take] at hk
  rw [List.getElem_take] at hget
  have hat : t ∈ (bt.clockOf data)[k]? := by
    rw [Option.mem_def, List.getElem?_eq_getElem (by omega), hget]
  rw [h.rows k (by omega) t hat]

theorem agreeTo (h : SameUpTo bt i data data') (hcausal : ReadsNoLaterRow bt.strategy)
    (hx : bt.prepare data = .ok x) (hx' : bt.prepare data' = .ok x') :
    x.AgreeTo bt.strategy i x' := by
  obtain ⟨hsymbols, hclock, hwarmup, hbarNs, hview, hprepare⟩ := prepare_eq_ok hx
  obtain ⟨hsymbols', hclock', hwarmup', hbarNs', hview', hprepare'⟩ := prepare_eq_ok hx'
  have hclocks : x.clock = x'.clock := by
    rw [hclock, hclock', h.clockOf_eq]
  have hrows : ∀ j ≤ i, ∀ symbol,
      (x.frame symbol).take (j + 1) = (x'.frame symbol).take (j + 1) := by
    intro j hj symbol
    rw [frame_viewOf hview, frame_viewOf hview', h.symbolsOf_eq, hclocks]
    split
    · rw [List.take_take, List.take_take, min_comm, ← List.take_take, ← List.take_take,
        h.reindex_eq symbol hj]
    · rfl
  have hstamps : ∀ symbol,
      (x.frame symbol).map FrameRow.tsNs = (x'.frame symbol).map FrameRow.tsNs := by
    intro symbol
    rw [frame_viewOf hview, frame_viewOf hview', h.symbolsOf_eq, hclocks]
    split
    · rw [List.map_take, List.map_take, stamps_reindex, stamps_reindex, h.clockOf_eq]
    · rfl
  constructor
  · rw [hsymbols, hsymbols', h.symbolsOf_eq]
  · exact hclocks
  · rw [hwarmup, hwarmup']
  · rw [hbarNs, hbarNs', hclocks]
  · exact hrows i le_rfl
  · intro symbol
    rw [Prepared.bar, Prepared.bar, frame_viewOf hview, frame_viewOf hview', h.symbolsOf_eq,
      hclocks]
    split
    · rw [h.clockOf_eq]
      apply open_reindex
      intro t ht
      exact h.opens t (h.clockOf_eq ▸ ht) symbol
    · rfl
  · intro j hj symbol
    refine hcausal j x.view x'.view _ _ ⟨?_, hstamps, hrows j hj⟩ hprepare hprepare' symbol
    rw [hview, hview', keys_viewOf, keys_viewOf, h.symbolsOf_eq]

end SameUpTo

/-! ## The runs -/

/-- What the loop has done after `n` bars, and at the open of the next one when
it is asked for: the reports and the state, or the error. -/
def after (bt : Backtest F P) (x : Prepared F P) (n : ℕ) (opened : Bool) :
    EStateM.Result BacktestError (LoopState F) (List (BarReport F)) :=
  (do
    let reports ← bt.rounds x n
    if opened then bt.openBar x n
    pure reports : LoopM F (List (BarReport F))).run (bt.start x)

/-- What a result has to show for the first `n` bars: their equity points, and
the signals raised at them. -/
def Result.shown (r : Result F) (n : ℕ) : List Dec × List (Raised F) :=
  (r.equityCurve.take n,
    (r.signalLog.filter fun e => e.index < n).map SignalEntry.toRaised)

/-! ### What the rounds report -/

omit [Float64 F] in
theorem run_bind_eq_ok {α β : Type} {p : LoopM F α} {f : α → LoopM F β} {s t : LoopState F} {b : β}
    (h : (p >>= f).run s = .ok b t) : ∃ a u, p.run s = .ok a u ∧ (f a).run u = .ok b t := by
  rw [run_bind] at h
  rcases hp : p.run s with ⟨a, u⟩ | ⟨e, u⟩
  · rw [hp] at h
    exact ⟨a, u, rfl, h⟩
  · rw [hp] at h
    cases h

omit [Float64 F] in
theorem of_mapM_eq_ok {α β : Type} {f : α → LoopM F β} {Q : α → β → Prop}
    (hf : ∀ a s b t, (f a).run s = .ok b t → Q a b) {l : List α} {bs : List β}
    {s t : LoopState F} (h : (l.mapM f).run s = .ok bs t) :
    bs.length = l.length ∧ ∀ b ∈ bs, ∃ a ∈ l, Q a b := by
  induction l generalizing bs s with
  | nil =>
      cases h
      simp
  | cons a l ih =>
      rw [List.mapM_cons] at h
      obtain ⟨b, u, hb, h⟩ := run_bind_eq_ok h
      obtain ⟨bs', v, hbs, h⟩ := run_bind_eq_ok h
      cases h
      obtain ⟨hlength, hmem⟩ := ih hbs
      constructor
      · rw [List.length_cons, List.length_cons, hlength]
      · intro b' hb'
        rcases List.mem_cons.1 hb' with rfl | hb'
        · exact ⟨a, List.mem_cons_self, hf a s b' u hb⟩
        · obtain ⟨a', ha', hQ⟩ := hmem b' hb'
          exact ⟨a', List.mem_cons_of_mem a ha', hQ⟩

/-- A row of the log as bar `j` writes it. -/
structure RaisedAt (x : Prepared F P) (j : ℕ) (r : Raised F) : Prop where
  index : r.index = j
  stamped : r.tsNs = x.tsNs j
  ahead : 1 ≤ r.horizonBars

omit [Float64 F] in
theorem one_le_horizon (bt : Backtest F P) (sig : RawSignal F) : 1 ≤ bt.horizon sig := by
  rw [horizon]
  omega

theorem raisedAt_of_raiseSignal {symbol : String} {s t : LoopState F} {o : Option (Raised F)}
    (h : (bt.raiseSignal x j symbol).run s = .ok o t) : ∀ r ∈ o, RaisedAt x j r := by
  rw [raiseSignal] at h
  split at h
  · cases h
    simp
  split at h
  · obtain ⟨-, u, -, h⟩ := run_bind_eq_ok h
    cases h
    simp
  · cases h
    simp
  split at h
  · cases h
    simp
  · obtain ⟨-, u, -, h⟩ := run_bind_eq_ok h
    split at h
    · obtain ⟨-, v, -, h⟩ := run_bind_eq_ok h
      cases h
      rintro r ⟨⟩
      exact ⟨rfl, rfl, one_le_horizon bt _⟩
    · obtain ⟨-, v, -, h⟩ := run_bind_eq_ok h
      cases h
      rintro r ⟨⟩
      exact ⟨rfl, rfl, one_le_horizon bt _⟩

theorem raisedAt_of_playBar {s t : LoopState F} {report : BarReport F}
    (h : (bt.playBar x j).run s = .ok report t) : ∀ r ∈ report.raised, RaisedAt x j r := by
  obtain ⟨-, u, -, h⟩ := run_bind_eq_ok h
  obtain ⟨equity, v, -, h⟩ := run_bind_eq_ok h
  split at h
  · cases h
    simp
  obtain ⟨-, w, -, h⟩ := run_bind_eq_ok h
  split at h
  · obtain ⟨raised, y, hraised, h⟩ := run_bind_eq_ok h
    cases h
    obtain ⟨-, hall⟩ := of_mapM_eq_ok (fun symbol s o t => raisedAt_of_raiseSignal) hraised
    intro r hr
    obtain ⟨o, ho, rfl⟩ := List.mem_filterMap.1 hr
    obtain ⟨symbol, -, hat⟩ := hall (some r) ho
    exact hat r rfl
  · cases h
    simp

theorem raisedAt_of_mapM {l : List ℕ} {reports : List (BarReport F)} {s t : LoopState F}
    (h : (l.mapM (bt.playBar x)).run s = .ok reports t) :
    reports.length = l.length ∧
      ∀ r ∈ reports.flatMap BarReport.raised, ∃ j ∈ l, RaisedAt x j r := by
  obtain ⟨hlength, hall⟩ := of_mapM_eq_ok (fun j s report t => raisedAt_of_playBar) h
  refine ⟨hlength, ?_⟩
  intro r hr
  obtain ⟨report, hreport, hraised⟩ := List.mem_flatMap.1 hr
  obtain ⟨j, hj, hat⟩ := hall report hreport
  exact ⟨j, hj, hat r hraised⟩

theorem rounds_split {n k : ℕ} {s t : LoopState F} {reports : List (BarReport F)}
    (h : (bt.rounds x (n + k)).run s = .ok reports t) :
    ∃ first u rest, (bt.rounds x n).run s = .ok first u ∧ reports = first ++ rest ∧
      first.length = n ∧ rest.length = k ∧
      (∀ r ∈ first.flatMap BarReport.raised, r.index < n) ∧
      ∀ r ∈ rest.flatMap BarReport.raised, n ≤ r.index := by
  rw [rounds, List.range_add, List.mapM_append] at h
  obtain ⟨first, u, hfirst, h⟩ := run_bind_eq_ok h
  obtain ⟨rest, v, hrest, h⟩ := run_bind_eq_ok h
  cases h
  obtain ⟨hlength, hbefore⟩ := raisedAt_of_mapM hfirst
  obtain ⟨hlength', hafter⟩ := raisedAt_of_mapM hrest
  rw [List.length_range] at hlength
  rw [List.length_map, List.length_range] at hlength'
  refine ⟨first, u, rest, hfirst, rfl, hlength, hlength', ?_, ?_⟩
  · intro r hr
    obtain ⟨j, hj, hat⟩ := hbefore r hr
    rw [hat.index]
    exact List.mem_range.1 hj
  · intro r hr
    obtain ⟨j, hj, hat⟩ := hafter r hr
    obtain ⟨m, -, rfl⟩ := List.mem_map.1 hj
    rw [hat.index]
    exact Nat.le_add_right n m

theorem runLoop_eq_ok {s t : LoopState F} {r : Result F} (h : (bt.runLoop x).run s = .ok r t) :
    ∃ reports u acct, (bt.rounds x x.length).run s = .ok reports u ∧
      (bt.flatten x).run u = .ok acct t ∧ r = resultOf x reports acct.equity t := by
  obtain ⟨reports, u, hreports, h⟩ := run_bind_eq_ok h
  obtain ⟨acct, v, hflatten, h⟩ := run_bind_eq_ok h
  cases h
  exact ⟨reports, u, acct, hreports, hflatten, rfl⟩

theorem shown_resultOf (reports : List (BarReport F)) (last : Dec) (t : LoopState F) (n : ℕ) :
    (resultOf x reports last t).shown n =
      ((overwriteLast (reports.map BarReport.equity) last).take n,
        (reports.flatMap BarReport.raised).filter fun r => r.index < n) := by
  rw [Result.shown, resultOf, List.filter_map, List.map_map]
  refine congrArg (Prod.mk _) ?_
  exact List.map_id _

theorem take_overwriteLast {points : List Dec} {n : ℕ} (h : n < points.length) (last : Dec) :
    (overwriteLast points last).take n = points.take n := by
  have hne : points ≠ [] := List.ne_nil_of_length_pos (Nat.zero_lt_of_lt h)
  rw [overwriteLast, if_neg hne, List.take_append_of_le_length, List.dropLast_eq_take,
    List.take_take, min_eq_left (Nat.le_sub_one_of_lt h)]
  rw [List.length_dropLast]
  exact Nat.le_sub_one_of_lt h

theorem shown_of_split {first rest : List (BarReport F)} {n : ℕ} (hlength : first.length = n)
    (hrest : 0 < rest.length) (hbefore : ∀ r ∈ first.flatMap BarReport.raised, r.index < n)
    (hafter : ∀ r ∈ rest.flatMap BarReport.raised, n ≤ r.index) (last : Dec) (t : LoopState F) :
    (resultOf x (first ++ rest) last t).shown n =
      (first.map BarReport.equity, first.flatMap BarReport.raised) := by
  have hn : n < ((first ++ rest).map BarReport.equity).length := by
    rw [List.length_map, List.length_append]
    omega
  have hequity : ((first ++ rest).map BarReport.equity).take n = first.map BarReport.equity := by
    rw [← List.map_take, ← hlength, List.take_left]
  have hfirst : (first.flatMap BarReport.raised).filter (fun r => r.index < n) =
      first.flatMap BarReport.raised := by
    rw [List.filter_eq_self]
    intro r hr
    exact decide_eq_true (hbefore r hr)
  have hlater : (rest.flatMap BarReport.raised).filter (fun r => r.index < n) = [] := by
    rw [List.filter_eq_nil_iff]
    intro r hr
    rw [decide_eq_true_iff]
    exact not_lt.2 (hafter r hr)
  rw [shown_resultOf, take_overwriteLast hn, hequity, List.flatMap_append, List.filter_append,
    hfirst, hlater, List.append_nil]

/-! ### No look-ahead -/

/-- Two runs that are the same up to bar `i` and to the entries at the open of
the next one. -/
structure SameTo (bt : Backtest F P) (i : ℕ) (x x' : Prepared F P) : Prop where
  length : x.length = x'.length
  bars : ∀ n ≤ i + 1, bt.after x n false = bt.after x' n false
  entries : bt.after x (i + 1) true = bt.after x' (i + 1) true
  results : ∀ r r' s s', (bt.runLoop x).run (bt.start x) = .ok r s →
    (bt.runLoop x').run (bt.start x') = .ok r' s' → r.shown (i + 1) = r'.shown (i + 1)

theorem flatten_eq (h : x.AgreeTo bt.strategy i x') : bt.flatten x = bt.flatten x' := by
  simp only [flatten, closePosition_eq h, account_eq h]

theorem shown_eq (h : x.AgreeTo bt.strategy i x') {r r' : Result F} {s s' : LoopState F}
    (hr : (bt.runLoop x).run (bt.start x) = .ok r s)
    (hr' : (bt.runLoop x').run (bt.start x') = .ok r' s') :
    r.shown (i + 1) = r'.shown (i + 1) := by
  obtain ⟨reports, u, acct, hreports, hflatten, rfl⟩ := runLoop_eq_ok hr
  obtain ⟨reports', u', acct', hreports', hflatten', rfl⟩ := runLoop_eq_ok hr'
  rw [← start_eq h, ← h.length] at hreports'
  by_cases hlast : i + 1 < x.length
  · obtain ⟨k, hk⟩ := Nat.exists_eq_add_of_lt hlast
    rw [hk, Nat.add_assoc] at hreports hreports'
    obtain ⟨first, v, rest, hfirst, rfl, hlength, hrest, hbefore, hafter⟩ :=
      rounds_split hreports
    obtain ⟨first', v', rest', hfirst', rfl, hlength', hrest', hbefore', hafter'⟩ :=
      rounds_split hreports'
    rw [← rounds_eq h le_rfl, hfirst] at hfirst'
    cases hfirst'
    rw [shown_of_split hlength (by omega) hbefore hafter,
      shown_of_split hlength' (by omega) hbefore' hafter']
  · -- the data agree on every bar of the run
    rw [← rounds_eq h (not_lt.1 hlast), hreports] at hreports'
    cases hreports'
    rw [← flatten_eq h, hflatten] at hflatten'
    cases hflatten'
    rw [shown_resultOf, shown_resultOf]

/-- Whatever the later rows contain, the run is the same for all bars up to
`i` and for the entries at the open of bar `i + 1`. -/
theorem no_look_ahead (bt : Backtest F P) (i : ℕ) {data data' : View F}
    (hcausal : ReadsNoLaterRow bt.strategy) (hsame : SameUpTo bt i data data')
    {x x' : Prepared F P} (hx : bt.prepare data = .ok x) (hx' : bt.prepare data' = .ok x') :
    SameTo bt i x x' := by
  have hagree : x.AgreeTo bt.strategy i x' := hsame.agreeTo hcausal hx hx'
  constructor
  · exact hagree.length
  · intro n hn
    simp only [after, Bool.false_eq_true, if_false, rounds_eq hagree hn, start_eq hagree]
  · rw [after, after, rounds_eq hagree le_rfl, openBar_eq hagree le_rfl, start_eq hagree]
  · intro r r' s s' hr hr'
    exact shown_eq hagree hr hr'

/-! ### A last bar that is not known -/

def alwaysLong : RulesStrategy (Option ℚ) Unit where
  name := "always_long"
  timeframe := "H1"
  requiredHistory := 0
  prepare _ := .ok ()
  generate _ view symbol i :=
    let close := (Frame.bars (view.getD symbol []) i).close
    .ok (some
      { instrument := symbol
        side := some .buy
        strength := some 1
        stopPrice := some (toRat close - 1 / 100) })

theorem alwaysLong_readsNoLaterRow : ReadsNoLaterRow alwaysLong := by
  intro i v v' p p' hsame _ _ symbol
  have hbar : Frame.bars (v.getD symbol []) i = Frame.bars (v'.getD symbol []) i :=
    Frame.bars_agree (hsame.rows symbol) i le_rfl
  simp only [alwaysLong, hbar]

def longTest : Backtest (Option ℚ) Unit where
  strategy := alwaysLong
  risk := default
  instruments :=
    Dict.ofEntries [("EUR_USD", { symbol := "EUR_USD", base := "EUR", quote := "USD" })]
  clientOrderId := fun symbol _ _ seq => symbol ++ toString seq
  orderDraws := fun _ => { latencyMs := 85, lastLookRejects := false, slippagePips := 1 / 10 }
  exitSlippage := fun _ => 1 / 10

def flatRow (i : ℕ) (close : ℚ) : FrameRow (Option ℚ) where
  openPrice := some 1
  high := some close
  low := some 1
  close := some close
  tsNs := i * hourNs
  volume := some 0

variable (close : ℚ)

/-- Twelve hours, the last of which closes at `close`. -/
def hours : Frame (Option ℚ) :=
  (List.range 11).map (fun i => flatRow i 1) ++ [flatRow 11 close]

def twelveHours : View (Option ℚ) := Dict.ofEntries [("EUR_USD", hours close)]

theorem getD_twelveHours (symbol : String) :
    (twelveHours close).getD symbol [] = if symbol = "EUR_USD" then hours close else [] := by
  have hget := Dict.get?_ofEntries_map ["EUR_USD"] (fun _ => hours close) symbol
  rw [Dict.getD, twelveHours]
  rw [List.map_singleton] at hget
  rw [hget]
  simp only [List.mem_singleton]
  split
  · rfl
  · rfl

theorem clockOf_twelveHours :
    longTest.clockOf (twelveHours close) = (List.range 12).map fun i : ℕ => i * hourNs := by
  have hstamps : (longTest.framesOf (twelveHours close)).map (fun p => p.2.map FrameRow.tsNs) =
      [(List.range 12).map fun i : ℕ => i * hourNs] := rfl
  rw [clockOf, unionClock, List.flatMap_map, List.flatMap_def, hstamps]
  decide +kernel

theorem rowAt_hours {t : ℤ} (h : t ≠ 11 * hourNs) :
    (hours close).rowAt t = Frame.rowAt ((List.range 11).map fun i => flatRow i 1) t := by
  have hlast : ¬ (flatRow 11 close).tsNs = t := fun heq => h heq.symm
  rw [Frame.rowAt, Frame.rowAt, hours, List.find?_append, List.find?_singleton,
    decide_eq_false hlast]
  simp

theorem sameUpTo_twelveHours (close close' : ℚ) :
    SameUpTo longTest 10 (twelveHours close) (twelveHours close') := by
  have hrows : ∀ j ≤ 10, ∀ t ∈ (longTest.clockOf (twelveHours close))[j]?, ∀ symbol,
      ((twelveHours close).getD symbol []).rowAt t =
        ((twelveHours close').getD symbol []).rowAt t := by
    intro j hj t ht symbol
    rw [clockOf_twelveHours, Option.mem_def, List.getElem?_map,
      List.getElem?_range (by omega)] at ht
    have hbefore : t ≠ 11 * hourNs := by
      intro heq
      rw [← Option.some.inj ht] at heq
      have hnumber : (j : ℤ) = 11 := mul_right_cancel₀ (by decide) heq
      omega
    rw [getD_twelveHours, getD_twelveHours]
    split
    · rw [rowAt_hours close hbefore, rowAt_hours close' hbefore]
    · rfl
  constructor
  · rfl
  · intro symbol
    rw [getD_twelveHours, getD_twelveHours]
    split
    · rfl
    · rfl
  · exact hrows
  · intro t ht symbol
    rw [clockOf_twelveHours] at ht
    have hlast : t = 11 * hourNs := (Option.some.inj ht).symm
    rw [getD_twelveHours, getD_twelveHours, hlast]
    split
    · rfl
    · rfl

/-- Ten bars and the entries at the open of the last are the same, however that
bar goes on. -/
theorem no_look_ahead_twelveHours :
    ∃ x x', longTest.prepare (twelveHours 2) = .ok x ∧ longTest.prepare (twelveHours 3) = .ok x' ∧
      SameTo longTest 10 x x' := by
  have hok : (longTest.prepare (twelveHours 2)).isOk = true := by decide +kernel
  have hok' : (longTest.prepare (twelveHours 3)).isOk = true := by decide +kernel
  rcases hx : longTest.prepare (twelveHours 2) with e | x
  · rw [hx] at hok
    cases hok
  rcases hx' : longTest.prepare (twelveHours 3) with e | x'
  · rw [hx'] at hok'
    cases hok'
  exact ⟨x, x', rfl, rfl, no_look_ahead longTest 10 alwaysLong_readsNoLaterRow
    (sameUpTo_twelveHours 2 3) hx hx'⟩

end Backtest

end Sentinel
