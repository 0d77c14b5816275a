import Sentinel.Strategy.PairsCausality

/-!
# Prepared strategies and later rows

What a prepared strategy says of a row, against what it says when the history
ends with that row.  The toolkit reads no later row; the execution signals do
through the spacing test of the whole frame and through a period number that
comes again, and the pairs through the length of a history.

A row reads the bars of the periods before its own.  Where no later row is in
an earlier period those bars are complete, and every column but the one that
says whether the bars are those of the declared timeframe is the same in every
two histories with the same rows so far.
-/

namespace Sentinel

open Float64 Causal Series

variable {F : Type} [Float64 F]

namespace ExecutionSignals

namespace Params

variable (p : Params) {f g : Frame F} {i : ℕ}

/-! ## Periods in order -/

theorem signalPeriod_fxDay (h : p.htfAnchor = .fxDay) {hours : ℕ}
    (hlen : p.signalSec = 3600 * hours) (hdvd : hours ∣ 24) (t : ℤ) :
    p.signalPeriod t = (NewYork.localNs t / hourNs + 7) / hours := by
  obtain ⟨count, hcount⟩ := hdvd
  have hpos : 0 < hours := Nat.pos_of_ne_zero fun h0 => by simp [h0] at hcount
  have hmin : ((p.signalSec / 60 : ℕ) : ℤ) = 60 * hours := by omega
  have hday : (1440 : ℤ) / (60 * hours) = count := by
    have hcast : (1440 : ℤ) = 60 * hours * count := by
      rw [mul_assoc]
      exact_mod_cast (show 1440 = 60 * (hours * count) by omega)
    rw [hcast]
    exact Int.mul_ediv_cancel_left _ (by positivity)
  obtain ⟨x, hx⟩ : ∃ x, x = NewYork.localNs t / hourNs + 7 := ⟨_, rfl⟩
  have hminute : 0 ≤ NewYork.localNs t % hourNs / minuteNs ∧
      NewYork.localNs t % hourNs / minuteNs < 60 := by
    have hunits : hourNs = 3600000000000 ∧ minuteNs = 60000000000 := by decide
    rw [hunits.1, hunits.2]
    omega
  have hsince : (x % 24 * 60 + NewYork.localNs t % hourNs / minuteNs) / 60 = x % 24 := by omega
  have hsplit : x = (hours : ℤ) * (count * (x / 24)) + x % 24 := by
    have hcast : (hours : ℤ) * count = 24 := by exact_mod_cast hcount.symm
    rw [← mul_assoc, hcast]
    omega
  simp only [signalPeriod, h, hmin, hday, NewYork.sinceRoll_eq, NewYork.fxDay_eq]
  rw [← hx, ← Int.ediv_ediv_of_nonneg (by decide), hsince]
  conv_rhs => rw [hsplit]
  rw [Int.mul_add_ediv_left _ _ (by positivity), mul_comm (x / 24)]

theorem monotone_signalPeriod
    (h : p.htfAnchor = .utc ∨ ∃ hours : ℕ, p.signalSec = 3600 * hours ∧ hours ∣ 24) :
    Monotone p.signalPeriod := by
  intro t t' ht
  have hdiv : ∀ {a b : ℤ} (n : ℕ), a ≤ b → a / (n : ℤ) ≤ b / (n : ℤ) := by
    intro a b n hab
    rcases n.eq_zero_or_pos with rfl | hn
    · simp
    · exact Int.ediv_le_ediv (by exact_mod_cast hn) hab
  rcases hanchor : p.htfAnchor with _ | _
  · obtain ⟨hours, hlen, hdvd⟩ := h.resolve_left (by simp [hanchor])
    rw [p.signalPeriod_fxDay hanchor hlen hdvd, p.signalPeriod_fxDay hanchor hlen hdvd]
    have hhour := NewYork.monotone_localHour ht
    simp only at hhour
    exact hdiv hours (by omega)
  · simp only [signalPeriod, hanchor]
    exact hdiv _ (Int.ediv_le_ediv (by decide) ht)

/-! ## Completed periods -/

/-- The rows of two histories up to `i` are the same and no later row of either
is in an earlier period. -/
structure SameSoFar (p : Params) (f g : Frame F) (i : ℕ) : Prop where
  rows : f.take (i + 1) = g.take (i + 1)
  left : Indicators.NoneEarlier p.signalPeriod f i
  right : Indicators.NoneEarlier p.signalPeriod g i

namespace SameSoFar

variable {p : Params} (h : p.SameSoFar f g i)
include h

variable {r : FrameRow F}

omit [Float64 F] in
theorem periodRows_eq (hr : r ∈ f.take (i + 1)) {k : ℤ}
    (hk : k < p.signalPeriod r.tsNs) : p.periodRows f k = p.periodRows g k :=
  Indicators.group_eq_of_lt h.rows h.left h.right hr hk

theorem signalBar_eq (hr : r ∈ f.take (i + 1)) {k : ℤ}
    (hk : k < p.signalPeriod r.tsNs) : p.signalBar f k = p.signalBar g k := by
  rw [signalBar, signalBar, h.periodRows_eq hr hk]

omit [Float64 F] in
theorem covered_eq (hr : r ∈ f.take (i + 1)) {k : ℤ}
    (hk : k < p.signalPeriod r.tsNs) : p.covered f k = p.covered g k := by
  rw [covered, covered, h.periodRows_eq hr hk]

theorem setupCode_eq (hr : r ∈ f.take (i + 1)) {k : ℤ}
    (hk : k < p.signalPeriod r.tsNs) : p.setupCode f k = p.setupCode g k := by
  have hmother : k - 1 < p.signalPeriod r.tsNs := by omega
  simp only [setupCode, h.signalBar_eq hr hk, h.signalBar_eq hr hmother, h.covered_eq hr hk,
    h.covered_eq hr hmother]

theorem signalAtr_eq (hr : r ∈ f.take (i + 1)) {k : ℤ}
    (hk : k < p.signalPeriod r.tsNs) : p.signalAtr f k = p.signalAtr g k := by
  have hkeys := Indicators.mem_keys_iff_of_noneEarlier h.rows h.left h.right hr
  have hupTo : ∀ x ≤ k, x ∈ f.map (fun r => p.signalPeriod r.tsNs) ↔
      x ∈ g.map (fun r => p.signalPeriod r.tsNs) := fun x hx => hkeys x (hx.trans hk.le)
  simp only [signalAtr, mem_sortedKeys, hupTo k le_rfl]
  split_ifs with hmem
  · have hmem' := (hupTo k le_rfl).mpr hmem
    obtain ⟨hidx, htake⟩ := idxOf_sortedKeys_congr hupTo hmem'
    have hbars : ∀ x ∈ (sortedKeys (f.map fun r => p.signalPeriod r.tsNs)).take
        ((sortedKeys (f.map fun r => p.signalPeriod r.tsNs)).idxOf k + 1),
        p.signalBar f x = p.signalBar g x := by
      intro x hx
      rw [take_idxOf (sortedKeys_sortedLT _) (mem_sortedKeys.mpr hmem'), List.mem_filter] at hx
      have hle : x ≤ k := of_decide_eq_true hx.2
      exact h.signalBar_eq hr (hle.trans_lt hk)
    rw [← hidx]
    refine (Indicators.atr_agree (agreeTo_rows ?_ _) p.atrWindow).last
    rw [← List.map_take, ← List.map_take, ← htake]
    exact List.map_congr_left hbars
  · rfl

theorem runRow_agree (hi : i < f.length) :
    AgreeTo i (fun j => p.runRow f (f.bars j) (f.stamps j))
      (fun j => p.runRow g (g.bars j) (g.stamps j)) := by
  intro j hj
  obtain ⟨r, hr, hstamp⟩ := Indicators.exists_stamps (show j < f.length by omega) hj
  have hbefore : p.signalPeriod r.tsNs - 1 < p.signalPeriod r.tsNs := by omega
  simp only [runRow, ← Frame.bars_agree h.rows j hj, ← Frame.stamps_agree h.rows j hj, hstamp,
    h.setupCode_eq hr hbefore, h.periodRows_eq hr hbefore, h.signalBar_eq hr hbefore]

theorem run_agree (hi : i < f.length) : AgreeTo i (p.run f) (p.run g) :=
  (h.runRow_agree hi).scan _ _

theorem indicators_eq_of_execOk (hi : i < f.length) (hf : f.Chronological)
    (hg : g.Chronological) (hok : p.ExecOk f) (hok' : p.ExecOk g) :
    p.indicators f i = p.indicators g i := by
  obtain ⟨r, hr, hstamp⟩ := Indicators.exists_stamps hi le_rfl
  have hbars := Frame.bars_agree h.rows
  have hstamps := (Frame.stamps_agree h.rows).last
  have hbefore : p.signalPeriod r.tsNs - 1 < p.signalPeriod r.tsNs := by omega
  have hdays := Indicators.noneEarlier_of_monotone hf NewYork.monotone_fxDay i
  have hdays' := Indicators.noneEarlier_of_monotone hg NewYork.monotone_fxDay i
  have hpdh := (Indicators.previousExtreme_agree h.rows hi hdays hdays'
    (fun b : Ohlc F => b.high) largest).last
  have hpdl := (Indicators.previousExtreme_agree h.rows hi hdays hdays'
    (fun b : Ohlc F => b.low) smallest).last
  have hhigh := (shift_agree (hbars.map fun b => b.high) 1).last
  have hlow := (shift_agree (hbars.map fun b => b.low) 1).last
  simp only [indicators, if_pos hok, if_pos hok', (h.run_agree hi).last, hpdh, hpdl, hhigh, hlow,
    ← hstamps, hstamp, h.signalAtr_eq hr hbefore]

end SameSoFar

/-! ## The columns and the signal -/

theorem execOk_indicators (f : Frame F) (i : ℕ) :
    (p.indicators f i).execOk = decide (p.ExecOk f) := by
  rw [indicators]
  split_ifs with hok
  · rw [decide_eq_true hok]
  · rw [decide_eq_false hok]
    rfl

theorem execOk_iff_of_indicators_eq (h : p.indicators f i = p.indicators g i) :
    p.ExecOk f ↔ p.ExecOk g := by
  have hsame := congrArg Features.execOk h
  rwa [execOk_indicators, execOk_indicators, decide_eq_decide] at hsame

theorem indicators_eq (htake : f.take (i + 1) = g.take (i + 1)) (hi : i < f.length)
    (hf : f.Chronological) (hg : g.Chronological) (hok : p.ExecOk f ↔ p.ExecOk g)
    (hnone : p.ExecOk f → Indicators.NoneEarlier p.signalPeriod f i)
    (hnone' : p.ExecOk g → Indicators.NoneEarlier p.signalPeriod g i) :
    p.indicators f i = p.indicators g i := by
  by_cases hpass : p.ExecOk f
  · have hpass' := hok.mp hpass
    have hsame : p.SameSoFar f g i := ⟨htake, hnone hpass, hnone' hpass'⟩
    exact hsame.indicators_eq_of_execOk hi hf hg hpass hpass'
  · have hfail : ¬ p.ExecOk g := fun hpass' => hpass (hok.mpr hpass')
    rw [indicators, indicators, if_neg hpass, if_neg hfail]

theorem generate_eq (htake : f.take (i + 1) = g.take (i + 1)) (hi : i < f.length)
    (hi' : i < g.length) (hcolumns : p.indicators f i = p.indicators g i) (letters : Letters)
    (instrument : String) :
    p.generate letters f instrument i = p.generate letters g instrument i := by
  have hbar := (Frame.bars_agree htake).last
  simp only [generate, not_le.mpr hi, not_le.mpr hi', hcolumns, hbar]

end Params

end ExecutionSignals

end Sentinel

namespace Sentinel

open Float64 Causal

variable {F : Type} [Float64 F]

structure ReadsNoLaterRow (e : ExecutionSignals.Params) (q : PairsSpread.Params)
    (letters : Letters) (data : Dict String (Frame F)) (instrument : String) (i : ℕ) : Prop where
  toolkit : ∀ ind : Indicator F,
    ind.value ((data.getD instrument []).upTo ((data.getD instrument []).stamps i)) i =
      ind.value (data.getD instrument []) i
  columns :
    e.indicators ((data.getD instrument []).upTo ((data.getD instrument []).stamps i)) i =
      e.indicators (data.getD instrument []) i
  executionSignal :
    e.generate letters ((data.getD instrument []).upTo ((data.getD instrument []).stamps i))
        instrument i =
      e.generate letters (data.getD instrument []) instrument i
  spreads : ∀ pair ∈ PairsSpread.symbolPairs data, instrument = pair.1 ∨ instrument = pair.2 →
    q.spreadAt (PairsSpread.cutAt data ((data.getD instrument []).stamps i)) pair i =
      q.spreadAt data pair i
  pairsSignal :
    q.generate (PairsSpread.cutAt data ((data.getD instrument []).stamps i)) instrument i =
      q.generate data instrument i

/-- The spacing test has one outcome for the whole history and for the rows up to `i`. -/
def SpacingSettled (e : ExecutionSignals.Params) (f : Frame F) (i : ℕ) : Prop :=
  e.ExecOk (f.upTo (f.stamps i)) ↔ e.ExecOk f

def PairsSettled (data : Dict String (Frame F)) (instrument : String) (i : ℕ) : Prop :=
  ∀ pair ∈ PairsSpread.symbolPairs data, instrument = pair.1 ∨ instrument = pair.2 →
    PairsSpread.HasRow data pair i →
      PairsSpread.HasRow (PairsSpread.cutAt data ((data.getD instrument []).stamps i)) pair i

section

variable (e : ExecutionSignals.Params) (q : PairsSpread.Params) (letters : Letters)
  {data : Dict String (Frame F)} {instrument : String} {i : ℕ}

omit [Float64 F] in
theorem chronological_getD
    (hdata : ∀ symbol f, data.get? symbol = some f → f.Chronological) (symbol : String) :
    (data.getD symbol []).Chronological := by
  rw [Dict.getD]
  cases hf : data.get? symbol with
  | none => exact List.Pairwise.nil
  | some f => exact hdata symbol f hf

omit [Float64 F] in
theorem noneEarlier_take (key : ℤ → ℤ) (f : Frame F) (i : ℕ) :
    Indicators.NoneEarlier key (f.take (i + 1)) i := by
  intro later hlater
  rw [List.drop_take, Nat.sub_self, List.take_zero] at hlater
  exact absurd hlater List.not_mem_nil

theorem columns_upTo {f : Frame F} (hf : f.Chronological) (hi : i < f.length)
    (hspacing : SpacingSettled e f i)
    (hperiods : e.ExecOk f → Indicators.NoneEarlier e.signalPeriod f i) :
    e.indicators (f.upTo (f.stamps i)) i = e.indicators f i := by
  have hcut := hf.upTo_stamps hi
  have htake : (f.upTo (f.stamps i)).take (i + 1) = f.take (i + 1) := by
    rw [hcut, List.take_take, min_self]
  have hlen : i < (f.upTo (f.stamps i)).length := by
    rw [hcut, List.length_take]
    omega
  refine e.indicators_eq htake hlen (hf.upTo _) hf hspacing ?_ hperiods
  intro _
  rw [hcut]
  exact noneEarlier_take e.signalPeriod f i

theorem readsNoLaterRow_of_settled
    (hdata : ∀ symbol f, data.get? symbol = some f → f.Chronological)
    (hi : i < (data.getD instrument []).length)
    (hspacing : SpacingSettled e (data.getD instrument []) i)
    (hperiods : e.ExecOk (data.getD instrument []) →
      Indicators.NoneEarlier e.signalPeriod (data.getD instrument []) i)
    (hpairs : PairsSettled data instrument i) :
    ReadsNoLaterRow e q letters data instrument i := by
  have hchron := chronological_getD hdata
  have hf := hchron instrument
  have hcut := hf.upTo_stamps hi
  have htake : ((data.getD instrument []).upTo ((data.getD instrument []).stamps i)).take (i + 1) =
      (data.getD instrument []).take (i + 1) := by
    rw [hcut, List.take_take, min_self]
  have hlen : i < ((data.getD instrument []).upTo ((data.getD instrument []).stamps i)).length := by
    rw [hcut, List.length_take]
    omega
  have hcolumns := columns_upTo e hf hi hspacing hperiods
  have hspreads : ∀ pair ∈ PairsSpread.symbolPairs data,
      instrument = pair.1 ∨ instrument = pair.2 →
        q.spreadAt (PairsSpread.cutAt data ((data.getD instrument []).stamps i)) pair i =
          q.spreadAt data pair i := by
    intro pair hpair hin
    exact (q.spreadAt_cutAt_iff hchron pair i _).mpr (hpairs pair hpair hin)
  exact
    { toolkit := fun ind => (ind.value_agree htake hlen hi (hf.upTo _) hf).last
      columns := hcolumns
      executionSignal := e.generate_eq htake hlen hi hcolumns letters instrument
      spreads := hspreads
      pairsSignal := q.generate_cutAt hchron hi hspreads }

/-- What a row says does not depend on later rows where they leave the spacing test
and the pairs as they are and no later row is in an earlier signal period; the first
two are needed. -/
theorem readsNoLaterRow_settled
    (hdata : ∀ symbol f, data.get? symbol = some f → f.Chronological)
    (hi : i < (data.getD instrument []).length) :
    (SpacingSettled e (data.getD instrument []) i ∧
        (e.ExecOk (data.getD instrument []) →
          Indicators.NoneEarlier e.signalPeriod (data.getD instrument []) i) ∧
        PairsSettled data instrument i →
      ReadsNoLaterRow e q letters data instrument i) ∧
    (ReadsNoLaterRow e q letters data instrument i →
      SpacingSettled e (data.getD instrument []) i ∧ PairsSettled data instrument i) := by
  constructor
  · rintro ⟨hspacing, hperiods, hpairs⟩
    exact readsNoLaterRow_of_settled e q letters hdata hi hspacing hperiods hpairs
  · intro h
    refine ⟨e.execOk_iff_of_indicators_eq h.columns, ?_⟩
    intro pair hpair hin
    exact (q.spreadAt_cutAt_iff (chronological_getD hdata) pair i _).mp (h.spreads pair hpair hin)

end

/-! ## Two feeds -/

def flatBars (minutes : List ℤ) : Frame (Option ℚ) :=
  minutes.map fun minute =>
    { openPrice := some 1, high := some 1, low := some 1, close := some 1
      tsNs := (28401120 + minute) * minuteNs, volume := some 0 }

def evenData : Dict String (Frame (Option ℚ)) :=
  .ofEntries
    [("EUR_USD", flatBars ((List.range 12).map fun k => 15 * (k : ℤ))),
      ("GBP_USD", flatBars ((List.range 12).map fun k => 15 * (k : ℤ)))]

def mixedData : Dict String (Frame (Option ℚ)) :=
  .ofEntries [("EUR_USD", flatBars [0, 30, 60, 75, 90, 105, 120])]

theorem evenData_chronological (symbol : String) (f : Frame (Option ℚ))
    (h : evenData.get? symbol = some f) : f.Chronological := by
  have hitems : (symbol, f) ∈ evenData.items := (Dict.mem_items_iff evenData symbol f).mpr h
  have hall : ∀ kv ∈ evenData.items, kv.2.Pairwise fun r r' => r.tsNs < r'.tsNs := by
    decide +kernel
  exact hall _ hitems

theorem readsNoLaterRow_settled_evenData :
    ReadsNoLaterRow (F := Option ℚ) {} {} Letters.ascii evenData "EUR_USD" 10 := by
  have hi : 10 < (evenData.getD "EUR_USD" []).length := by decide +kernel
  refine (readsNoLaterRow_settled {} {} Letters.ascii evenData_chronological hi).1 ⟨?_, ?_, ?_⟩
  · unfold SpacingSettled
    decide +kernel
  · intro _
    refine Indicators.noneEarlier_of_monotone (chronological_getD evenData_chronological _) ?_ _
    exact ExecutionSignals.Params.monotone_signalPeriod _ (Or.inr ⟨1, rfl, by decide⟩)
  · unfold PairsSettled PairsSpread.HasRow
    decide +kernel

theorem mixedData_reads_later :
    ¬ ReadsNoLaterRow (F := Option ℚ) {} {} Letters.ascii mixedData "EUR_USD" 2 := by
  intro h
  have hspacing := ExecutionSignals.Params.execOk_iff_of_indicators_eq _ h.columns
  revert hspacing
  decide +kernel

end Sentinel
