import Mathlib.Data.Int.ConditionallyCompleteOrder
import Sentinel.Strategy.Indicators

/-!
# The indicators read no later row

A column of a frame and everything the toolkit makes of columns, to any depth,
has the same value at a row in every two chronological histories that have the
same rows up to it.
-/

namespace Sentinel

open Float64 Causal Series

variable {F : Type} [Float64 F]

/-! ## Chronological frames -/

/-- The bars of a history come one after the other. -/
def Frame.Chronological {G : Type} (f : Frame G) : Prop := f.Pairwise fun r r' => r.tsNs < r'.tsNs

def Frame.upTo {G : Type} (f : Frame G) (tsNs : ℤ) : Frame G := f.filter fun r => r.tsNs ≤ tsNs

namespace Frame.Chronological

variable {G : Type} {f : Frame G} (hf : f.Chronological)
include hf

theorem upTo (tsNs : ℤ) : (f.upTo tsNs).Chronological := hf.filter _

theorem upTo_initial (tsNs : ℤ) : f.upTo tsNs <+: f := by
  rw [Frame.upTo]
  induction f with
  | nil => exact List.nil_prefix
  | cons r f ih =>
    obtain ⟨hfirst, hrest⟩ := List.pairwise_cons.mp hf
    by_cases hle : r.tsNs ≤ tsNs
    · rw [List.filter_cons_of_pos (by simpa using hle)]
      exact (List.prefix_cons_inj r).mpr (ih hrest)
    · have hnone : (r :: f).filter (fun r => r.tsNs ≤ tsNs) = [] := by
        rw [List.filter_eq_nil_iff]
        intro x hx
        rw [decide_eq_true_iff]
        rcases List.mem_cons.mp hx with rfl | hx
        · exact hle
        · have hlater := hfirst x hx
          omega
      rw [hnone]
      exact List.nil_prefix

theorem upTo_stamps {i : ℕ} (hi : i < f.length) : f.upTo (f.stamps i) = f.take (i + 1) := by
  have hstamp : f.stamps i = f[i].tsNs := by simp [Frame.stamps, rows, hi]
  have hpair := List.pairwise_iff_getElem.mp hf
  have htake : (f.take (i + 1)).filter (fun r => r.tsNs ≤ f[i].tsNs) = f.take (i + 1) := by
    rw [List.filter_eq_self]
    intro r hr
    obtain ⟨j, hj, rfl⟩ := List.mem_take_iff_getElem.mp hr
    rw [decide_eq_true_iff]
    rcases Nat.lt_or_ge j i with hlt | hge
    · exact (hpair j i _ hi hlt).le
    · have heq : j = i := by omega
      simp only [heq, le_refl]
  have hdrop : (f.drop (i + 1)).filter (fun r => r.tsNs ≤ f[i].tsNs) = [] := by
    rw [List.filter_eq_nil_iff]
    intro r hr
    obtain ⟨j, hj, rfl⟩ := List.mem_drop_iff_getElem.mp hr
    have hlater := hpair i (i + 1 + j) hi (by omega) (by omega)
    rw [decide_eq_true_iff]
    omega
  calc
    f.upTo (f.stamps i) =
        (f.take (i + 1) ++ f.drop (i + 1)).filter fun r => r.tsNs ≤ f[i].tsNs := by
      rw [Frame.upTo, hstamp, List.take_append_drop]
    _ = f.take (i + 1) := by
      rw [List.filter_append, htake, hdrop, List.append_nil]

end Frame.Chronological

def Frame.column (f : Frame F) (value : FrameRow F → F) : ℕ → F := rows (f.map value) nan

theorem Frame.column_agree {f g : Frame F} {i : ℕ} (h : f.take (i + 1) = g.take (i + 1))
    (value : FrameRow F → F) : AgreeTo i (f.column value) (g.column value) := by
  apply agreeTo_rows
  rw [← List.map_take, h, List.map_take]

namespace Indicators

/-! ## One indicator after the other -/

section Bars

variable {i : ℕ} {bars bars' : ℕ → Ohlc F} {s t : ℕ → F}

theorem wilder_agree (h : AgreeTo i s t) (window : ℕ) :
    AgreeTo i (wilder window s) (wilder window t) :=
  ewm_agree h _ _

theorem ema_agree (h : AgreeTo i s t) (span : ℕ) : AgreeTo i (ema s span) (ema t span) :=
  ewm_agree h _ _

theorem rsi_agree (h : AgreeTo i s t) (window : ℕ) :
    AgreeTo i (rsi s window) (rsi t window) := by
  have hdiff := diff_agree h
  have hgain := wilder_agree (hdiff.map clipBelow) window
  have hloss := wilder_agree (hdiff.map fun x => -clipAbove x) window
  exact hgain.map₂ hloss rsiOf

theorem donchianUpper_agree (h : AgreeTo i bars bars') (window : ℕ) :
    AgreeTo i (donchianUpper bars window) (donchianUpper bars' window) :=
  shift_agree (rolling_agree (h.map fun b => b.high) window largest) 1

theorem donchianLower_agree (h : AgreeTo i bars bars') (window : ℕ) :
    AgreeTo i (donchianLower bars window) (donchianLower bars' window) :=
  shift_agree (rolling_agree (h.map fun b => b.low) window smallest) 1

theorem zscore_agree (h : AgreeTo i s t) (window : ℕ) :
    AgreeTo i (zscore s window) (zscore t window) := by
  have hdeviation := h.map₂ (rolling_agree h window mean) (· - ·)
  exact hdeviation.map₂ ((rolling_agree h window std).map zeroToNan) (· / ·)

theorem plusDm_agree (h : AgreeTo i bars bars') : AgreeTo i (plusDm bars) (plusDm bars') := by
  have hup := diff_agree (h.map fun b => b.high)
  have hlow := diff_agree (h.map fun b => b.low)
  intro j hj
  simp only [plusDm, hup j hj, hlow j hj]

theorem minusDm_agree (h : AgreeTo i bars bars') : AgreeTo i (minusDm bars) (minusDm bars') := by
  have hup := diff_agree (h.map fun b => b.high)
  have hlow := diff_agree (h.map fun b => b.low)
  intro j hj
  simp only [minusDm, hup j hj, hlow j hj]

theorem directional_agree (h : AgreeTo i bars bars') (window : ℕ) (hdm : AgreeTo i s t) :
    AgreeTo i (directional bars window s) (directional bars' window t) := by
  have hrange := (atr_agree h window).map zeroToNan
  exact ((wilder_agree hdm window).map (ofRat 100 * ·)).map₂ hrange (· / ·)

theorem adx_agree (h : AgreeTo i bars bars') (window : ℕ) :
    AgreeTo i (adx bars window) (adx bars' window) := by
  have hplus := directional_agree h window (plusDm_agree h)
  have hminus := directional_agree h window (minusDm_agree h)
  apply wilder_agree
  intro j hj
  simp only [dx, hplus j hj, hminus j hj]

theorem realisedVol_agree (h : AgreeTo i s t) (window : ℕ) :
    AgreeTo i (realisedVol s window) (realisedVol t window) :=
  rolling_agree (diff_agree (h.map log)) window std

theorem bollinger_agree (b : Band) (h : AgreeTo i s t) (window : ℕ) (k : F) :
    AgreeTo i (bollinger b s window k) (bollinger b t window k) :=
  (rolling_agree h window mean).map₂ (rolling_agree h window std) fun mid sd => b.line mid sd k

theorem keltner_agree (b : Band) (h : AgreeTo i bars bars') (window atrWindow : ℕ) (k : F) :
    AgreeTo i (keltner b bars window atrWindow k) (keltner b bars' window atrWindow k) :=
  (ema_agree (h.map fun b => b.close) window).map₂ (atr_agree h atrWindow) fun mid range =>
    b.line mid range k

theorem squeezeRatio_agree (h : AgreeTo i bars bars') (window atrWindow : ℕ) (bbK kcK : F) :
    AgreeTo i (squeezeRatio bars window atrWindow bbK kcK)
      (squeezeRatio bars' window atrWindow bbK kcK) := by
  have hclose := h.map fun b => b.close
  have hband := fun b => bollinger_agree b hclose window bbK
  have hchannel := fun b => keltner_agree b h window atrWindow kcK
  intro j hj
  simp only [squeezeRatio, hband .upper j hj, hband .lower j hj, hchannel .upper j hj,
    hchannel .lower j hj]

theorem smoothing_agree (h : AgreeTo i s t) (erWindow : ℕ) (fast slow : ℚ) :
    AgreeTo i (smoothing s erWindow fast slow) (smoothing t erWindow fast slow) := by
  have hchange : AgreeTo i (absChange s) (absChange t) := by
    intro j hj
    rw [absChange, absChange, h j hj, h (j - 1) ((Nat.sub_le j 1).trans hj)]
  have hvolatility := rolling_agree hchange erWindow total
  intro j hj
  simp only [smoothing, hvolatility j hj, h j hj, h (j - erWindow) ((Nat.sub_le j _).trans hj)]

theorem kamaFrom_agree (h : AgreeTo i s t) (erWindow : ℕ) (fast slow : ℚ) {k : ℕ}
    (hk : erWindow + k ≤ i) :
    kamaFrom s erWindow fast slow k = kamaFrom t erWindow fast slow k := by
  induction k with
  | zero => exact h erWindow hk
  | succ k ih =>
    simp only [kamaFrom]
    rw [ih (by omega), h _ hk, smoothing_agree h erWindow fast slow _ hk]

theorem kama_agree (h : AgreeTo i s t) {n m : ℕ} (hn : i < n) (hm : i < m) (erWindow : ℕ)
    (fast slow : ℚ) : AgreeTo i (kama n s erWindow fast slow) (kama m t erWindow fast slow) := by
  intro j hj
  rw [kama, kama]
  by_cases hbefore : j < erWindow
  · rw [if_pos hbefore, if_pos hbefore, ite_self, ite_self]
  · rw [if_neg hbefore, if_neg hbefore, if_neg (by omega), if_neg (by omega)]
    exact kamaFrom_agree h erWindow fast slow (by omega)

theorem supertrend_agree (h : AgreeTo i bars bars') (atrWindow : ℕ) (multiplier : F) :
    AgreeTo i (supertrend bars atrWindow multiplier) (supertrend bars' atrWindow multiplier) :=
  (h.map₂ (atr_agree h atrWindow) Prod.mk).scan _ _

theorem midChannel_agree (h : AgreeTo i bars bars') (window : ℕ) :
    AgreeTo i (midChannel bars window) (midChannel bars' window) :=
  (rolling_agree (h.map fun b => b.high) window largest).map₂
    (rolling_agree (h.map fun b => b.low) window smallest) fun high low => (high + low) / ofRat 2

theorem ichimoku_agree (h : AgreeTo i bars bars') (tenkan kijun senkouB displacement : ℕ)
    (line : CloudLine) :
    AgreeTo i (ichimoku bars tenkan kijun senkouB displacement line)
      (ichimoku bars' tenkan kijun senkouB displacement line) := by
  have hconv := midChannel_agree h tenkan
  have hbase := midChannel_agree h kijun
  have hspanA := shift_agree (hconv.map₂ hbase fun x y => (x + y) / ofRat 2) displacement
  have hspanB := shift_agree (midChannel_agree h senkouB) displacement
  intro j hj
  rcases line with _ | _ | _ | _ | _ | _
  · exact hconv j hj
  · exact hbase j hj
  · exact hspanA j hj
  · exact hspanB j hj
  · exact hspanA.map₂ hspanB larger j hj
  · exact hspanA.map₂ hspanB smaller j hj

theorem rollingPair_agree {u v : ℕ → F} (h : AgreeTo i s t) (h' : AgreeTo i u v) (window : ℕ) :
    AgreeTo i (rollingPair window s u) (rollingPair window t v) := by
  intro j hj
  rw [rollingPair, rollingPair, h.trailing window j hj, h'.trailing window j hj]

theorem pctChange_agree (h : AgreeTo i s t) : AgreeTo i (pctChange s) (pctChange t) :=
  h.map₂ (shift_agree h 1) fun x prev => x / prev - ofRat 1

theorem insideBar_agree (h : AgreeTo i bars bars') :
    AgreeTo i (insideBar bars) (insideBar bars') := by
  have hhigh := shift_agree (h.map fun b => b.high) 1
  have hlow := shift_agree (h.map fun b => b.low) 1
  intro j hj
  rw [insideBar, insideBar, h j hj, hhigh j hj, hlow j hj]

theorem engulfing_agree (h : AgreeTo i bars bars') :
    AgreeTo i (engulfing bars) (engulfing bars') := by
  have hopen := shift_agree (h.map fun b => b.openPrice) 1
  have hclose := shift_agree (h.map fun b => b.close) 1
  intro j hj
  simp only [engulfing, h j hj, hopen j hj, hclose j hj]

end Bars

/-! ## Groups of a frame -/

section Groups

variable {G : Type} {f g : Frame G} {i : ℕ} {key : ℤ → ℤ}

/-- No row after `i` is in the group of an earlier key than a row up to `i`. -/
def NoneEarlier (key : ℤ → ℤ) (f : Frame G) (i : ℕ) : Prop :=
  ∀ later ∈ f.drop (i + 1), ∀ r ∈ f.take (i + 1), key r.tsNs ≤ key later.tsNs

theorem noneEarlier_of_monotone (hf : f.Chronological)
    (hkey : Monotone key) (i : ℕ) : NoneEarlier key f i := by
  intro later hlater r hr
  rw [Frame.Chronological, ← List.take_append_drop (i + 1) f, List.pairwise_append] at hf
  exact hkey (hf.2.2 r hr later hlater).le

theorem exists_stamps {j : ℕ} (hj : j < f.length) (hi : j ≤ i) :
    ∃ r ∈ f.take (i + 1), f.stamps j = r.tsNs := by
  refine ⟨f[j], ?_, ?_⟩
  · rw [List.mem_take_iff_getElem]
    exact ⟨j, by omega, rfl⟩
  · simp [Frame.stamps, rows, hj]

theorem mem_keys_iff_of_noneEarlier (h : f.take (i + 1) = g.take (i + 1))
    (hf : NoneEarlier key f i) (hg : NoneEarlier key g i) {r : FrameRow G}
    (hr : r ∈ f.take (i + 1)) (x : ℤ) (hx : x ≤ key r.tsNs) :
    x ∈ f.map (fun r => key r.tsNs) ↔ x ∈ g.map (fun r => key r.tsNs) := by
  have hone : ∀ {f g : Frame G}, f.take (i + 1) = g.take (i + 1) → NoneEarlier key f i →
      r ∈ f.take (i + 1) → x ∈ f.map (fun r => key r.tsNs) →
        x ∈ g.map (fun r => key r.tsNs) := by
    intro f g h hf hr hmem
    obtain ⟨r', hr', rfl⟩ := List.mem_map.mp hmem
    rw [← List.take_append_drop (i + 1) f, List.mem_append] at hr'
    rcases hr' with hup | hlater
    · rw [h] at hup
      exact List.mem_map_of_mem (List.mem_of_mem_take hup)
    · have hsame : key r'.tsNs = key r.tsNs := le_antisymm hx (hf r' hlater r hr)
      rw [h] at hr
      rw [hsame]
      exact List.mem_map_of_mem (List.mem_of_mem_take hr)
  exact ⟨hone h hf hr, hone h.symm hg (h ▸ hr)⟩

theorem group_eq_of_lt (h : f.take (i + 1) = g.take (i + 1)) (hf : NoneEarlier key f i)
    (hg : NoneEarlier key g i) {r : FrameRow G} (hr : r ∈ f.take (i + 1)) {x : ℤ}
    (hx : x < key r.tsNs) :
    f.filter (fun r => key r.tsNs = x) = g.filter (fun r => key r.tsNs = x) := by
  apply filter_eq_of_take h
  · intro later hlater
    have hle := hf later hlater r hr
    exact decide_eq_false (by omega)
  · intro later hlater
    have hle := hg later hlater r (h ▸ hr)
    exact decide_eq_false (by omega)

theorem previousKey_lt {keys : List ℤ} {k x : ℤ} (hk : k ∈ keys)
    (h : previousKey keys k = some x) : x < k := by
  have hmem := mem_sortedKeys.mpr hk
  have hlt := List.idxOf_lt_length_of_mem hmem
  rw [previousKey] at h
  split at h
  · cases h
  · rename_i n hn
    have hpair := (sortedKeys_sortedLT keys).pairwise
    have hidx : (sortedKeys keys)[(sortedKeys keys).idxOf k] = k := List.getElem_idxOf hlt
    obtain ⟨hbound, rfl⟩ := List.getElem?_eq_some_iff.mp h
    have hless := List.pairwise_iff_getElem.mp hpair n _ hbound hlt (by omega)
    rwa [hidx] at hless

theorem previousKey_congr {keys keys' : List ℤ} {k : ℤ} (hk : k ∈ keys)
    (h : ∀ x ≤ k, x ∈ keys ↔ x ∈ keys') : previousKey keys k = previousKey keys' k := by
  obtain ⟨hidx, htake⟩ := idxOf_sortedKeys_congr h hk
  rw [previousKey, previousKey]
  rw [← hidx]
  rcases hn : (sortedKeys keys).idxOf k with _ | n
  · rfl
  · rw [hn] at htake
    simp only
    rw [← List.getElem?_take_of_lt (show n < n + 1 + 1 by omega), htake,
      List.getElem?_take_of_lt (by omega)]

theorem previousExtreme_agree {f g : Frame F} (h : f.take (i + 1) = g.take (i + 1))
    (hi : i < f.length) (hf : NoneEarlier key f i) (hg : NoneEarlier key g i)
    (value : Ohlc F → F) (pick : List F → F) :
    AgreeTo i (previousExtreme key f value pick) (previousExtreme key g value pick) := by
  intro j hj
  obtain ⟨r, hr, hstamp⟩ := exists_stamps (show j < f.length by omega) hj
  have hin : key r.tsNs ∈ f.map fun r => key r.tsNs :=
    List.mem_map_of_mem (List.mem_of_mem_take hr)
  rw [previousExtreme, previousExtreme, ← Frame.stamps_agree h j hj, hstamp,
    ← previousKey_congr hin (mem_keys_iff_of_noneEarlier h hf hg hr)]
  rcases hprevious : previousKey (f.map fun r => key r.tsNs) (key r.tsNs) with _ | x
  · rw [hprevious]
  · rw [hprevious]
    simp only
    rw [groupExtreme, groupExtreme, group_eq_of_lt h hf hg hr (previousKey_lt hin hprevious)]

theorem monotone_dayOf : Monotone dayOf := fun _ _ h =>
  Int.ediv_le_ediv (by decide) h

end Groups

/-! ## Sessions -/

theorem rangeKey_agree {i : ℕ} {stamps stamps' : ℕ → ℤ} (h : AgreeTo i stamps stamps')
    (session : Option SessionName) :
    AgreeTo i (rangeKey session stamps) (rangeKey session stamps') := by
  intro j hj
  unfold rangeKey
  rw [h j hj]

theorem rangeSide_agree {i : ℕ} {key key' : ℕ → RangeKey} {s t : ℕ → F}
    (hkey : AgreeTo i key key') (h : AgreeTo i s t) (bars : ℕ) (pick : F → F → F) :
    AgreeTo i (rangeSide key bars pick s) (rangeSide key' bars pick t) := by
  have hin := (cumCount_agree hkey).map₂ h fun pos x => if pos < bars then x else nan
  exact forwardFill_agree hkey (cumExtreme_agree hkey hin pick)

theorem openingRange_agree {i : ℕ} {df df' : ℕ → Ohlc F} {stamps stamps' : ℕ → ℤ}
    (h : AgreeTo i df df') (hstamps : AgreeTo i stamps stamps') (line : RangeLine) (bars : ℕ)
    (session : Option SessionName) :
    AgreeTo i (openingRange line df stamps bars session)
      (openingRange line df' stamps' bars session) := by
  have hkey := rangeKey_agree hstamps session
  have hhigh := rangeSide_agree hkey (h.map fun b => b.high) bars larger
  have hlow := rangeSide_agree hkey (h.map fun b => b.low) bars smaller
  intro j hj
  unfold openingRange
  simp only [hstamps j hj, hhigh j hj, hlow j hj, cumCount_agree hkey j hj]

/-! ## Rows that two series share -/

theorem joinedRows_split {n i : ℕ} (h : i < n) (a b : ℕ → F) :
    ∃ rest, joinedRows n a b = joinedRows (i + 1) a b ++ rest := by
  obtain ⟨k, rfl⟩ := Nat.exists_eq_add_of_le (Nat.succ_le_of_lt h)
  rw [joinedRows, List.range_add, List.filter_append]
  exact ⟨_, rfl⟩

theorem joinedRows_congr {i : ℕ} {a a' b b' : ℕ → F} (ha : AgreeTo i a a')
    (hb : AgreeTo i b b') : joinedRows (i + 1) a b = joinedRows (i + 1) a' b' := by
  apply List.filter_congr
  intro j hj
  have hle : j ≤ i := Nat.le_of_lt_succ (List.mem_range.mp hj)
  rw [ha j hle, hb j hle]

theorem le_of_mem_joinedRows {n j : ℕ} {a b : ℕ → F} (h : j ∈ joinedRows n a b) : j < n :=
  List.mem_range.mp (List.mem_filter.mp h).1

theorem mem_joinedRows_iff {n j : ℕ} (h : j < n) (a b : ℕ → F) :
    j ∈ joinedRows n a b ↔ (!isNan (a j) && !isNan (b j)) = true := by
  rw [joinedRows, List.mem_filter, List.mem_range]
  exact and_iff_right h

theorem rollingCorr_agree {i n m : ℕ} {a a' b b' : ℕ → F} (ha : AgreeTo i a a')
    (hb : AgreeTo i b b') (hn : i < n) (hm : i < m) (window : ℕ) :
    AgreeTo i (rollingCorr n a b window) (rollingCorr m a' b' window) := by
  obtain ⟨rest, hrest⟩ := joinedRows_split hn a b
  obtain ⟨rest', hrest'⟩ := joinedRows_split hm a' b'
  rw [← joinedRows_congr ha hb] at hrest'
  obtain ⟨first, hfirst⟩ : ∃ first, first = joinedRows (i + 1) a b := ⟨_, rfl⟩
  rw [← hfirst] at hrest hrest'
  intro j hj
  have hin : j ∈ joinedRows n a b ↔ j ∈ joinedRows m a' b' := by
    rw [mem_joinedRows_iff (by omega), mem_joinedRows_iff (by omega), ha j hj, hb j hj]
  rw [rollingCorr, rollingCorr]
  simp only [hin]
  split_ifs with hmem
  · have hj' : j ∈ first := by
      rw [hfirst, mem_joinedRows_iff (by omega), ha j hj, hb j hj]
      exact (mem_joinedRows_iff (by omega) a' b').mp hmem
    have hidx := List.idxOf_lt_length_of_mem hj'
    have hat : ∀ k ≤ first.idxOf j, rows (joinedRows n a b) 0 k ≤ i ∧
        rows (joinedRows m a' b') 0 k = rows (joinedRows n a b) 0 k := by
      intro k hk
      have hlt : k < first.length := by omega
      rw [hrest, hrest', rows, rows, List.getElem?_append_left hlt, List.getElem?_append_left hlt,
        List.getElem?_eq_getElem hlt]
      have hmemFirst : first[k] ∈ joinedRows (i + 1) a b := hfirst ▸ List.getElem_mem hlt
      exact ⟨Nat.le_of_lt_succ (le_of_mem_joinedRows hmemFirst), rfl⟩
    have hreads : ∀ {u v : ℕ → F}, AgreeTo i u v →
        AgreeTo (first.idxOf j) (fun k => u (rows (joinedRows n a b) 0 k))
          (fun k => v (rows (joinedRows m a' b') 0 k)) := by
      intro u v huv k hk
      simp only
      rw [(hat k hk).2, huv _ (hat k hk).1]
    have hpairs := rollingPair_agree (pctChange_agree (hreads ha)) (pctChange_agree (hreads hb))
      window
    rw [hrest, hrest', List.idxOf_append_of_mem hj', List.idxOf_append_of_mem hj', ← hrest,
      ← hrest']
    exact hpairs.last
  · rfl

end Indicators

/-! ## The toolkit -/

inductive Indicator (F : Type) where
  | column (value : FrameRow F → F)
  | sma (series : Indicator F) (window : ℕ)
  | ema (series : Indicator F) (span : ℕ)
  | rsi (series : Indicator F) (window : ℕ)
  | zscore (series : Indicator F) (window : ℕ)
  | realisedVol (series : Indicator F) (window : ℕ)
  | bollinger (line : Indicators.Band) (series : Indicator F) (window : ℕ) (k : F)
  | kama (series : Indicator F) (erWindow : ℕ) (fast slow : ℚ)
  | rollingPercentile (series : Indicator F) (window : ℕ)
  | rollingCorr (a b : Indicator F) (window : ℕ)
  | atr (window : ℕ)
  | adx (window : ℕ)
  | donchianUpper (window : ℕ)
  | donchianLower (window : ℕ)
  | keltner (line : Indicators.Band) (window atrWindow : ℕ) (k : F)
  | squeezeRatio (window atrWindow : ℕ) (bbK kcK : F)
  | supertrendLine (atrWindow : ℕ) (multiplier : F)
  | supertrendDirection (atrWindow : ℕ) (multiplier : F)
  | ichimoku (tenkan kijun senkouB displacement : ℕ) (line : Indicators.CloudLine)
  | previousDayHigh
  | previousDayLow
  | openingRange (line : Indicators.RangeLine) (bars : ℕ)
      (session : Option Indicators.SessionName)
  | insideBar
  | engulfing

namespace Indicator

def value (f : Frame F) : Indicator F → ℕ → F
  | .column value => f.column value
  | .sma series window => Indicators.sma (series.value f) window
  | .ema series span => Indicators.ema (series.value f) span
  | .rsi series window => Indicators.rsi (series.value f) window
  | .zscore series window => Indicators.zscore (series.value f) window
  | .realisedVol series window => Indicators.realisedVol (series.value f) window
  | .bollinger line series window k => Indicators.bollinger line (series.value f) window k
  | .kama series erWindow fast slow =>
      Indicators.kama f.length (series.value f) erWindow fast slow
  | .rollingPercentile series window => Indicators.rollingPercentile (series.value f) window
  | .rollingCorr a b window => Indicators.rollingCorr f.length (a.value f) (b.value f) window
  | .atr window => Indicators.atr f.bars window
  | .adx window => Indicators.adx f.bars window
  | .donchianUpper window => Indicators.donchianUpper f.bars window
  | .donchianLower window => Indicators.donchianLower f.bars window
  | .keltner line window atrWindow k => Indicators.keltner line f.bars window atrWindow k
  | .squeezeRatio window atrWindow bbK kcK =>
      Indicators.squeezeRatio f.bars window atrWindow bbK kcK
  | .supertrendLine atrWindow multiplier => fun i =>
      (Indicators.supertrend f.bars atrWindow multiplier i).line
  | .supertrendDirection atrWindow multiplier => fun i =>
      (Indicators.supertrend f.bars atrWindow multiplier i).direction
  | .ichimoku tenkan kijun senkouB displacement line =>
      Indicators.ichimoku f.bars tenkan kijun senkouB displacement line
  | .previousDayHigh => Indicators.previousDayHigh f
  | .previousDayLow => Indicators.previousDayLow f
  | .openingRange line bars session =>
      Indicators.openingRange line f.bars f.stamps bars session
  | .insideBar => fun i => ofRat (if Indicators.insideBar f.bars i then 1 else 0)
  | .engulfing => Indicators.engulfing f.bars

theorem value_agree {f g : Frame F} {i : ℕ} (h : f.take (i + 1) = g.take (i + 1))
    (hi : i < f.length) (hi' : i < g.length) (hf : f.Chronological) (hg : g.Chronological)
    (ind : Indicator F) : AgreeTo i (ind.value f) (ind.value g) := by
  have hbars := Frame.bars_agree h
  have hdays := Indicators.noneEarlier_of_monotone hf Indicators.monotone_dayOf i
  have hdays' := Indicators.noneEarlier_of_monotone hg Indicators.monotone_dayOf i
  induction ind with
  | column value => exact Frame.column_agree h value
  | sma series window ih => exact rolling_agree ih window mean
  | ema series span ih => exact Indicators.ema_agree ih span
  | rsi series window ih => exact Indicators.rsi_agree ih window
  | zscore series window ih => exact Indicators.zscore_agree ih window
  | realisedVol series window ih => exact Indicators.realisedVol_agree ih window
  | bollinger line series window k ih => exact Indicators.bollinger_agree line ih window k
  | kama series erWindow fast slow ih => exact Indicators.kama_agree ih hi hi' erWindow fast slow
  | rollingPercentile series window ih => exact rolling_agree ih window rankPct
  | rollingCorr a b window iha ihb => exact Indicators.rollingCorr_agree iha ihb hi hi' window
  | atr window => exact Indicators.atr_agree hbars window
  | adx window => exact Indicators.adx_agree hbars window
  | donchianUpper window => exact Indicators.donchianUpper_agree hbars window
  | donchianLower window => exact Indicators.donchianLower_agree hbars window
  | keltner line window atrWindow k =>
      exact Indicators.keltner_agree line hbars window atrWindow k
  | squeezeRatio window atrWindow bbK kcK =>
      exact Indicators.squeezeRatio_agree hbars window atrWindow bbK kcK
  | supertrendLine atrWindow multiplier =>
      exact (Indicators.supertrend_agree hbars atrWindow multiplier).map fun t => t.line
  | supertrendDirection atrWindow multiplier =>
      exact (Indicators.supertrend_agree hbars atrWindow multiplier).map fun t => t.direction
  | ichimoku tenkan kijun senkouB displacement line =>
      exact Indicators.ichimoku_agree hbars tenkan kijun senkouB displacement line
  | previousDayHigh => exact Indicators.previousExtreme_agree h hi hdays hdays' _ _
  | previousDayLow => exact Indicators.previousExtreme_agree h hi hdays hdays' _ _
  | openingRange line bars session =>
      exact Indicators.openingRange_agree hbars (Frame.stamps_agree h) line bars session
  | insideBar =>
      exact (Indicators.insideBar_agree hbars).map fun b => ofRat (if b then 1 else 0)
  | engulfing => exact Indicators.engulfing_agree hbars

end Indicator

end Sentinel
