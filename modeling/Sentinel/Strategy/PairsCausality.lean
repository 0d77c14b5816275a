import Sentinel.Research.Alignment
import Sentinel.Strategy.ExecutionSignals

/-!
# What the pair spreads read of later rows

A row of a pair reads the rows of both instruments up to its instant.  A pair
whose history is cut at an instant may be too short for a table, or may have no
row of the number that is asked for.

The reversion of the spread between two instruments.  The table of a pair is
made once, on the rows of its first instrument; a row of an instrument reads the
tables of its pairs at its own number.
-/

namespace Sentinel

open Float64 Causal Series

variable {F : Type} [Float64 F]

namespace PairsSpread

structure Params where
  spreadWindow : ℕ := 60
  corrWindow : ℕ := 120
  minCorr : ℚ := 55 / 100
  zEntry : ℚ := 2
  atrWindow : ℕ := 20
  stopAtr : ℚ := 2
  targetAtr : ℚ := 14 / 5
  minUniverse : ℕ := 2

structure Spread (F : Type) where
  z : F
  corr : F

structure PairTable (F : Type) where
  first : String
  second : String
  length : ℕ
  row : ℕ → Spread F

def columnOn (other f : Frame F) (value : FrameRow F → F) : ℕ → F :=
  rows (f.map fun r => ((other.rowAt r.tsNs).map value).getD nan) nan

def symbolPairs (data : Dict String (Frame F)) : List (String × String) :=
  pairs (data.keys.insertionSort (· ≤ ·))

namespace Params

variable (p : Params)

def spreadRow (da db : Frame F) (i : ℕ) : Spread F :=
  let la := da.column fun r => log r.close
  let lb := columnOn db da fun r => log r.close
  { z := Indicators.zscore (fun j => la j - lb j) p.spreadWindow i
    corr := Indicators.rollingCorr da.length (da.column fun r => r.close)
      (columnOn db da fun r => r.close) p.corrWindow i }

def pairTable (data : Dict String (Frame F)) (pair : String × String) : Option (PairTable F) :=
  let da := data.getD pair.1 []
  let db := data.getD pair.2 []
  if da.length < 10 ∨ db.length < 10 then none
  else
    some
      { first := pair.1
        second := pair.2
        length := da.length
        row := p.spreadRow da db }

def prepare (data : Dict String (Frame F)) : List (PairTable F) :=
  (symbolPairs data).filterMap (p.pairTable data)

end Params

/-! ## The partner -/

structure Partner (F : Type) where
  other : String
  corr : F
  z : F

def consider (instrument : String) (i : ℕ) (best : Option (Partner F)) (table : PairTable F) :
    Option (Partner F) :=
  if (instrument ≠ table.first ∧ instrument ≠ table.second) ∨ table.length ≤ i then best
  else
    let row := table.row i
    if !isFinite row.corr || !isFinite row.z then best
    else
      let found : Partner F :=
        { other := if instrument = table.first then table.second else table.first
          corr := row.corr
          z := if instrument = table.first then row.z else -row.z }
      match best with
      | none => some found
      | some b => if lt (Float64.abs b.corr) (Float64.abs found.corr) then some found else best

def partner (tables : List (PairTable F)) (instrument : String) (i : ℕ) : Option (Partner F) :=
  tables.foldl (consider instrument i) none

/-! ## The signal -/

namespace Params

variable (p : Params)

def signalOf (instrument : String) (f : Frame F) (i : ℕ) (found : Partner F) :
    Option (StrategySignal F) :=
  if lt (Float64.abs found.corr) (ofRat p.minCorr) || lt (Float64.abs found.z) (ofRat p.zEntry) then
    none
  else
    let a := Indicators.atr f.bars p.atrWindow i
    if !usablePrice a then none
    else
      let excess := Float64.abs found.z - ofRat p.zEntry + ofRat 1
      atrSignal
        { strategy := "pairs_spread"
          instrument
          side := if lt (ofRat 0) found.z then .sell else .buy
          strength := pyMin (ofRat 1) (ofRat (35 / 100) + ofRat (15 / 100) * excess)
          horizonBars := 24
          timeframe := "H4"
          features := [("spread_z", found.z), ("partner_corr", found.corr), ("atr", a)] }
        (f.bars i).close a (ofRat p.stopAtr) (ofRat p.targetAtr)

/-- `generate` after `prepare`, at a row of the instrument's frame. -/
def generate (data : Dict String (Frame F)) (instrument : String) (i : ℕ) :
    Option (StrategySignal F) :=
  let tables := p.prepare data
  if data.keys.length < p.minUniverse then none
  else if i < max p.spreadWindow p.corrWindow + 5 then none
  else if tables.isEmpty then none
  else
    (partner tables instrument i).bind (p.signalOf instrument (data.getD instrument []) i)

end Params

end PairsSpread

end Sentinel

namespace Sentinel

open Float64 Causal Series

variable {F : Type} [Float64 F]

theorem Frame.rowAt_upTo {G : Type} (f : Frame G) {tsNs cut : ℤ} (h : tsNs ≤ cut) :
    (f.upTo cut).rowAt tsNs = f.rowAt tsNs := by
  rw [Frame.rowAt, Frame.rowAt, Frame.upTo, List.find?_filter]
  congr 1
  funext r
  by_cases hr : r.tsNs = tsNs
  · simp [hr, h]
  · simp [hr]

theorem Frame.le_of_mem_upTo {G : Type} {f : Frame G} {r : FrameRow G} {cut : ℤ}
    (h : r ∈ f.upTo cut) : r.tsNs ≤ cut :=
  of_decide_eq_true (List.mem_filter.mp h).2

namespace PairsSpread

def cutAt (data : Dict String (Frame F)) (cut : ℤ) : Dict String (Frame F) :=
  data.mapValues fun f => f.upTo cut

omit [Float64 F] in
theorem keys_cutAt (data : Dict String (Frame F)) (cut : ℤ) :
    (cutAt data cut).keys = data.keys := by
  simp only [cutAt, Dict.keys, Dict.mapValues, List.map_map, Function.comp_def]

omit [Float64 F] in
theorem symbolPairs_cutAt (data : Dict String (Frame F)) (cut : ℤ) :
    symbolPairs (cutAt data cut) = symbolPairs data := by
  rw [symbolPairs, symbolPairs, keys_cutAt]

omit [Float64 F] in
theorem getD_cutAt (data : Dict String (Frame F)) (cut : ℤ) (symbol : String) :
    (cutAt data cut).getD symbol [] = (data.getD symbol []).upTo cut := by
  rw [Dict.getD, Dict.getD, cutAt, Dict.get?_mapValues]
  cases data.get? symbol with
  | none => rfl
  | some f => rfl

/-! ## A row of a pair -/

def HasRow (data : Dict String (Frame F)) (pair : String × String) (i : ℕ) : Prop :=
  10 ≤ (data.getD pair.1 []).length ∧ 10 ≤ (data.getD pair.2 []).length ∧
    i < (data.getD pair.1 []).length

omit [Float64 F] in
theorem HasRow.of_cutAt {data : Dict String (Frame F)}
    (hdata : ∀ symbol, (data.getD symbol []).Chronological)
    {pair : String × String} {i : ℕ} {cut : ℤ} (h : HasRow (cutAt data cut) pair i) :
    HasRow data pair i := by
  have hfirst := ((hdata pair.1).upTo_initial cut).length_le
  have hsecond := ((hdata pair.2).upTo_initial cut).length_le
  simp only [HasRow, getD_cutAt] at h
  exact ⟨by omega, by omega, by omega⟩

theorem columnOn_agree {da da' db db' : Frame F} {i : ℕ} (h : da.take (i + 1) = da'.take (i + 1))
    (hrows : ∀ r ∈ da.take (i + 1), db.rowAt r.tsNs = db'.rowAt r.tsNs)
    (value : FrameRow F → F) : AgreeTo i (columnOn db da value) (columnOn db' da' value) := by
  apply agreeTo_rows
  rw [← List.map_take, ← List.map_take, ← h]
  apply List.map_congr_left
  intro r hr
  rw [hrows r hr]

namespace Params

variable (p : Params)

theorem spreadRow_agree {da da' db db' : Frame F} {i : ℕ}
    (h : da.take (i + 1) = da'.take (i + 1))
    (hrows : ∀ r ∈ da.take (i + 1), db.rowAt r.tsNs = db'.rowAt r.tsNs)
    (hi : i < da.length) (hi' : i < da'.length) :
    p.spreadRow da db i = p.spreadRow da' db' i := by
  have hspread := (Frame.column_agree h fun r => log r.close).map₂
    (columnOn_agree h hrows fun r => log r.close) (· - ·)
  have hz := (Indicators.zscore_agree hspread p.spreadWindow).last
  have hcorr := (Indicators.rollingCorr_agree (Frame.column_agree h fun r => r.close)
    (columnOn_agree h hrows fun r => r.close) hi hi' p.corrWindow).last
  simp only [spreadRow, hz, hcorr]

theorem spreadRow_upTo {da : Frame F} (hda : da.Chronological) (db : Frame F) {i : ℕ} {cut : ℤ}
    (hi : i < (da.upTo cut).length) :
    p.spreadRow (da.upTo cut) (db.upTo cut) i = p.spreadRow da db i := by
  have hprefix := hda.upTo_initial cut
  have hlen := hprefix.length_le
  have htake : (da.upTo cut).take (i + 1) = da.take (i + 1) := by
    rw [List.prefix_iff_eq_take.mp hprefix, List.take_take]
    congr 1
    omega
  refine p.spreadRow_agree htake ?_ hi (by omega)
  intro r hr
  exact db.rowAt_upTo (Frame.le_of_mem_upTo (List.mem_of_mem_take hr))

/-! ## The tables -/

def spreadAt (data : Dict String (Frame F)) (pair : String × String) (i : ℕ) :
    Option (Spread F) :=
  (p.pairTable data pair).bind fun table => if i < table.length then some (table.row i) else none

theorem spreadAt_of_hasRow {data : Dict String (Frame F)} {pair : String × String} {i : ℕ}
    (h : HasRow data pair i) :
    p.spreadAt data pair i =
      some (p.spreadRow (data.getD pair.1 []) (data.getD pair.2 []) i) := by
  obtain ⟨hfirst, hsecond, hi⟩ := h
  have hlong : ¬ ((data.getD pair.1 []).length < 10 ∨ (data.getD pair.2 []).length < 10) := by
    omega
  simp only [spreadAt, pairTable, if_neg hlong, Option.bind_some, if_pos hi]

theorem spreadAt_of_not_hasRow {data : Dict String (Frame F)} {pair : String × String} {i : ℕ}
    (h : ¬ HasRow data pair i) : p.spreadAt data pair i = none := by
  simp only [spreadAt, pairTable]
  by_cases hshort : (data.getD pair.1 []).length < 10 ∨ (data.getD pair.2 []).length < 10
  · rw [if_pos hshort]
    rfl
  · have hout : ¬ i < (data.getD pair.1 []).length := fun hi => h ⟨by omega, by omega, hi⟩
    simp only [if_neg hshort, Option.bind_some, if_neg hout]

variable {data : Dict String (Frame F)}

theorem spreadAt_cutAt_iff (hdata : ∀ symbol, (data.getD symbol []).Chronological)
    (pair : String × String) (i : ℕ) (cut : ℤ) :
    p.spreadAt (cutAt data cut) pair i = p.spreadAt data pair i ↔
      (HasRow data pair i → HasRow (cutAt data cut) pair i) := by
  by_cases hcut : HasRow (cutAt data cut) pair i
  · have hrow := HasRow.of_cutAt hdata hcut
    have hi : i < ((data.getD pair.1 []).upTo cut).length := by
      have hlast := hcut.2.2
      rwa [getD_cutAt] at hlast
    rw [p.spreadAt_of_hasRow hcut, p.spreadAt_of_hasRow hrow, getD_cutAt, getD_cutAt,
      p.spreadRow_upTo (hdata pair.1) _ hi]
    exact iff_of_true rfl fun _ => hcut
  · rw [p.spreadAt_of_not_hasRow hcut]
    by_cases hrow : HasRow data pair i
    · rw [p.spreadAt_of_hasRow hrow]
      exact iff_of_false (by simp) fun h => hcut (h hrow)
    · rw [p.spreadAt_of_not_hasRow hrow]
      exact iff_of_true rfl fun h => absurd h hrow

/-! ## The partner and the signal -/

theorem consider_pairTable (instrument : String) (i : ℕ) (best : Option (Partner F))
    (data : Dict String (Frame F)) (pair : String × String) :
    (p.pairTable data pair).elim best (consider instrument i best) =
      if instrument ≠ pair.1 ∧ instrument ≠ pair.2 then best
      else
        (p.spreadAt data pair i).elim best fun row =>
          consider instrument i best ⟨pair.1, pair.2, i + 1, fun _ => row⟩ := by
  by_cases hshort : (data.getD pair.1 []).length < 10 ∨ (data.getD pair.2 []).length < 10
  · simp only [spreadAt, pairTable, if_pos hshort, Option.bind_none, Option.elim_none, ite_self]
  · by_cases hi : i < (data.getD pair.1 []).length
    · have hrow := not_le.mpr hi
      have hnext : ¬ i + 1 ≤ i := by omega
      simp only [spreadAt, pairTable, if_neg hshort, Option.bind_some, if_pos hi,
        Option.elim_some, consider, hrow, hnext, or_false]
      split_ifs
      all_goals rfl
    · simp only [spreadAt, pairTable, if_neg hshort, Option.bind_some, if_neg hi,
        Option.elim_some, Option.elim_none, ite_self, consider, not_lt.mp hi, or_true, if_true]

theorem partner_prepare (data : Dict String (Frame F)) (instrument : String) (i : ℕ) :
    partner (p.prepare data) instrument i =
      (symbolPairs data).foldl
        (fun best pair => (p.pairTable data pair).elim best (consider instrument i best)) none := by
  rw [partner, prepare, List.foldl_filterMap]
  apply List.foldl_ext
  intro best pair _
  cases p.pairTable data pair with
  | none => rfl
  | some table => rfl

theorem partner_congr {data' : Dict String (Frame F)} (instrument : String) (i : ℕ)
    (hpairs : symbolPairs data' = symbolPairs data)
    (h : ∀ pair ∈ symbolPairs data, instrument = pair.1 ∨ instrument = pair.2 →
      p.spreadAt data' pair i = p.spreadAt data pair i) :
    partner (p.prepare data') instrument i = partner (p.prepare data) instrument i := by
  rw [partner_prepare, partner_prepare, hpairs]
  apply List.foldl_ext
  intro best pair hpair
  rw [consider_pairTable, consider_pairTable]
  by_cases hin : instrument = pair.1 ∨ instrument = pair.2
  · rw [h pair hpair hin]
  · have hout : instrument ≠ pair.1 ∧ instrument ≠ pair.2 := not_or.mp hin
    rw [if_pos hout, if_pos hout]

theorem generate_eq_bind (data : Dict String (Frame F)) (instrument : String) (i : ℕ) :
    p.generate data instrument i =
      if data.keys.length < p.minUniverse ∨ i < max p.spreadWindow p.corrWindow + 5 then none
      else
        (partner (p.prepare data) instrument i).bind
          (p.signalOf instrument (data.getD instrument []) i) := by
  simp only [generate]
  by_cases hfew : data.keys.length < p.minUniverse
  · rw [if_pos hfew, if_pos (Or.inl hfew)]
  · rw [if_neg hfew]
    by_cases hearly : i < max p.spreadWindow p.corrWindow + 5
    · rw [if_pos hearly, if_pos (Or.inr hearly)]
    · rw [if_neg hearly, if_neg (not_or.mpr ⟨hfew, hearly⟩)]
      rcases p.prepare data with _ | ⟨table, tables⟩
      · rfl
      · rfl

theorem signalOf_congr (instrument : String) {f g : Frame F} {i : ℕ}
    (h : f.take (i + 1) = g.take (i + 1)) (found : Partner F) :
    p.signalOf instrument f i found = p.signalOf instrument g i found := by
  have hbars := Frame.bars_agree h
  have hatr := (Indicators.atr_agree hbars p.atrWindow).last
  simp only [signalOf, hatr, hbars.last]

theorem generate_cutAt (hdata : ∀ symbol, (data.getD symbol []).Chronological)
    {instrument : String} {i : ℕ} (hi : i < (data.getD instrument []).length)
    (h : ∀ pair ∈ symbolPairs data, instrument = pair.1 ∨ instrument = pair.2 →
      p.spreadAt (cutAt data ((data.getD instrument []).stamps i)) pair i =
        p.spreadAt data pair i) :
    p.generate (cutAt data ((data.getD instrument []).stamps i)) instrument i =
      p.generate data instrument i := by
  have hpairs := symbolPairs_cutAt data ((data.getD instrument []).stamps i)
  have hkeys := keys_cutAt data ((data.getD instrument []).stamps i)
  have htake : ((data.getD instrument []).upTo ((data.getD instrument []).stamps i)).take (i + 1) =
      (data.getD instrument []).take (i + 1) := by
    rw [(hdata instrument).upTo_stamps hi, List.take_take, min_self]
  rw [generate_eq_bind, generate_eq_bind, hkeys, p.partner_congr instrument i hpairs h, getD_cutAt]
  split_ifs
  · rfl
  · congr 1
    funext found
    exact p.signalOf_congr instrument htake found

end Params

end PairsSpread

end Sentinel
