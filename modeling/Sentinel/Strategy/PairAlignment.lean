import Sentinel.Strategy.PairsCausality

/-!
# Rows read at the same place

The series of a pair are on the rows of its first instrument and are read at the row number
of whichever instrument asks.  What is read is of that instrument's instant exactly when the
two frames have the same instants as far as both go.
-/

namespace Sentinel

open Float64 Causal Series

variable {F : Type} [Float64 F]

/-! ## The ensemble -/

namespace Ensemble

def pairCorr (window : ℕ) (da db : Frame F) : ℕ → F :=
  let returns := pctChange (db.column fun r => r.close)
  Indicators.rollingPair window (pctChange (da.column fun r => r.close)) fun i =>
    if da.stamps i ∈ db.map FrameRow.tsNs then
      returns ((db.map FrameRow.tsNs).idxOf (da.stamps i))
    else nan
where
  pctChange := Indicators.pctChange (F := F)

def Reads (data : Dict String (Frame F)) (firing : List String) (i : ℕ)
    (pair : String × String) : Prop :=
  pair.1 ∈ firing ∧ pair.2 ∈ firing ∧ i < (data.getD pair.1 []).length

instance (data : Dict String (Frame F)) (firing : List String) (i : ℕ) :
    DecidablePred (Reads data firing i) := fun _ => inferInstanceAs (Decidable (_ ∧ _ ∧ _))

def readCorr (corr : String × String → ℕ → F) (data : Dict String (Frame F))
    (firing : List String) (i : ℕ) : List ((String × String) × F) :=
  ((PairsSpread.symbolPairs data).filter fun pair => Reads data firing i pair).filterMap
    fun pair =>
      let v := corr pair i
      if isFinite v then some (pair, v) else none

/-- The correlations that `_cluster_size` takes. -/
def clusterCorr (window : ℕ) (data : Dict String (Frame F)) (firing : List String) (i : ℕ) :
    List ((String × String) × F) :=
  readCorr (fun pair => pairCorr window (data.getD pair.1 []) (data.getD pair.2 []))
    data firing i

end Ensemble

/-! ## What is of an instant -/

def Frame.atInstant {G : Type} (f : Frame G) (ts : ℤ) (series : ℕ → F) : F :=
  if ts ∈ f.map FrameRow.tsNs then series ((f.map FrameRow.tsNs).idxOf ts) else nan

namespace PairsSpread

def standing (p : Params) (da db : Frame F) (j : ℕ) : Spread F :=
  let closeOf (k : ℕ) : Option F := (db.rowAt (da.stamps k)).map fun r => r.close
  { z := Indicators.zscore
      (fun k => log (da.bars k).close - ((closeOf k).map log).getD nan) p.spreadWindow j
    corr := Indicators.rollingCorr da.length (fun k => (da.bars k).close)
      (fun k => (closeOf k).getD nan) p.corrWindow j }

def trailingCorr (window : ℕ) (da db : Frame F) (j : ℕ) : F :=
  let returns (f : Frame F) : ℕ → F := Indicators.pctChange fun k => (f.bars k).close
  Indicators.rollingPair window (returns da)
    (fun k => db.atInstant (da.stamps k) (returns db)) j

def PairTable.Reads (table : PairTable F) (instrument : String) (i : ℕ) : Prop :=
  (instrument = table.first ∨ instrument = table.second) ∧ i < table.length

def withRows (rows : String × String → ℕ → Spread F) (tables : List (PairTable F)) :
    List (PairTable F) :=
  tables.map fun table => { table with row := rows (table.first, table.second) }

def SameInstant (data : Dict String (Frame F)) (instrument : String) (i : ℕ)
    (pair : String × String) (j : ℕ) : Prop :=
  j < (data.getD pair.1 []).length ∧
    (data.getD pair.1 []).stamps j = (data.getD instrument []).stamps i

def SeenAt (instrument : String) (table : PairTable F) (j : ℕ) (found : Partner F) : Prop :=
  found.corr = (table.row j).corr ∧
    (instrument = table.first ∧ found.other = table.second ∧ found.z = (table.row j).z ∨
      instrument = table.second ∧ found.other = table.first ∧ found.z = -(table.row j).z)

/-- The tables hold what the two instruments are to each other at each instant; a signal uses
the row of the instrument's instant, and the choice of the partner, whatever the rows are,
depends on no other one. -/
structure SpreadsAligned (p : Params) (data : Dict String (Frame F)) : Prop where
  tables : ∀ table ∈ p.prepare data, ∀ j < table.length,
    table.row j = standing p (data.getD table.first []) (data.getD table.second []) j
  used : ∀ instrument i sig, i < (data.getD instrument []).length →
    p.generate data instrument i = some sig →
      ∃ found, p.signalOf instrument (data.getD instrument []) i found = some sig ∧
        ∃ table ∈ p.prepare data, ∃ j,
          SameInstant data instrument i (table.first, table.second) j ∧
            SeenAt instrument table j found
  local_rows : ∀ instrument i, i < (data.getD instrument []).length →
    ∀ rows rows' : String × String → ℕ → Spread F,
      (∀ pair j, SameInstant data instrument i pair j → rows pair j = rows' pair j) →
        partner (withRows rows (p.prepare data)) instrument i =
          partner (withRows rows' (p.prepare data)) instrument i

/-- The series hold the correlation at each instant; what is taken of them is of the instant
of the row of each instrument that fires, and depends on no other row. -/
structure EnsembleAligned (window : ℕ) (data : Dict String (Frame F)) : Prop where
  series : ∀ pair ∈ symbolPairs data, ∀ j < (data.getD pair.1 []).length,
    Ensemble.pairCorr window (data.getD pair.1 []) (data.getD pair.2 []) j =
      trailingCorr window (data.getD pair.1 []) (data.getD pair.2 []) j
  used : ∀ firing ⊆ data.keys, ∀ instrument ∈ firing, ∀ i < (data.getD instrument []).length,
    ∀ taken ∈ Ensemble.clusterCorr window data firing i,
      ∃ j, SameInstant data instrument i taken.1 j ∧
        taken.2 = Ensemble.pairCorr window (data.getD taken.1.1 []) (data.getD taken.1.2 []) j
  local_rows : ∀ firing ⊆ data.keys, ∀ instrument ∈ firing,
    ∀ i < (data.getD instrument []).length, ∀ corr corr' : String × String → ℕ → F,
      (∀ pair j, SameInstant data instrument i pair j → corr pair j = corr' pair j) →
        Ensemble.readCorr corr data firing i = Ensemble.readCorr corr' data firing i

def SamePlaces (f g : Frame F) : Prop :=
  ∀ i, i < f.length → i < g.length → f.stamps i = g.stamps i

/-! ## What the series hold -/

omit [Float64 F] in
theorem stamps_of_lt {f : Frame F} {k : ℕ} (hk : k < f.length) : f.stamps k = f[k].tsNs := by
  simp [Frame.stamps, rows, hk]

theorem spreadRow_eq_standing (p : Params) {da : Frame F} (db : Frame F) {j : ℕ}
    (hj : j < da.length) : p.spreadRow da db j = standing p da db j := by
  have hcolumn (of : F → F) : AgreeTo j (columnOn db da fun r => of r.close)
      fun k => (((db.rowAt (da.stamps k)).map fun r => r.close).map of).getD nan := by
    intro k hk
    have hlt : k < da.length := by omega
    simp [columnOn, rows, hlt, stamps_of_lt hlt, Function.comp_def]
  have hown (of : F → F) : AgreeTo j (da.column fun r => of r.close)
      fun k => of (da.bars k).close := by
    intro k hk
    have hlt : k < da.length := by omega
    simp [Frame.column, Frame.bars, rows, hlt]
  have hz := (Indicators.zscore_agree
    ((hown log).map₂ (hcolumn log) (· - ·)) p.spreadWindow).last
  have hother := hcolumn id
  simp only [Option.map_id_fun, id_eq] at hother
  have hcorr := (Indicators.rollingCorr_agree (hown id) hother hj hj p.corrWindow).last
  rw [Params.spreadRow, standing]
  simp only [hz]
  exact congrArg (Spread.mk _) hcorr

theorem row_prepare {p : Params} {data : Dict String (Frame F)} {table : PairTable F}
    (h : table ∈ p.prepare data) : (table.first, table.second) ∈ symbolPairs data ∧
      10 ≤ (data.getD table.first []).length ∧ 10 ≤ (data.getD table.second []).length ∧
        table.length = (data.getD table.first []).length ∧
          table.row = p.spreadRow (data.getD table.first []) (data.getD table.second []) := by
  obtain ⟨pair, hpair, htable⟩ := List.mem_filterMap.mp h
  rw [Params.pairTable] at htable
  split_ifs at htable with hshort
  rw [not_or, not_lt, not_lt] at hshort
  obtain rfl := Option.some.inj htable
  exact ⟨hpair, hshort.1, hshort.2, rfl, rfl⟩

theorem exists_table {p : Params} {data : Dict String (Frame F)} {pair : String × String}
    (hpair : pair ∈ symbolPairs data) (hlong : 10 ≤ (data.getD pair.1 []).length)
    (hlong' : 10 ≤ (data.getD pair.2 []).length) :
    ∃ table ∈ p.prepare data, table.first = pair.1 ∧ table.second = pair.2 ∧
      table.length = (data.getD pair.1 []).length :=
  ⟨_, List.mem_filterMap.mpr ⟨pair, hpair, if_neg (by omega)⟩, rfl, rfl, rfl⟩

theorem pairCorr_eq_trailing (window : ℕ) {da : Frame F} (db : Frame F) {j : ℕ} :
    Ensemble.pairCorr window da db j = trailingCorr window da db j := by
  have hclose (f : Frame F) : (f.column fun r => r.close) = fun k => (f.bars k).close := by
    funext k
    by_cases hk : k < f.length
    · simp [Frame.column, Frame.bars, rows, hk]
    · simp [Frame.column, Frame.bars, rows, not_lt.mp hk, Ohlc.missing]
  rw [Ensemble.pairCorr, trailingCorr]
  simp only [hclose]
  rfl

/-! ## The partner -/

theorem consider_cases (instrument : String) (i : ℕ) (best : Option (Partner F))
    (table : PairTable F) :
    consider instrument i best table = best ∨
      table.Reads instrument i ∧ ∃ found, consider instrument i best table = some found ∧
        SeenAt instrument table i found := by
  rw [consider]
  by_cases hout : (instrument ≠ table.first ∧ instrument ≠ table.second) ∨ table.length ≤ i
  · exact .inl (if_pos hout)
  · rw [if_neg hout]
    obtain ⟨hin, hlength⟩ := not_or.mp hout
    have hreads : table.Reads instrument i := by
      refine ⟨?_, not_le.mp hlength⟩
      by_contra hneither
      exact hin (not_or.mp hneither)
    have hseen : SeenAt instrument table i
        { other := if instrument = table.first then table.second else table.first
          corr := (table.row i).corr
          z := if instrument = table.first then (table.row i).z else -(table.row i).z } := by
      refine ⟨rfl, ?_⟩
      by_cases hfirst : instrument = table.first
      · exact .inl ⟨hfirst, if_pos hfirst, if_pos hfirst⟩
      · exact .inr ⟨hreads.1.resolve_left hfirst, if_neg hfirst, if_neg hfirst⟩
    dsimp only
    split
    · exact .inl rfl
    · split
      · exact .inr ⟨hreads, _, rfl, hseen⟩
      · split
        · exact .inr ⟨hreads, _, rfl, hseen⟩
        · exact .inl rfl

theorem partner_spec {tables : List (PairTable F)} {instrument : String} {i : ℕ}
    {found : Partner F} (h : partner tables instrument i = some found) :
    ∃ table ∈ tables, table.Reads instrument i ∧ SeenAt instrument table i found := by
  rw [partner] at h
  induction tables using List.reverseRecOn with
  | nil => cases h
  | append_singleton tables table ih =>
    rw [List.foldl_append, List.foldl_cons, List.foldl_nil] at h
    rcases consider_cases instrument i (tables.foldl (consider instrument i) none) table with
      hsame | ⟨hreads, found', hfound, hseen⟩
    · rw [hsame] at h
      obtain ⟨table', hmem, hspec⟩ := ih h
      exact ⟨table', List.mem_append_left _ hmem, hspec⟩
    · rw [hfound, Option.some.injEq] at h
      subst h
      exact ⟨table, by simp, hreads, hseen⟩

theorem isSome_partner {tables : List (PairTable F)} (instrument : String) (i : ℕ)
    {table : PairTable F} (hmem : table ∈ tables) (hreads : table.Reads instrument i)
    (hcorr : isFinite (table.row i).corr = true) (hz : isFinite (table.row i).z = true) :
    (partner tables instrument i).isSome := by
  have hkeeps (best : Option (Partner F)) (t : PairTable F) (h : best.isSome) :
      (consider instrument i best t).isSome := by
    rcases consider_cases instrument i best t with hsame | ⟨-, found, hfound, -⟩
    · rwa [hsame]
    · rw [hfound]
      rfl
  have hfinds (best : Option (Partner F)) : (consider instrument i best table).isSome := by
    have hin : ¬((instrument ≠ table.first ∧ instrument ≠ table.second) ∨ table.length ≤ i) :=
      fun hout => hout.elim (fun hne => hreads.1.elim hne.1 hne.2) (not_le.mpr hreads.2)
    rw [consider, if_neg hin]
    dsimp only
    rw [hcorr, hz, if_neg (by decide)]
    rcases best with - | b
    · rfl
    · dsimp only
      split <;> rfl
  obtain ⟨before, after, rfl⟩ := List.append_of_mem hmem
  rw [partner, List.foldl_append, List.foldl_cons]
  have hstart := hfinds (before.foldl (consider instrument i) none)
  generalize consider instrument i (before.foldl (consider instrument i) none) table = best
    at hstart
  clear hmem
  induction after generalizing best with
  | nil => exact hstart
  | cons t after ih => exact ih _ (hkeeps best t hstart)

theorem partner_eq_none {tables : List (PairTable F)} {instrument : String} {i : ℕ}
    (h : ∀ table ∈ tables, isFinite (table.row i).corr = false) :
    partner tables instrument i = none := by
  rw [partner]
  induction tables with
  | nil => rfl
  | cons table tables ih =>
    have hskip : consider instrument i none table = none := by
      rw [consider]
      dsimp only
      rw [h table List.mem_cons_self]
      split <;> rfl
    rw [List.foldl_cons, hskip]
    exact ih fun t ht => h t (List.mem_cons_of_mem _ ht)

theorem partner_withRows_congr {rows rows' : String × String → ℕ → Spread F}
    {tables : List (PairTable F)} {instrument : String} {i : ℕ}
    (h : ∀ table ∈ tables, table.Reads instrument i →
      rows (table.first, table.second) i = rows' (table.first, table.second) i) :
    partner (withRows rows tables) instrument i = partner (withRows rows' tables) instrument i := by
  rw [partner, partner, withRows, withRows, List.foldl_map, List.foldl_map]
  apply List.foldl_ext
  intro best table hmem
  by_cases hout : (instrument ≠ table.first ∧ instrument ≠ table.second) ∨ table.length ≤ i
  · rw [consider, if_pos hout, consider, if_pos hout]
  · obtain ⟨hin, hlength⟩ := not_or.mp hout
    have hreads : table.Reads instrument i := by
      refine ⟨?_, not_le.mp hlength⟩
      by_contra hneither
      exact hin (not_or.mp hneither)
    rw [consider, if_neg hout, consider, if_neg hout]
    dsimp only
    rw [h table hmem hreads]

/-! ## When what is read is of the instant -/

theorem mem_pairs {α : Type} {l : List α} {a b : α} (ha : a ∈ l) (hb : b ∈ l) (hne : a ≠ b) :
    (a, b) ∈ pairs l ∨ (b, a) ∈ pairs l := by
  induction l with
  | nil => cases ha
  | cons x l ih =>
    simp only [pairs, List.mem_append, List.mem_map, Prod.mk.injEq]
    rcases List.mem_cons.mp ha with rfl | ha
    · exact Or.inl (Or.inl ⟨b, (List.mem_cons.mp hb).resolve_left hne.symm, rfl, rfl⟩)
    · rcases List.mem_cons.mp hb with hbx | hb
      · exact Or.inr (Or.inl ⟨a, ha, hbx.symm, rfl⟩)
      · exact (ih ha hb).imp Or.inr Or.inr

variable {p : Params} {window : ℕ} {data : Dict String (Frame F)}

theorem spreadsAligned_of_samePlaces
    (h : ∀ pair ∈ symbolPairs data, 10 ≤ (data.getD pair.1 []).length →
      10 ≤ (data.getD pair.2 []).length →
        SamePlaces (data.getD pair.1 []) (data.getD pair.2 [])) : SpreadsAligned p data := by
  have hinstant : ∀ table ∈ p.prepare data, ∀ instrument i,
      i < (data.getD instrument []).length → table.Reads instrument i →
        SameInstant data instrument i (table.first, table.second) i := by
    intro table hmem instrument i hi hreads
    obtain ⟨hpair, hlong, hlong', hlength, -⟩ := row_prepare hmem
    have hlt : i < (data.getD table.first []).length := hlength ▸ hreads.2
    refine ⟨hlt, ?_⟩
    rcases hreads.1 with rfl | rfl
    · rfl
    · exact h _ hpair hlong hlong' i hlt hi
  refine ⟨?_, ?_, ?_⟩
  · intro table hmem j hj
    obtain ⟨-, -, -, hlength, hrow⟩ := row_prepare hmem
    rw [hrow]
    exact spreadRow_eq_standing p _ (hlength ▸ hj)
  · intro instrument i sig hi hsig
    rw [Params.generate_eq_bind] at hsig
    split at hsig
    · cases hsig
    · obtain ⟨found, hfound, hsignal⟩ := Option.bind_eq_some_iff.mp hsig
      obtain ⟨table, hmem, hreads, hseen⟩ := partner_spec hfound
      exact ⟨found, hsignal, table, hmem, i, hinstant table hmem instrument i hi hreads, hseen⟩
  · intro instrument i hi rows rows' hrows
    apply partner_withRows_congr
    intro table hmem hreads
    exact hrows _ i (hinstant table hmem instrument i hi hreads)

theorem samePlaces_of_spreadsAligned {x : F} (hx : isFinite x = true)
    (hnan : isFinite (nan : F) = false) (h : SpreadsAligned p data) {pair : String × String}
    (hpair : pair ∈ symbolPairs data) (hlong : 10 ≤ (data.getD pair.1 []).length)
    (hlong' : 10 ≤ (data.getD pair.2 []).length) :
    SamePlaces (data.getD pair.1 []) (data.getD pair.2 []) := by
  intro i hi hi'
  by_contra hne
  obtain ⟨table, hmem, hfirst, hsecond, hlength⟩ := exists_table (p := p) hpair hlong hlong'
  have hlocal := h.local_rows pair.2 i hi'
    (fun q j => if q = pair ∧ j = i then ⟨x, x⟩ else ⟨nan, nan⟩) (fun _ _ => ⟨nan, nan⟩)
    (fun q j hsame => if_neg fun hrow => by
      obtain ⟨rfl, rfl⟩ := hrow
      exact hne hsame.2)
  have hnone : partner (withRows (fun _ _ => ⟨nan, nan⟩) (p.prepare data)) pair.2 i = none := by
    apply partner_eq_none
    intro t ht
    obtain ⟨t', -, rfl⟩ := List.mem_map.mp ht
    exact hnan
  have hpairOf : (table.first, table.second) = pair := by rw [hfirst, hsecond]
  have hsome := isSome_partner pair.2 i (List.mem_map_of_mem (f := fun table : PairTable F =>
      { table with row := fun j => if (table.first, table.second) = pair ∧ j = i then
          (⟨x, x⟩ : Spread F) else ⟨nan, nan⟩ }) hmem)
    ⟨.inr hsecond.symm, by
      dsimp only
      rwa [hlength]⟩
    (by
      dsimp only
      rwa [if_pos ⟨hpairOf, rfl⟩])
    (by
      dsimp only
      rwa [if_pos ⟨hpairOf, rfl⟩])
  rw [withRows] at hlocal
  rw [hlocal, hnone] at hsome
  cases hsome

theorem mem_readCorr {corr : String × String → ℕ → F} {firing : List String} {i : ℕ}
    {taken : (String × String) × F} :
    taken ∈ Ensemble.readCorr corr data firing i ↔
      taken.1 ∈ symbolPairs data ∧ Ensemble.Reads data firing i taken.1 ∧
        isFinite (corr taken.1 i) = true ∧ taken.2 = corr taken.1 i := by
  obtain ⟨pair, v⟩ := taken
  simp only [Ensemble.readCorr, List.mem_filterMap, List.mem_filter, decide_eq_true_eq]
  constructor
  · rintro ⟨q, ⟨hq, hreads⟩, hv⟩
    split at hv
    · rename_i hfinite
      cases hv
      exact ⟨hq, hreads, hfinite, rfl⟩
    · cases hv
  · rintro ⟨hq, hreads, hfinite, rfl⟩
    exact ⟨pair, ⟨hq, hreads⟩, if_pos hfinite⟩

theorem ensembleAligned_of_samePlaces (h : ∀ a ∈ data.keys, ∀ b ∈ data.keys,
    SamePlaces (data.getD a []) (data.getD b [])) : EnsembleAligned window data := by
  have hinstant : ∀ firing ⊆ data.keys, ∀ instrument ∈ firing,
      ∀ i < (data.getD instrument []).length, ∀ pair, Ensemble.Reads data firing i pair →
        SameInstant data instrument i pair i :=
    fun firing hsub instrument hin i hi pair hreads =>
      ⟨hreads.2.2, h pair.1 (hsub hreads.1) instrument (hsub hin) i hreads.2.2 hi⟩
  refine ⟨fun pair _ j _ => pairCorr_eq_trailing window _, ?_, ?_⟩
  · intro firing hsub instrument hin i hi taken htaken
    obtain ⟨-, hreads, -, hv⟩ := mem_readCorr.mp htaken
    exact ⟨i, hinstant firing hsub instrument hin i hi taken.1 hreads, hv⟩
  · intro firing hsub instrument hin i hi corr corr' hcorr
    rw [Ensemble.readCorr, Ensemble.readCorr]
    apply List.filterMap_congr
    intro pair hpair
    have hreads := of_decide_eq_true (List.mem_filter.mp hpair).2
    dsimp only
    rw [hcorr pair i (hinstant firing hsub instrument hin i hi pair hreads)]

theorem samePlaces_of_ensembleAligned {x : F} (hx : isFinite x = true)
    (hnan : isFinite (nan : F) = false) (h : EnsembleAligned window data) {a b : String}
    (ha : a ∈ data.keys) (hb : b ∈ data.keys) :
    SamePlaces (data.getD a []) (data.getD b []) := by
  have hpairs : ∀ pair ∈ symbolPairs data, pair.1 ∈ data.keys → pair.2 ∈ data.keys →
      SamePlaces (data.getD pair.1 []) (data.getD pair.2 []) := by
    intro pair hpair hfirst hsecond i hi hi'
    by_contra hne
    have hsub : [pair.1, pair.2] ⊆ data.keys := by simp [hfirst, hsecond]
    have hlocal := h.local_rows [pair.1, pair.2] hsub pair.2 (by simp) i hi'
      (fun q j => if q = pair ∧ j = i then x else nan) (fun _ _ => nan)
      (fun q j hsame => if_neg fun hrow => by
        obtain ⟨rfl, rfl⟩ := hrow
        exact hne hsame.2)
    have htaken : (pair, x) ∈ Ensemble.readCorr
        (fun q j => if q = pair ∧ j = i then x else nan) data [pair.1, pair.2] i := by
      rw [mem_readCorr]
      dsimp only
      rw [if_pos ⟨rfl, rfl⟩]
      exact ⟨hpair, ⟨by simp, by simp, hi⟩, hx, rfl⟩
    rw [hlocal, mem_readCorr, hnan] at htaken
    exact Bool.false_ne_true htaken.2.2.1
  by_cases hab : a = b
  · intro i _ _
    rw [hab]
  · rcases mem_pairs ((List.mem_insertionSort (· ≤ ·)).mpr ha)
      ((List.mem_insertionSort (· ≤ ·)).mpr hb) hab with hpair | hpair
    · exact hpairs (a, b) hpair ha hb
    · exact fun i hi hi' => (hpairs (b, a) hpair hb ha i hi' hi).symm

/-- What is read is of the instant exactly when the frames have the same instants at the same
places: of every pair that has a table, and of all instruments. -/
theorem reads_aligned_iff (p : Params) (window : ℕ) (data : Dict String (Frame F)) {x : F}
    (hx : isFinite x = true) (hnan : isFinite (nan : F) = false) :
    (SpreadsAligned p data ↔ ∀ pair ∈ symbolPairs data, 10 ≤ (data.getD pair.1 []).length →
      10 ≤ (data.getD pair.2 []).length →
        SamePlaces (data.getD pair.1 []) (data.getD pair.2 [])) ∧
      (EnsembleAligned window data ↔ ∀ a ∈ data.keys, ∀ b ∈ data.keys,
        SamePlaces (data.getD a []) (data.getD b [])) :=
  ⟨⟨fun h _ hpair hlong hlong' => samePlaces_of_spreadsAligned hx hnan h hpair hlong hlong',
      spreadsAligned_of_samePlaces⟩,
    ⟨fun h _ ha _ hb => samePlaces_of_ensembleAligned hx hnan h ha hb,
      ensembleAligned_of_samePlaces⟩⟩

/-! ## A missing bar -/

def framesOf (ks : List ℕ) : Dict String (Frame (Option ℚ)) :=
  let row (k : ℕ) : FrameRow (Option ℚ) :=
    { openPrice := some 1, high := some 1, low := some 1, close := some 1,
      tsNs := k * 14400000000000, volume := some 1 }
  (Dict.empty.set "EUR_USD" ((List.range 12).map row)).set "GBP_USD" (ks.map row)

def gapFrames : Dict String (Frame (Option ℚ)) := framesOf ((List.range 12).filter (· ≠ 3))

/-- A history that is shorter, with the same bars as far as it goes. -/
theorem aligned_shortFrames :
    SpreadsAligned {} (framesOf (List.range 11)) ∧ EnsembleAligned 20 (framesOf (List.range 11)) := by
  have hplaces : ∀ a ∈ (framesOf (List.range 11)).keys, ∀ b ∈ (framesOf (List.range 11)).keys,
      SamePlaces ((framesOf (List.range 11)).getD a []) ((framesOf (List.range 11)).getD b []) := by
    have hdec : ∀ a ∈ (framesOf (List.range 11)).keys, ∀ b ∈ (framesOf (List.range 11)).keys,
        ∀ i < 12, i < ((framesOf (List.range 11)).getD a []).length →
          i < ((framesOf (List.range 11)).getD b []).length →
            ((framesOf (List.range 11)).getD a []).stamps i =
              ((framesOf (List.range 11)).getD b []).stamps i := by decide +kernel
    intro a ha b hb i hi
    have hlong : ∀ a ∈ (framesOf (List.range 11)).keys,
        ((framesOf (List.range 11)).getD a []).length ≤ 12 := by decide +kernel
    exact hdec a ha b hb i (hi.trans_le (hlong a ha)) hi
  have hread := reads_aligned_iff {} 20 (framesOf (List.range 11)) (x := some 0) rfl rfl
  refine ⟨hread.1.mpr fun pair hpair _ _ => ?_, hread.2.mpr hplaces⟩
  have hkeys : ∀ pair ∈ symbolPairs (framesOf (List.range 11)),
      pair.1 ∈ (framesOf (List.range 11)).keys ∧ pair.2 ∈ (framesOf (List.range 11)).keys := by
    decide +kernel
  exact hplaces _ (hkeys pair hpair).1 _ (hkeys pair hpair).2

/-- What is read for the second instrument is of another instant. -/
theorem not_aligned_gapFrames :
    ¬ ∀ (p : Params) (window : ℕ) (data : Dict String (Frame (Option ℚ))),
      (∀ f ∈ data.values, f.Chronological) →
        SpreadsAligned p data ∧ EnsembleAligned window data := by
  intro h
  have hchron : ∀ f ∈ gapFrames.values, f.Pairwise fun r r' => r.tsNs < r'.tsNs := by
    decide +kernel
  obtain ⟨-, haligned⟩ := h {} 20 gapFrames hchron
  have hplaces := samePlaces_of_ensembleAligned (x := some 0) rfl rfl haligned
    (a := "EUR_USD") (b := "GBP_USD") (by decide) (by decide) 5 (by decide) (by decide)
  exact absurd hplaces (by decide)

end PairsSpread

end Sentinel
