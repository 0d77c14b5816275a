import Sentinel.Core.Float64
import Sentinel.Support.Dict
import Sentinel.Support.StepUp

/-!
# Patterns in the closed trades

The post-mortem tests one hypothesis for every counterfactual rule and every tag, and
corrects the whole family at once: a pass accepts the tests up to the last that meets
its threshold, and another pass adjusts the p-values by a running minimum.
-/

namespace Sentinel

namespace Postmortem

structure Counterfactual (F : Type) where
  name : String
  deltaR : F
  applicable : Bool := true
  computable : Bool := true

structure TradeAutopsy (F : Type) where
  mode : String
  rMultiple : F
  tags : List String := []
  counterfactuals : List (Counterfactual F) := []
  regime : String := ""
  closedNs : ℤ := 0

inductive Diagnosis where
  | undiagnosed
  | descriptive
  | insufficient
  | luck
  | regime
  | parameter
  deriving DecidableEq

structure PatternFinding (F P : Type) where
  pattern : String
  n : ℕ
  share : F
  meanR : F
  meanDeltaR : F
  tStat : F
  pValue : P
  pValueAdjusted : P
  significant : Bool := false
  nTestsInFamily : ℕ := 0
  diagnosis : Diagnosis := .undiagnosed
  stability : F
  regimeConcentration : F
  dominantRegime : String := ""

structure Numerics (F P : Type) where
  mean : List F → F
  /-- `arr.std(ddof=1)`. -/
  std : List F → F
  sum : List F → F
  /-- `np.sqrt(n)`. -/
  sqrt : ℕ → F
  /-- `sps.t.sf`, where it is finite. -/
  survival : F → ℕ → Option P
  /-- `sps.ttest_ind` with unequal variances: the statistic, and the p-value where it
  is finite. -/
  welch : List F → List F → F × Option P
  argsort : List P → List ℕ
  argsortTimes : List ℤ → List ℕ
  ofNat : ℕ → P
  mul : P → P → P
  div : P → P → P

def outcomeDerivedTags : List String :=
  ["consider_wider_stop", "stop_placement", "exit_discipline", "consider_breakeven_move",
    "breakeven_fired", "survived_deep_drawdown", "slippage_or_gap", "horizon_too_short"]

section

variable {F P : Type} [LinearOrder P] (np : Numerics F P)

/-! ## The correction of a family -/

variable (ps : List P)

def benjaminiHochberg (alpha : P) : List Bool :=
  let n := ps.length
  let order := np.argsort ps
  let thresholds := fun r => np.mul alpha (np.div (np.ofNat r) (np.ofNat n))
  let k := StepUp.lastMarked (StepUp.marks (fun i => ps.getD i (np.ofNat 1)) thresholds order)
  (List.range n).map fun i => decide (i ∈ order.take k)

/-- `min(1.0, f.p_value * m / max(1, int(rank)))`. -/
def rankFigure (i : ℕ) : P :=
  min (np.ofNat 1) (np.div (np.mul (ps.getD i (np.ofNat 1)) (np.ofNat ps.length))
    (np.ofNat (max 1 (StepUp.rank (np.argsort ps) i))))

def correctedAt (raw : List P) (fdr : P) (f : PatternFinding F P) (i : ℕ) :
    PatternFinding F P :=
  { f with
    nTestsInFamily := raw.length
    significant := (benjaminiHochberg np raw fdr).getD i false
    pValueAdjusted := StepUp.adjusted (fun j => raw.getD j (np.ofNat 1)) (rankFigure np raw)
      (np.ofNat 1) raw.length i }

def corrected (tested : List (PatternFinding F P)) (fdr : P) : List (PatternFinding F P) :=
  let raw := tested.map PatternFinding.pValue
  tested.zipIdx.map fun f => correctedAt np raw fdr f.1 f.2

/-- `f.p_value * m / rank`. -/
def figure (p : P) (r : ℕ) : P := np.div (np.mul p (np.ofNat ps.length)) (np.ofNat r)

def scaled (i : ℕ) : P :=
  figure np ps (ps.getD i (np.ofNat 1)) (StepUp.rank (np.argsort ps) i)

def threshold (level : P) (r : ℕ) : P :=
  np.mul level (np.div (np.ofNat r) (np.ofNat ps.length))

theorem rankFigure_eq : rankFigure np ps = fun i => min (np.ofNat 1) (scaled np ps i) := by
  funext i
  rw [rankFigure, scaled, figure, max_eq_right (by rw [StepUp.rank]; omega)]

theorem getD_benjaminiHochberg {ps : List P} {alpha : P} {i : ℕ} (hi : i < ps.length) :
    (benjaminiHochberg np ps alpha).getD i false = true ↔
      i ∈ (np.argsort ps).take (StepUp.lastMarked
        (StepUp.marks (fun j => ps.getD j (np.ofNat 1)) (threshold np ps alpha)
          (np.argsort ps))) := by
  rw [benjaminiHochberg, List.getD_eq_getElem?_getD, List.getElem?_map,
    List.getElem?_range hi, Option.map_some, Option.getD_some, decide_eq_true_iff]
  rfl

def Reports (level : P) (f : PatternFinding F P) (i : ℕ) : Prop :=
  f.pValue = ps.getD i (np.ofNat 1) ∧
    f.pValueAdjusted = StepUp.adjusted (fun j => ps.getD j (np.ofNat 1))
      (fun j => min (np.ofNat 1) (scaled np ps j)) (np.ofNat 1) ps.length i ∧
    (f.significant = true ↔ i ∈ (np.argsort ps).take (StepUp.lastMarked
      (StepUp.marks (fun j => ps.getD j (np.ofNat 1)) (threshold np ps level)
        (np.argsort ps))))

theorem reports_correctedAt {ps : List P} {level : P} {g : PatternFinding F P} {i : ℕ}
    {d : Diagnosis} (hi : ps[i]? = some g.pValue) :
    Reports np ps level { correctedAt np ps level g i with diagnosis := d } i := by
  refine ⟨?_, ?_, ?_⟩
  · rw [List.getD_eq_getElem?_getD, hi]
    rfl
  · rw [← rankFigure_eq]
    rfl
  · exact getD_benjaminiHochberg np (List.getElem?_eq_some_iff.mp hi).1

/-! ## The tests -/

variable [Float64 F]

variable (F) in
def zero : F := Float64.ofRat 0

def positive (x : F) : Bool := Float64.lt (zero F) x

/-- `min(a, b)` and `max(a, b)` of the language. -/
def lesser (a b : F) : F := if Float64.lt b a then b else a

def greater (a b : F) : F := if Float64.lt a b then b else a

def stability (values : List F) (order : List ℤ) : F :=
  if values.length < 8 then zero F
  else
    let arr := (np.argsortTimes order).map fun i => values.getD i (zero F)
    let mid := arr.length / 2
    let a := np.mean (arr.take mid)
    let b := np.mean (arr.drop mid)
    let largest := greater (greater (Float64.abs a) (Float64.abs b))
      (Float64.ofRat (1 / 1000000000))
    if Float64.eq a (zero F) && Float64.eq b (zero F) then zero F
    else if positive a != positive b then
      -(lesser (Float64.abs a) (Float64.abs b)) / largest
    else lesser (Float64.abs a) (Float64.abs b) / largest

def regimeConcentration (values : List F) (regimes : List String) : F × String :=
  let labels := regimes ++ List.replicate (values.length - regimes.length) ""
  let total := np.sum (values.map Float64.abs)
  let shares := (values.zip (labels.take values.length)).foldl
    (fun (by' : Dict String F) e =>
      let label := if e.2 = "" then "unknown" else e.2
      by'.set label (by'.getD label (zero F) + Float64.abs e.1)) Dict.empty
  if values = [] then (zero F, "")
  else if Float64.le total (zero F) then (zero F, "")
  else
    match shares.items with
    | [] => (zero F, "")
    | first :: rest =>
        let top := rest.foldl (fun top kv => if Float64.lt top.2 kv.2 then kv else top) first
        (top.2 / total, top.1)

/-- `diagnose`, with its default floor and ceiling. -/
def diagnose (minSample : ℕ) (f : PatternFinding F P) : Diagnosis :=
  if f.n < minSample then .insufficient
  else if !f.significant then .luck
  else if Float64.lt (Float64.ofRat (3 / 5)) f.regimeConcentration &&
      f.dominantRegime ∉ ["", "unknown"] then .regime
  else if Float64.lt f.stability (Float64.ofRat (1 / 4)) then .regime
  else .parameter

variable (autopsies : List (TradeAutopsy F))

def counter (keys : List String) : Dict String ℕ := Dict.totals (keys.map fun k => (k, 1))

def described (pattern : String) (n : ℕ) (rs : List F) : PatternFinding F P where
  pattern := pattern
  n := n
  share := Float64.ofRat (n / autopsies.length)
  meanR := np.mean rs
  meanDeltaR := zero F
  tStat := zero F
  pValue := np.ofNat 1
  pValueAdjusted := np.ofNat 1
  diagnosis := .descriptive
  stability := zero F
  regimeConcentration := zero F

def modeFindings : List (PatternFinding F P) :=
  (counter (autopsies.map TradeAutopsy.mode)).items.map fun mode =>
    described np autopsies s!"mode:{mode.1}" mode.2
      ((autopsies.filter fun a => a.mode = mode.1).map TradeAutopsy.rMultiple)

def counterfactualRows : Dict String (List (F × ℤ × String)) :=
  (autopsies.flatMap fun a => a.counterfactuals.map fun cf => (a, cf)).foldl
    (fun rows e =>
      if e.2.computable && e.2.applicable then
        rows.set e.2.name
          (rows.getD e.2.name [] ++ [(e.2.deltaR, e.1.closedNs, e.1.regime)])
      else rows) Dict.empty

def testedFinding (pattern : String) (n : ℕ) (meanR meanDeltaR tStat : F) (pValue : P)
    (values : List F) (order : List ℤ) (regimes : List String) : PatternFinding F P where
  pattern := pattern
  n := n
  share := Float64.ofRat (n / autopsies.length)
  meanR := meanR
  meanDeltaR := meanDeltaR
  tStat := tStat
  pValue := pValue
  pValueAdjusted := np.ofNat 1
  stability := stability np values order
  regimeConcentration := (regimeConcentration np values regimes).1
  dominantRegime := (regimeConcentration np values regimes).2

def counterfactualTest (name : String) (rows : List (F × ℤ × String)) :
    PatternFinding F P :=
  let arr := rows.map Prod.fst
  let n := arr.length
  let sd := if 1 < n then np.std arr else zero F
  let t := np.mean arr / (sd / np.sqrt n)
  let tested : F × P :=
    if positive sd then
      match np.survival t (n - 1) with
      | some p => (t, p)
      | none => (zero F, np.ofNat 1)
    else (zero F, np.ofNat 1)
  testedFinding np autopsies s!"counterfactual:{name}" n
    (np.mean (autopsies.map TradeAutopsy.rMultiple)) (np.mean arr) tested.1 tested.2
    arr (rows.map fun row => row.2.1) (rows.map fun row => row.2.2)

def tagTest (tag : String) (n : ℕ) : PatternFinding F P :=
  let subset := autopsies.filter fun a => tag ∈ a.tags
  let rs := subset.map TradeAutopsy.rMultiple
  let others := (autopsies.filter fun a => tag ∉ a.tags).map TradeAutopsy.rMultiple
  let test := np.welch rs others
  let t := if Float64.isFinite test.1 then test.1 else zero F
  testedFinding np autopsies s!"tag:{tag}" n (np.mean rs) (np.mean rs - np.mean others) t
    (test.2.getD (np.ofNat 1)) rs (subset.map TradeAutopsy.closedNs)
    (subset.map TradeAutopsy.regime)

def frequentTags (minSample : ℕ) : List (String × ℕ) :=
  (counter (autopsies.flatMap TradeAutopsy.tags)).items.filter fun tag => minSample ≤ tag.2

def outcomeFindings (minSample : ℕ) : List (PatternFinding F P) :=
  ((frequentTags autopsies minSample).filter fun tag => tag.1 ∈ outcomeDerivedTags).map
    fun tag => described np autopsies s!"tag:{tag.1}" tag.2
      ((autopsies.filter fun a => tag.1 ∈ a.tags).map TradeAutopsy.rMultiple)

def comparable (tag : String) : Bool :=
  let tagged := (autopsies.filter fun a => tag ∈ a.tags).length
  let others := (autopsies.filter fun a => tag ∉ a.tags).length
  10 ≤ others && 10 ≤ tagged

def testedFindings (minSample : ℕ) : List (PatternFinding F P) :=
  (((counterfactualRows autopsies).items.filter fun rule => minSample ≤ rule.2.length).map
      fun rule => counterfactualTest np autopsies rule.1 rule.2) ++
    (((frequentTags autopsies minSample).filter fun tag =>
        tag.1 ∉ outcomeDerivedTags && comparable autopsies tag.1).map
      fun tag => tagTest np autopsies tag.1 tag.2)

def ranksBefore (f g : PatternFinding F P) : Bool :=
  f.pValueAdjusted < g.pValueAdjusted ||
    (f.pValueAdjusted = g.pValueAdjusted &&
      Float64.le (-(Float64.abs f.meanDeltaR)) (-(Float64.abs g.meanDeltaR)))

def aggregate (minSample : ℕ) (alpha : P) (fdrAlpha : Option P) : List (PatternFinding F P) :=
  (modeFindings np autopsies ++ outcomeFindings np autopsies minSample ++
    (corrected np (testedFindings np autopsies minSample) (fdrAlpha.getD alpha)).map
      fun (f : PatternFinding F P) => { f with diagnosis := diagnose minSample f }).mergeSort
    ranksBefore

/-! ## What the result says of a test -/

def SignificanceAgrees (level : P) (result : List (PatternFinding F P)) : Prop :=
  ∀ f ∈ result, f.nTestsInFamily ≠ 0 → (f.significant = true ↔ f.pValueAdjusted ≤ level)

def AdjustedMonotone (result : List (PatternFinding F P)) : Prop :=
  ∀ f ∈ result, ∀ g ∈ result, f.nTestsInFamily ≠ 0 → g.nTestsInFamily ≠ 0 →
    f.pValue ≤ g.pValue → f.pValueAdjusted ≤ g.pValueAdjusted

def rawValues (minSample : ℕ) : List P :=
  (testedFindings np autopsies minSample).map PatternFinding.pValue

variable {np autopsies} {minSample : ℕ} {alpha : P} {fdrAlpha : Option P}

theorem mem_aggregate_iff {f : PatternFinding F P} :
    f ∈ aggregate np autopsies minSample alpha fdrAlpha ↔
      f ∈ modeFindings np autopsies ∨ f ∈ outcomeFindings np autopsies minSample ∨
      ∃ i g, (testedFindings np autopsies minSample)[i]? = some g ∧
        f = { correctedAt np (rawValues np autopsies minSample) (fdrAlpha.getD alpha) g i with
          diagnosis := diagnose minSample (correctedAt np (rawValues np autopsies minSample)
            (fdrAlpha.getD alpha) g i) } := by
  rw [aggregate, List.mem_mergeSort, List.mem_append, List.mem_append, or_assoc, List.mem_map]
  refine or_congr_right (or_congr_right ?_)
  constructor
  · rintro ⟨h, hmem, rfl⟩
    obtain ⟨⟨g, i⟩, hplace, rfl⟩ := List.mem_map.mp hmem
    exact ⟨i, g, List.mem_zipIdx_iff_getElem?.mp hplace, rfl⟩
  · rintro ⟨i, g, hget, rfl⟩
    exact ⟨_, List.mem_map.mpr ⟨(g, i), List.mem_zipIdx_iff_getElem?.mpr hget, rfl⟩, rfl⟩

theorem reports_of_mem {f : PatternFinding F P}
    (h : f ∈ aggregate np autopsies minSample alpha fdrAlpha) (htested : f.nTestsInFamily ≠ 0) :
    ∃ i < (rawValues np autopsies minSample).length,
      Reports np (rawValues np autopsies minSample) (fdrAlpha.getD alpha) f i := by
  rcases mem_aggregate_iff.mp h with hmode | houtcome | ⟨i, g, hget, rfl⟩
  · obtain ⟨mode, -, rfl⟩ := List.mem_map.mp hmode
    exact absurd rfl htested
  · obtain ⟨tag, -, rfl⟩ := List.mem_map.mp houtcome
    exact absurd rfl htested
  · have hraw : (rawValues np autopsies minSample)[i]? = some g.pValue := by
      rw [rawValues, List.getElem?_map, hget]
      rfl
    exact ⟨i, (List.getElem?_eq_some_iff.mp hraw).1, reports_correctedAt np hraw⟩

theorem exists_reports (alpha : P) (fdrAlpha : Option P) {i : ℕ}
    (hi : i < (rawValues np autopsies minSample).length) :
    ∃ f ∈ aggregate np autopsies minSample alpha fdrAlpha, f.nTestsInFamily ≠ 0 ∧
      Reports np (rawValues np autopsies minSample) (fdrAlpha.getD alpha) f i := by
  have hbound : i < (testedFindings np autopsies minSample).length := by
    rwa [rawValues, List.length_map] at hi
  have hget := List.getElem?_eq_getElem hbound
  refine ⟨_, mem_aggregate_iff.mpr (Or.inr (Or.inr ⟨i, _, hget, rfl⟩)), ?_, ?_⟩
  · exact Nat.ne_of_gt (Nat.zero_lt_of_lt hi)
  · refine reports_correctedAt np ?_
    rw [rawValues, List.getElem?_map, hget]
    rfl

theorem result_agrees_iff (np : Numerics F P) (autopsies : List (TradeAutopsy F))
    (minSample : ℕ) (alpha : P) (fdrAlpha : Option P) :
    let ps := rawValues np autopsies minSample
    let p := fun i => ps.getD i (np.ofNat 1)
    let level := fdrAlpha.getD alpha
    let result := aggregate np autopsies minSample alpha fdrAlpha
    let adjusted := StepUp.adjusted p (fun k => min (np.ofNat 1) (scaled np ps k)) (np.ofNat 1)
      ps.length
    SignificanceAgrees level result ∧ AdjustedMonotone result ↔
      (∀ i < ps.length, i ∈ (np.argsort ps).take (StepUp.lastMarked
          (StepUp.marks p (threshold np ps level) (np.argsort ps))) ↔ adjusted i ≤ level) ∧
      ∀ i < ps.length, ∀ j < ps.length, p i ≤ p j → adjusted i ≤ adjusted j := by
  intro ps p level result adjusted
  refine and_congr ⟨?_, ?_⟩ ⟨?_, ?_⟩
  · intro h i hi
    obtain ⟨f, hf, htested, -, hadjusted, haccepted⟩ := exists_reports alpha fdrAlpha hi
    have hmarked := h f hf htested
    rw [hadjusted] at hmarked
    exact haccepted.symm.trans hmarked
  · intro h f hf htested
    obtain ⟨i, hi, -, hadjusted, haccepted⟩ := reports_of_mem hf htested
    rw [hadjusted]
    exact haccepted.trans (h i hi)
  · intro h i hi j hj hle
    obtain ⟨f, hf, hftested, hfraw, hfadjusted, -⟩ := exists_reports alpha fdrAlpha hi
    obtain ⟨g, hg, hgtested, hgraw, hgadjusted, -⟩ := exists_reports alpha fdrAlpha hj
    have hraw : f.pValue ≤ g.pValue := by
      rw [hfraw, hgraw]
      exact hle
    have hmono := h f hf g hg hftested hgtested hraw
    rw [hfadjusted, hgadjusted] at hmono
    exact hmono
  · intro h f hf g hg hftested hgtested hle
    obtain ⟨i, hi, hfraw, hfadjusted, -⟩ := reports_of_mem hf hftested
    obtain ⟨j, hj, hgraw, hgadjusted, -⟩ := reports_of_mem hg hgtested
    rw [hfraw, hgraw] at hle
    rw [hfadjusted, hgadjusted]
    exact h i hi j hj hle

/-! ## When the two passes agree -/

/-- What the library functions do with p-values: rounding keeps their order, none is
negative, and `argsort` puts them in order. -/
structure Ordered (np : Numerics F P) : Prop where
  ofNat_le : ∀ m n, m ≤ n → np.ofNat m ≤ np.ofNat n
  mul_le : ∀ a x y, np.ofNat 0 ≤ a → x ≤ y → np.mul a x ≤ np.mul a y
  mul_nonneg : ∀ x n, np.ofNat 0 ≤ x → np.ofNat 0 ≤ np.mul x (np.ofNat n)
  div_le : ∀ x y n, 0 < n → x ≤ y → np.div x (np.ofNat n) ≤ np.div y (np.ofNat n)
  div_antitone : ∀ x m n, np.ofNat 0 ≤ x → 0 < m → m ≤ n →
    np.div x (np.ofNat n) ≤ np.div x (np.ofNat m)
  survival_nonneg : ∀ t df p, np.survival t df = some p → np.ofNat 0 ≤ p
  welch_nonneg : ∀ xs ys p, (np.welch xs ys).2 = some p → np.ofNat 0 ≤ p
  argsort_perm : ∀ ps, (np.argsort ps).Perm (List.range ps.length)
  argsort_sorted : ∀ ps, (np.argsort ps).Pairwise fun i j =>
    ps.getD i (np.ofNat 1) ≤ ps.getD j (np.ofNat 1)

omit [Float64 F] in
theorem Ordered.sorts (h : Ordered np) (ps : List P) :
    StepUp.Sorts (fun i => ps.getD i (np.ofNat 1)) ps.length (np.argsort ps) :=
  ⟨h.argsort_perm ps, h.argsort_sorted ps⟩

theorem Ordered.nonneg_testedFindings (h : Ordered np) {f : PatternFinding F P}
    (hf : f ∈ testedFindings np autopsies minSample) : np.ofNat 0 ≤ f.pValue := by
  have hone : np.ofNat 0 ≤ np.ofNat 1 := h.ofNat_le 0 1 (Nat.zero_le 1)
  rcases List.mem_append.mp hf with hrule | htag
  · obtain ⟨rule, -, rfl⟩ := List.mem_map.mp hrule
    simp only [counterfactualTest, testedFinding]
    generalize (if 1 < _ then _ else _) = sd
    split
    · split
      · rename_i p hp
        exact h.survival_nonneg _ _ p hp
      · exact hone
    · exact hone
  · obtain ⟨tag, -, rfl⟩ := List.mem_map.mp htag
    simp only [tagTest, testedFinding]
    rcases hp : (np.welch _ _).2 with _ | p
    · exact hone
    · exact h.welch_nonneg _ _ p hp

theorem Ordered.nonneg_rawValues (h : Ordered np) (i : ℕ) :
    np.ofNat 0 ≤ (rawValues np autopsies minSample).getD i (np.ofNat 1) := by
  rw [List.getD_eq_getElem?_getD]
  rcases hget : (rawValues np autopsies minSample)[i]? with _ | p
  · exact h.ofNat_le 0 1 (Nat.zero_le 1)
  · obtain ⟨f, hf, rfl⟩ := List.mem_map.mp (List.mem_of_getElem? hget)
    exact h.nonneg_testedFindings hf

/-- The result marks the tests whose adjusted p-value is at most the level, and the
adjusted p-values follow the raw ones, exactly where the first test of every p-value
reaches the figure of the last rank and the two comparisons round alike. -/
theorem aggregate_settled (np : Numerics F P) (hnp : Ordered np)
    (autopsies : List (TradeAutopsy F)) (minSample : ℕ) (alpha : P) (fdrAlpha : Option P)
    (hpos : np.ofNat 0 ≤ fdrAlpha.getD alpha) (hone : fdrAlpha.getD alpha < np.ofNat 1) :
    let ps := rawValues np autopsies minSample
    let level := fdrAlpha.getD alpha
    let result := aggregate np autopsies minSample alpha fdrAlpha
    SignificanceAgrees level result ∧ AdjustedMonotone result ↔
      StepUp.TiesReach (fun i => ps.getD i (np.ofNat 1)) (figure np ps) (np.ofNat 1) ps.length
        (np.argsort ps) ∧
      StepUp.RoundsAlike (fun i => ps.getD i (np.ofNat 1)) (figure np ps)
        (threshold np ps level) level ps.length := by
  intro ps level result
  refine (result_agrees_iff np autopsies minSample alpha fdrAlpha).trans
    (StepUp.accepted_iff (hnp.sorts ps) hone ?_ ?_)
  · intro i _ r s hr hrs
    exact hnp.div_antitone _ r s (hnp.mul_nonneg _ _ (hnp.nonneg_rawValues i)) hr hrs
  · intro r s hrs hs
    rcases Nat.eq_zero_or_pos ps.length with hnone | hsome
    · obtain rfl : r = s := le_antisymm hrs (hs.trans (hnone.le.trans (Nat.zero_le r)))
      exact le_rfl
    · exact hnp.mul_le _ _ _ hpos (hnp.div_le _ _ _ hsome (hnp.ofNat_le r s hrs))

end

/-! ## Two rules with one p-value -/

def exactRoot (x : ℚ) : ℚ := Nat.sqrt x.num.natAbs / Nat.sqrt x.den

def exactMean (xs : List ℚ) : ℚ := xs.sum / xs.length

/-- The upper tail of Student's distribution with an even number of degrees of freedom,
where the root of `t ^ 2 + df` is rational. -/
def exactSurvival (t : ℚ) (df : ℕ) : ℚ :=
  max 0 (1 / 2 - t / exactRoot (t ^ 2 + df) / 2 *
    ((List.range (df / 2)).map fun j =>
      (Nat.choose (2 * j) j : ℚ) / 4 ^ j * (df / (t ^ 2 + df)) ^ j).sum)

def exactNumerics : Numerics (Option ℚ) ℚ where
  mean xs := some (exactMean xs.reduceOption)
  std xs :=
    let ys := xs.reduceOption
    some (exactRoot ((ys.map fun y => (y - exactMean ys) ^ 2).sum / (ys.length - 1 : ℕ)))
  sum xs := some xs.reduceOption.sum
  sqrt n := some (exactRoot n)
  survival t df := t.map fun t => exactSurvival t df
  welch _ _ := (none, none)
  argsort ps := (List.range ps.length).insertionSort fun i j => ps.getD i 1 ≤ ps.getD j 1
  argsortTimes ts := (List.range ts.length).insertionSort fun i j => ts.getD i 0 ≤ ts.getD j 0
  ofNat n := n
  mul a b := a * b
  div a b := a / b

def twoRules (delta : ℚ) : TradeAutopsy (Option ℚ) where
  mode := "clean_loss"
  rMultiple := some (-1)
  counterfactuals := [⟨"wider_stop", some delta, true, true⟩, ⟨"no_target", some delta, true, true⟩]

def tiedTrades : List (TradeAutopsy (Option ℚ)) :=
  List.replicate 12 (twoRules (3 / 2)) ++ List.replicate 12 (twoRules (-1 / 2)) ++
    [twoRules (1 / 2)]

theorem ordered_exactNumerics : Ordered exactNumerics where
  ofNat_le _ _ h := Nat.cast_le.mpr h
  mul_le _ _ _ ha h := mul_le_mul_of_nonneg_left h (by simpa [exactNumerics] using ha)
  mul_nonneg _ n hx :=
    mul_nonneg (by simpa [exactNumerics] using hx) (Nat.cast_nonneg n)
  div_le _ _ n _ h := div_le_div_of_nonneg_right h (Nat.cast_nonneg n)
  div_antitone _ _ _ hx hm h :=
    div_le_div_of_nonneg_left hx (Nat.cast_pos.mpr hm) (Nat.cast_le.mpr h)
  survival_nonneg t df p h := by
    obtain ⟨t, -, rfl⟩ := Option.map_eq_some_iff.mp h
    exact le_max_left _ _
  welch_nonneg _ _ _ h := nomatch h
  argsort_perm _ := List.perm_insertionSort _ _
  argsort_sorted _ := List.pairwise_insertionSort _ _

def oneRule (delta : ℚ) : TradeAutopsy (Option ℚ) where
  mode := "clean_loss"
  rMultiple := some (-1)
  counterfactuals :=
    [⟨"wider_stop", some delta, true, true⟩, ⟨"no_target", some (-delta), true, true⟩]

def unlikeTrades : List (TradeAutopsy (Option ℚ)) :=
  List.replicate 12 (oneRule (3 / 2)) ++ List.replicate 12 (oneRule (-1 / 2)) ++
    [oneRule (1 / 2)]

theorem exactNumerics_roundsAlike (ps : List ℚ) (level : ℚ) :
    StepUp.RoundsAlike (fun i => ps.getD i (exactNumerics.ofNat 1)) (figure exactNumerics ps)
      (threshold exactNumerics ps level) level ps.length := by
  refine StepUp.roundsAlike_of_exact fun v r hr hpos => ?_
  have hr' : (0 : ℚ) < r := Nat.cast_pos.mpr hpos
  have hm : (0 : ℚ) < ps.length := Nat.cast_pos.mpr (hpos.trans_le hr)
  change v ≤ level * (r / ps.length) ↔ v * ps.length / r ≤ level
  rw [← mul_div_assoc, le_div_iff₀ hm, div_le_iff₀ hr']

theorem aggregate_settled_unlike :
    let result := aggregate exactNumerics unlikeTrades 25 (1 / 50) none
    SignificanceAgrees (1 / 50) result ∧ AdjustedMonotone result ∧
      ∃ f ∈ result, f.nTestsInFamily ≠ 0 ∧ f.significant = true := by
  have htwo : (rawValues exactNumerics unlikeTrades 25).length = 2 := by
    decide +kernel
  have hdistinct : ∀ i < (rawValues exactNumerics unlikeTrades 25).length,
      ∀ j < (rawValues exactNumerics unlikeTrades 25).length,
      (rawValues exactNumerics unlikeTrades 25).getD j 1 =
        (rawValues exactNumerics unlikeTrades 25).getD i 1 → j = i := by
    decide +kernel
  have hfirst : 0 < (rawValues exactNumerics unlikeTrades 25).length := by
    rw [htwo]
    exact Nat.two_pos
  obtain ⟨hagrees, hmono⟩ := (aggregate_settled exactNumerics ordered_exactNumerics unlikeTrades
    25 (1 / 50) none (by decide +kernel) (by decide +kernel)).mpr
      ⟨StepUp.tiesReach_of_distinct (ordered_exactNumerics.sorts _) hdistinct,
        exactNumerics_roundsAlike _ _⟩
  obtain ⟨f, hf, htested, -, -, haccepted⟩ := exists_reports (1 / 50 : ℚ) none hfirst
  exact ⟨hagrees, hmono, f, hf, htested, haccepted.mpr (by decide +kernel)⟩

/-- Two rules with one p-value, just below the level: both are significant, and the one
tested first has an adjusted p-value above the level. -/
theorem tiedRules_disagree :
    ¬SignificanceAgrees (1 / 100) (aggregate exactNumerics tiedTrades 25 (1 / 100) none) := by
  intro hagrees
  have htwo : (rawValues exactNumerics tiedTrades 25).length = 2 := by
    decide +kernel
  have hfirst : 0 < (rawValues exactNumerics tiedTrades 25).length := by
    rw [htwo]
    decide
  obtain ⟨f, hf, htested, -, hadjusted, haccepted⟩ := exists_reports (1 / 100 : ℚ) none hfirst
  have hsignificant : f.significant = true := haccepted.mpr (by decide +kernel)
  have hle := (hagrees f hf htested).mp hsignificant
  rw [hadjusted, StepUp.adjusted_le_iff hfirst] at hle
  revert hle
  decide +kernel

end Postmortem

end Sentinel
