import Mathlib.Data.List.Dedup
import Mathlib.Data.List.MinMax
import Sentinel.Core.Money
import Sentinel.Support.Dict

/-!
# Purged cross-validation

A label is an index with the index at which its holding period ends.  A split
tests on blocks of indices and trains on the rest, less the labels that reach
into a block from before (the purge) and those that start in the band after one
(the embargo).

What is left is free of every test label exactly when no test label reaches
beyond the band into an index that is trained on.
-/

namespace Sentinel
namespace CrossValidation

structure Split where
  train : List ℤ
  test : List ℤ
  testGroups : List ℕ
  purged : ℕ
  embargoed : ℕ
  deriving DecidableEq

/-! ## Purge and embargo -/

/-- `t1`: the end of each label, by its start. -/
abbrev LabelEnds : Type := List (ℤ × ℤ)

/-- `spans.get(start, start)`. -/
def labelEnd (t1 : LabelEnds) (start : ℤ) : ℤ := (Dict.ofEntries t1).getD start start

def purgeTrain (trainIdx testIdx : List ℤ) (t1 : LabelEnds) : List ℤ × ℕ :=
  match testIdx.min?, testIdx.max? with
  | some testStart, some testEnd =>
      let kept := trainIdx.filter fun start =>
        !(decide (start ≤ testEnd) && decide (labelEnd t1 start ≥ testStart))
      (kept, trainIdx.length - kept.length)
  | _, _ => (trainIdx, 0)

/-- `apply_embargo`; `times` is the product of an integer and a float. -/
def applyEmbargo (times : ℤ → ℚ → ℚ) (trainIdx testIdx : List ℤ) (nBars : ℤ)
    (embargoPct : ℚ) : List ℤ × ℕ :=
  match testIdx.max? with
  | none => (trainIdx, 0)
  | some testEnd =>
      let width := roundHalfEven (times nBars embargoPct)
      if embargoPct ≤ 0 ∨ width ≤ 0 then (trainIdx, 0)
      else
        let kept := trainIdx.filter fun i =>
          !(decide (testEnd + 1 ≤ i) && decide (i < testEnd + 1 + width))
        (kept, trainIdx.length - kept.length)

/-! ## Splits -/

/-- Where the `k`-th of `n` parts starts: the first ones are longer by one. -/
def partStart (length n k : ℕ) : ℕ := k * (length / n) + min k (length % n)

/-- `np.array_split`. -/
def arraySplit (l : List ℤ) (n : ℕ) : List (List ℤ) :=
  (List.range n).map fun k =>
    (l.drop (partStart l.length n k)).take (partStart l.length n (k + 1) - partStart l.length n k)

/-- `np.setdiff1d`, of a sorted list. -/
def setdiff (l m : List ℤ) : List ℤ := l.dedup.filter fun i => i ∉ m

/-- `itertools.combinations`. -/
def combinations : ℕ → List ℕ → List (List ℕ)
  | 0, _ => [[]]
  | _ + 1, [] => []
  | k + 1, a :: l => (combinations k l).map (a :: ·) ++ combinations (k + 1) l

def sortedIndices (indices : List ℤ) : List ℤ := indices.mergeSort fun i j => i ≤ j

structure PurgedKFold where
  nSplits : ℕ
  embargoPct : ℚ
  two_le : 2 ≤ nSplits
  nonneg : 0 ≤ embargoPct
  lt_half : embargoPct < 1 / 2

/-- `PurgedKFold.__init__`. -/
def PurgedKFold.make (nSplits : ℕ) (embargoPct : ℚ) : Except String PurgedKFold :=
  if hsplits : nSplits < 2 then .error "n_splits must be at least 2"
  else if hpct : 0 ≤ embargoPct ∧ embargoPct < 1 / 2 then
    .ok ⟨nSplits, embargoPct, by omega, hpct.1, hpct.2⟩
  else .error "embargo_pct must be in [0, 0.5)"

/-- `PurgedKFold.split`. -/
def PurgedKFold.split (cv : PurgedKFold) (times : ℤ → ℚ → ℚ) (indices : List ℤ)
    (t1 : LabelEnds) (nBars : ℤ) : List Split :=
  let idx := sortedIndices indices
  (arraySplit idx cv.nSplits).mapIdx fun k test =>
    let purge := purgeTrain (setdiff idx test) test t1
    let embargo := applyEmbargo times purge.1 test nBars cv.embargoPct
    { train := embargo.1, test := test, testGroups := [k], purged := purge.2,
      embargoed := embargo.2 }

structure CombinatorialPurgedCV where
  nGroups : ℕ
  testGroups : ℤ
  embargoPct : ℚ
  fewer : testGroups < nGroups
  three_le : 3 ≤ nGroups

/-- `CombinatorialPurgedCV.__init__`. -/
def CombinatorialPurgedCV.make (nGroups : ℕ) (testGroups : ℤ) (embargoPct : ℚ) :
    Except String CombinatorialPurgedCV :=
  if htest : testGroups ≥ nGroups then .error "test_groups must be smaller than n_groups"
  else if hgroups : nGroups < 3 then .error "n_groups must be at least 3"
  else .ok ⟨nGroups, testGroups, embargoPct, by omega, by omega⟩

def clearBlock (times : ℤ → ℚ → ℚ) (t1 : LabelEnds) (nBars : ℤ) (embargoPct : ℚ)
    (s : List ℤ × ℕ × ℕ) (block : List ℤ) : List ℤ × ℕ × ℕ :=
  let purge := purgeTrain s.1 block t1
  let embargo := applyEmbargo times purge.1 block nBars embargoPct
  (embargo.1, s.2.1 + purge.2, s.2.2 + embargo.2)

def blocksAt (groups : List (List ℤ)) (combo : List ℕ) : List (List ℤ) :=
  combo.map fun g => groups.getD g []

/-- `CombinatorialPurgedCV.split`, with the errors of `combinations` and
`np.concatenate`. -/
def CombinatorialPurgedCV.split (cv : CombinatorialPurgedCV) (times : ℤ → ℚ → ℚ)
    (indices : List ℤ) (t1 : LabelEnds) (nBars : ℤ) : Except String (List Split) :=
  let idx := sortedIndices indices
  let groups := arraySplit idx cv.nGroups
  if cv.testGroups < 0 then .error "r must be non-negative"
  else if cv.testGroups = 0 then .error "need at least one array to concatenate"
  else .ok <| (combinations cv.testGroups.toNat (List.range cv.nGroups)).map fun combo =>
    let test := (blocksAt groups combo).flatten
    let cleared := (blocksAt groups combo).foldl (clearBlock times t1 nBars cv.embargoPct)
      (setdiff idx test, 0, 0)
    { train := cleared.1, test := sortedIndices test, testGroups := combo,
      purged := cleared.2.1, embargoed := cleared.2.2 }

/-! ## What is left to train on -/

def Purged (t1 : LabelEnds) (block : List ℤ) (i : ℤ) : Prop :=
  ∃ testStart ∈ block.min?, ∃ testEnd ∈ block.max?, i ≤ testEnd ∧ testStart ≤ labelEnd t1 i

/-- The index is one of the `width` that follow the block. -/
def Banned (width : ℤ) (block : List ℤ) (i : ℤ) : Prop :=
  ∃ testEnd ∈ block.max?, testEnd < i ∧ i ≤ testEnd + width

def embargoWidth (times : ℤ → ℚ → ℚ) (nBars : ℤ) (embargoPct : ℚ) : ℤ :=
  if embargoPct ≤ 0 then 0 else max 0 (roundHalfEven (times nBars embargoPct))

theorem embargoWidth_nonneg (times : ℤ → ℚ → ℚ) (nBars : ℤ) (embargoPct : ℚ) :
    0 ≤ embargoWidth times nBars embargoPct := by
  rw [embargoWidth]
  split
  · exact le_refl 0
  · exact le_max_left _ _

variable {times : ℤ → ℚ → ℚ} {t1 : LabelEnds} {nBars : ℤ} {embargoPct : ℚ}

theorem mem_purgeTrain {train block : List ℤ} {i : ℤ} :
    i ∈ (purgeTrain train block t1).1 ↔ i ∈ train ∧ ¬ Purged t1 block i := by
  rw [purgeTrain]
  split
  · rename_i testStart testEnd hmin hmax
    simp only [List.mem_filter, Bool.not_eq_true', Bool.and_eq_false_iff, decide_eq_false_iff_not,
      ge_iff_le, not_le, Purged, hmin, hmax, Option.mem_def, Option.some.injEq, exists_eq_left']
    apply and_congr_right
    intro _
    omega
  · rename_i hnone
    have hempty : ¬ Purged t1 block i := by
      rintro ⟨testStart, hmin, testEnd, hmax, -⟩
      exact hnone testStart testEnd hmin hmax
    exact ⟨fun h => ⟨h, hempty⟩, fun h => h.1⟩

theorem mem_applyEmbargo {train block : List ℤ} {i : ℤ} :
    i ∈ (applyEmbargo times train block nBars embargoPct).1 ↔
      i ∈ train ∧ ¬ Banned (embargoWidth times nBars embargoPct) block i := by
  rw [applyEmbargo]
  split
  · rename_i hnone
    simp [Banned, hnone]
  · rename_i testEnd hmax
    dsimp only
    split
    · rename_i hoff
      have hwidth : embargoWidth times nBars embargoPct = 0 := by
        rw [embargoWidth]
        split
        · rfl
        · rename_i hpct
          exact max_eq_left (hoff.resolve_left hpct)
      simp only [Banned, hmax, Option.mem_def, Option.some.injEq, hwidth]
      constructor
      · intro h
        refine ⟨h, ?_⟩
        rintro ⟨e, rfl, hlt, hle⟩
        omega
      · exact fun h => h.1
    · rename_i hon
      rw [not_or, not_le, not_le] at hon
      have hwidth : embargoWidth times nBars embargoPct =
          roundHalfEven (times nBars embargoPct) := by
        rw [embargoWidth, if_neg (not_le.mpr hon.1), max_eq_right hon.2.le]
      simp only [List.mem_filter, Banned, hmax, Option.mem_def, Option.some.injEq, hwidth,
        Bool.not_eq_true', Bool.and_eq_false_iff, decide_eq_false_iff_not, exists_eq_left']
      constructor
      · rintro ⟨h, hout⟩
        exact ⟨h, by omega⟩
      · rintro ⟨h, hout⟩
        exact ⟨h, by omega⟩

theorem mem_foldl_clearBlock {blocks : List (List ℤ)} {s : List ℤ × ℕ × ℕ} {i : ℤ} :
    i ∈ (blocks.foldl (clearBlock times t1 nBars embargoPct) s).1 ↔
      i ∈ s.1 ∧ ∀ b ∈ blocks, ¬ Purged t1 b i ∧
        ¬ Banned (embargoWidth times nBars embargoPct) b i := by
  induction blocks generalizing s with
  | nil => simp
  | cons b blocks ih =>
      rw [List.foldl_cons, ih, clearBlock, mem_applyEmbargo, mem_purgeTrain,
        List.forall_mem_cons]
      tauto

theorem mem_setdiff {l m : List ℤ} {i : ℤ} : i ∈ setdiff l m ↔ i ∈ l ∧ i ∉ m := by
  simp [setdiff]

theorem mem_sortedIndices {indices : List ℤ} {i : ℤ} :
    i ∈ sortedIndices indices ↔ i ∈ indices := List.mem_mergeSort

/-! ## Leaks -/

def Overlap (t1 : LabelEnds) (i j : ℤ) : Prop :=
  ∃ x, i ≤ x ∧ x ≤ labelEnd t1 i ∧ j ≤ x ∧ x ≤ labelEnd t1 j

structure Clean (t1 : LabelEnds) (width : ℤ) (blocks : List (List ℤ)) (s : Split) : Prop where
  apart : ∀ i ∈ s.train, ∀ j ∈ s.test, ¬ Overlap t1 i j
  disjoint : ∀ i ∈ s.train, i ∉ s.test
  banned : ∀ b ∈ blocks, ∀ i ∈ s.train, ¬ Banned width b i

def Contained (t1 : LabelEnds) (width : ℤ) (indices : List ℤ) (blocks : List (List ℤ)) : Prop :=
  ∀ b ∈ blocks, ∀ testEnd ∈ b.max?, ∀ j ∈ b, ∀ i ∈ indices, testEnd + width < i →
    i ≤ labelEnd t1 j → ∃ b' ∈ blocks, Purged t1 b' i ∨ Banned width b' i

structure Leaves (t1 : LabelEnds) (width : ℤ) (indices : List ℤ) (blocks : List (List ℤ))
    (s : Split) : Prop where
  test : ∀ j, j ∈ s.test ↔ ∃ b ∈ blocks, j ∈ b
  train : ∀ i, i ∈ s.train ↔ i ∈ indices ∧ (∀ b ∈ blocks, i ∉ b) ∧
    ∀ b ∈ blocks, ¬ Purged t1 b i ∧ ¬ Banned width b i

theorem le_labelEnd (ht1 : ∀ label ∈ t1, label.1 ≤ label.2) (i : ℤ) : i ≤ labelEnd t1 i := by
  rw [labelEnd, Dict.getD]
  rcases hget : (Dict.ofEntries t1).get? i with - | e
  · exact le_refl i
  · exact ht1 _ (Dict.mem_of_get?_ofEntries hget)

theorem purged_of_mem (ht1 : ∀ label ∈ t1, label.1 ≤ label.2) {block : List ℤ} {i : ℤ}
    (hi : i ∈ block) : Purged t1 block i := by
  obtain ⟨testStart, hmin⟩ := Option.isSome_iff_exists.mp (List.isSome_min?_of_mem hi)
  obtain ⟨testEnd, hmax⟩ := Option.isSome_iff_exists.mp (List.isSome_max?_of_mem hi)
  have hstart : testStart ≤ i := (List.min?_eq_some_iff.mp hmin).2 i hi
  exact ⟨testStart, hmin, testEnd, hmax, (List.max?_eq_some_iff.mp hmax).2 i hi,
    hstart.trans (le_labelEnd ht1 i)⟩

theorem Leaves.clean_iff {width : ℤ} {indices : List ℤ} {blocks : List (List ℤ)} {s : Split}
    (h : Leaves t1 width indices blocks s) (hwidth : 0 ≤ width)
    (ht1 : ∀ label ∈ t1, label.1 ≤ label.2) :
    Clean t1 width blocks s ↔ Contained t1 width indices blocks := by
  constructor
  · intro hclean b hb testEnd hmax j hj i hi hfar hreach
    by_contra hkept
    push Not at hkept
    have htrain : i ∈ s.train := by
      rw [h.train]
      refine ⟨hi, ?_, hkept⟩
      intro b' hb' hmem
      exact (hkept b' hb').1 (purged_of_mem ht1 hmem)
    have hlast : j ≤ testEnd := (List.max?_eq_some_iff.mp hmax).2 j hj
    apply hclean.apart i htrain j ((h.test j).mpr ⟨b, hb, hj⟩)
    exact ⟨i, le_refl i, le_labelEnd ht1 i, by omega, hreach⟩
  · intro hcontained
    refine ⟨?_, ?_, ?_⟩
    · rintro i hi j hj ⟨x, hix, hxi, hjx, hxj⟩
      obtain ⟨hindex, hout, hkept⟩ := (h.train i).mp hi
      obtain ⟨b, hb, hmem⟩ := (h.test j).mp hj
      obtain ⟨testStart, hmin⟩ := Option.isSome_iff_exists.mp (List.isSome_min?_of_mem hmem)
      obtain ⟨testEnd, hmax⟩ := Option.isSome_iff_exists.mp (List.isSome_max?_of_mem hmem)
      have hstart : testStart ≤ j := (List.min?_eq_some_iff.mp hmin).2 j hmem
      -- a label that starts within the block or before it would have been purged
      have hafter : testEnd < i := by
        by_contra hbefore
        apply (hkept b hb).1
        exact ⟨testStart, hmin, testEnd, hmax, not_lt.mp hbefore, by omega⟩
      have hfar : testEnd + width < i := by
        by_contra hnear
        exact (hkept b hb).2 ⟨testEnd, hmax, hafter, not_lt.mp hnear⟩
      obtain ⟨b', hb', hdropped⟩ :=
        hcontained b hb testEnd hmax j hmem i hindex hfar (hix.trans hxj)
      rcases hdropped with hpurged | hbanned
      · exact (hkept b' hb').1 hpurged
      · exact (hkept b' hb').2 hbanned
    · intro i hi hj
      obtain ⟨b, hb, hmem⟩ := (h.test i).mp hj
      exact ((h.train i).mp hi).2.1 b hb hmem
    · intro b hb i hi
      exact (((h.train i).mp hi).2.2 b hb).2

theorem PurgedKFold.leaves_split {cv : PurgedKFold} {indices : List ℤ} {s : Split}
    (h : s ∈ cv.split times indices t1 nBars) :
    Leaves t1 (embargoWidth times nBars cv.embargoPct) indices
      (blocksAt (arraySplit (sortedIndices indices) cv.nSplits) s.testGroups) s := by
  rw [PurgedKFold.split, List.mem_mapIdx] at h
  obtain ⟨k, hk, rfl⟩ := h
  have hblock : blocksAt (arraySplit (sortedIndices indices) cv.nSplits) [k] =
      [(arraySplit (sortedIndices indices) cv.nSplits)[k]] := by
    simp [blocksAt, List.getElem?_eq_getElem hk]
  dsimp only
  rw [hblock]
  refine ⟨?_, ?_⟩
  · intro j
    simp
  · intro i
    simp only [mem_applyEmbargo, mem_purgeTrain, mem_setdiff, mem_sortedIndices,
      List.mem_singleton, forall_eq]
    tauto

theorem CombinatorialPurgedCV.leaves_split {cv : CombinatorialPurgedCV} {indices : List ℤ}
    {splits : List Split} {s : Split} (h : cv.split times indices t1 nBars = .ok splits)
    (hs : s ∈ splits) :
    Leaves t1 (embargoWidth times nBars cv.embargoPct) indices
      (blocksAt (arraySplit (sortedIndices indices) cv.nGroups) s.testGroups) s := by
  rw [CombinatorialPurgedCV.split] at h
  dsimp only at h
  split at h
  · cases h
  · split at h
    · cases h
    · rw [Except.ok.injEq] at h
      subst h
      obtain ⟨combo, -, rfl⟩ := List.mem_map.mp hs
      refine ⟨?_, ?_⟩
      · intro j
        simp only [mem_sortedIndices, List.mem_flatten]
      · intro i
        simp only [mem_foldl_clearBlock, mem_setdiff, mem_sortedIndices, List.mem_flatten,
          not_exists, not_and, and_assoc]

/-- Purged cross-validation leaks nothing exactly when every index that a test
label reaches beyond the embargo is dropped. -/
theorem purged_cv_leaks_nothing_iff (times : ℤ → ℚ → ℚ) (indices : List ℤ) (t1 : LabelEnds)
    (nBars : ℤ) (ht1 : ∀ label ∈ t1, label.1 ≤ label.2) :
    (∀ (cv : PurgedKFold) (s : Split), s ∈ cv.split times indices t1 nBars →
      (Clean t1 (embargoWidth times nBars cv.embargoPct)
          (blocksAt (arraySplit (sortedIndices indices) cv.nSplits) s.testGroups) s ↔
        Contained t1 (embargoWidth times nBars cv.embargoPct) indices
          (blocksAt (arraySplit (sortedIndices indices) cv.nSplits) s.testGroups))) ∧
    ∀ (cv : CombinatorialPurgedCV) (splits : List Split) (s : Split),
      cv.split times indices t1 nBars = .ok splits → s ∈ splits →
      (Clean t1 (embargoWidth times nBars cv.embargoPct)
          (blocksAt (arraySplit (sortedIndices indices) cv.nGroups) s.testGroups) s ↔
        Contained t1 (embargoWidth times nBars cv.embargoPct) indices
          (blocksAt (arraySplit (sortedIndices indices) cv.nGroups) s.testGroups)) := by
  constructor
  · intro cv s hs
    exact (PurgedKFold.leaves_split hs).clean_iff (embargoWidth_nonneg _ _ _) ht1
  · intro cv splits s hsplits hs
    exact (CombinatorialPurgedCV.leaves_split hsplits hs).clean_iff (embargoWidth_nonneg _ _ _) ht1

/-! ## A leak -/

theorem sortedIndices_of_pairwise {l : List ℤ} (h : l.Pairwise fun i j => i ≤ j) :
    sortedIndices l = l := by
  apply List.mergeSort_of_pairwise
  simpa using h

def threeBarLabels : LabelEnds := (List.range 10).map fun i => ((i : ℤ), min (i + 3 : ℤ) 9)

def tenIndices : List ℤ := (List.range 10).map Int.ofNat

def twoFolds : PurgedKFold := ⟨2, 1 / 100, by norm_num, by norm_num, by norm_num⟩

def oneOfThree : CombinatorialPurgedCV := ⟨3, 1, 1 / 100, by norm_num, by norm_num⟩

def exactTimes (n : ℤ) (x : ℚ) : ℚ := n * x

theorem sortedIndices_tenIndices : sortedIndices tenIndices = tenIndices :=
  sortedIndices_of_pairwise (by decide)

/-- The labels at the end of the first block are held into the bars after it,
which are trained on. -/
theorem purged_cv_leaks :
    ∃ (indices : List ℤ) (t1 : LabelEnds) (nBars : ℤ), (∀ label ∈ t1, label.1 ≤ label.2) ∧
      (∃ s ∈ twoFolds.split exactTimes indices t1 nBars, ∃ i ∈ s.train, ∃ j ∈ s.test,
        Overlap t1 i j) ∧
      ∃ splits s, oneOfThree.split exactTimes indices t1 nBars = .ok splits ∧ s ∈ splits ∧
        ∃ i ∈ s.train, ∃ j ∈ s.test, Overlap t1 i j := by
  refine ⟨tenIndices, threeBarLabels, 10, by decide +kernel, ?_, ?_⟩
  · refine ⟨⟨[5, 6, 7, 8, 9], [0, 1, 2, 3, 4], [0], 0, 0⟩, ?_, 5, by decide, 4,
      by decide, 5, by decide, by decide +kernel, by decide, by decide +kernel⟩
    rw [PurgedKFold.split, sortedIndices_tenIndices]
    decide +kernel
  · refine ⟨_, ⟨[4, 5, 6, 7, 8, 9], [0, 1, 2, 3], [0], 0, 0⟩, rfl, ?_, 4,
      by decide, 3, by decide, 4, by decide, by decide +kernel, by decide, by decide +kernel⟩
    rw [List.mem_map]
    refine ⟨[0], by decide, ?_⟩
    have hblock : (blocksAt (arraySplit tenIndices 3) [0]).flatten = [0, 1, 2, 3] := by
      decide +kernel
    have htest : sortedIndices [0, 1, 2, 3] = [0, 1, 2, 3] := sortedIndices_of_pairwise (by decide)
    simp only [sortedIndices_tenIndices, oneOfThree, hblock, htest]
    decide +kernel

/-- Two folds of ten labels that are held for three bars. -/
theorem two_folds_clean_iff :
    Clean threeBarLabels 0 [[0, 1, 2, 3, 4]] ⟨[5, 6, 7, 8, 9], [0, 1, 2, 3, 4], [0], 0, 0⟩ ↔
      Contained threeBarLabels 0 tenIndices [[0, 1, 2, 3, 4]] := by
  have hs : (⟨[5, 6, 7, 8, 9], [0, 1, 2, 3, 4], [0], 0, 0⟩ : Split) ∈
      twoFolds.split exactTimes tenIndices threeBarLabels 10 := by
    rw [PurgedKFold.split, sortedIndices_tenIndices]
    decide +kernel
  have hiff := (purged_cv_leaks_nothing_iff exactTimes tenIndices threeBarLabels 10
    (by decide +kernel)).1 twoFolds _ hs
  have hblock : blocksAt (arraySplit tenIndices 2) [0] = [[0, 1, 2, 3, 4]] := by decide +kernel
  have hwidth : embargoWidth exactTimes 10 (1 / 100) = 0 := by decide +kernel
  rw [sortedIndices_tenIndices] at hiff
  simpa only [twoFolds, hblock, hwidth] using hiff

end CrossValidation
end Sentinel
