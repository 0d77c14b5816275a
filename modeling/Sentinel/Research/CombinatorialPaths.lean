import Mathlib.Data.Nat.Choose.Basic
import Sentinel.Research.CrossValidation
import Sentinel.Support.Shortlist

/-!
# Paths of the combinatorial cross-validation

Every split has one result for each group it tests on.  The results of a group
go into a bucket in the order of the splits, and the `p`-th path takes the
`p`-th of every bucket.  Every group is tested on by as many splits, so the
buckets are of one length and no result is dropped or used twice.
-/

namespace Sentinel
namespace CrossValidation

variable {α : Type}

abbrev SplitResult (α : Type) : Type := List ℕ × Dict ℕ α

variable (cv : CombinatorialPurgedCV)

def CombinatorialPurgedCV.nPaths : Except String ℕ :=
  if cv.testGroups - 1 < 0 then .error "k must be a non-negative integer"
  else .ok ((cv.nGroups - 1).choose (cv.testGroups - 1).toNat)

def addResult (perGroup : Dict ℕ α) (buckets : List (List α)) (g : ℕ) :
    Except String (List (List α)) :=
  match perGroup.get? g with
  | none => .ok buckets
  | some r => if g < buckets.length then .ok (buckets.modify g (· ++ [r])) else .error "KeyError"

def addSplit (buckets : List (List α)) (s : SplitResult α) : Except String (List (List α)) :=
  s.1.foldlM (addResult s.2) buckets

/-- The `p`-th path, of the buckets that have a `p`-th result. -/
def pathAt (buckets : List (List α)) (p : ℕ) : List α := buckets.filterMap (·[p]?)

variable (splitResults : List (SplitResult α))

def CombinatorialPurgedCV.assemblePaths : Except String (List (List α)) := do
  let buckets ← splitResults.foldlM addSplit (List.replicate cv.nGroups [])
  let n ← cv.nPaths
  pure (((List.range n).map (pathAt buckets)).filter fun path => path.length = cv.nGroups)

/-! ## Combinations -/

theorem mem_of_mem_combinations {k : ℕ} {l combo : List ℕ} (h : combo ∈ combinations k l) :
    combo.Sublist l := by
  induction l generalizing k combo with
  | nil =>
    rcases k with _ | k
    · obtain rfl := List.mem_singleton.mp h
      exact List.Sublist.slnil
    · cases h
  | cons a l ih =>
    rcases k with _ | k
    · obtain rfl := List.mem_singleton.mp h
      exact List.nil_sublist _
    · rw [combinations, List.mem_append, List.mem_map] at h
      rcases h with ⟨combo', hcombo, rfl⟩ | h
      · exact (ih hcombo).cons_cons a
      · exact (ih h).cons a

theorem length_combinations (k : ℕ) (l : List ℕ) :
    (combinations k l).length = l.length.choose k := by
  induction l generalizing k with
  | nil =>
    rcases k with _ | k
    · rfl
    · rfl
  | cons a l ih =>
    rcases k with _ | k
    · rw [Nat.choose_zero_right]
      rfl
    · rw [combinations, List.length_append, List.length_map, ih, ih, List.length_cons,
        Nat.choose_succ_succ]

theorem countP_mem_combinations {l : List ℕ} {g : ℕ} (hl : l.Nodup) (hg : g ∈ l) (k : ℕ) :
    (combinations (k + 1) l).countP (fun combo => decide (g ∈ combo)) =
      (l.length - 1).choose k := by
  induction l generalizing k with
  | nil => cases hg
  | cons a l ih =>
    obtain ⟨ha, hl⟩ := List.nodup_cons.mp hl
    rw [combinations, List.countP_append, List.countP_map, List.length_cons,
      Nat.add_sub_cancel]
    rcases List.mem_cons.mp hg with rfl | hg
    · have hwith : (combinations k l).countP
          ((fun combo => decide (g ∈ combo)) ∘ (g :: ·)) = l.length.choose k := by
        rw [← length_combinations, List.countP_eq_length]
        intro combo _
        simp
      have hwithout : (combinations (k + 1) l).countP (fun combo => decide (g ∈ combo)) = 0 := by
        rw [List.countP_eq_zero]
        intro combo hcombo
        simpa using fun hmem => ha ((mem_of_mem_combinations hcombo).subset hmem)
      rw [hwith, hwithout, Nat.add_zero]
    · have hne : g ≠ a := ne_of_mem_of_not_mem hg ha
      have hwith : (fun combo => decide (g ∈ combo)) ∘ (a :: ·) =
          fun combo : List ℕ => decide (g ∈ combo) := by
        funext combo
        simp [hne]
      have hpos : 0 < l.length := List.length_pos_of_mem hg
      rw [hwith, ih hl hg]
      rcases k with _ | k
      · simp [combinations]
      · rw [ih hl hg, ← Nat.choose_succ_succ]
        exact congrArg (·.choose (k + 1)) (Nat.sub_add_cancel hpos)

/-! ## The buckets -/

def resultOf (g : ℕ) (s : SplitResult α) : Option α := if g ∈ s.1 then s.2.get? g else none

def resultsOf (g : ℕ) : List α :=
  splitResults.filterMap (resultOf g)

theorem foldlM_addResult {n : ℕ} {combo : List ℕ} (hnodup : combo.Nodup)
    (hcombo : ∀ g ∈ combo, g < n) (perGroup : Dict ℕ α) (bucket : ℕ → List α) :
    combo.foldlM (addResult perGroup) ((List.range n).map bucket) =
      .ok ((List.range n).map fun g =>
        bucket g ++ (if g ∈ combo then perGroup.get? g else none).toList) := by
  induction combo generalizing bucket with
  | nil => simp [pure, Except.pure]
  | cons a combo ih =>
    obtain ⟨ha, hnodup⟩ := List.nodup_cons.mp hnodup
    obtain ⟨han, hcombo⟩ := List.forall_mem_cons.mp hcombo
    have hstep : addResult perGroup ((List.range n).map bucket) a =
        .ok ((List.range n).map fun g =>
          bucket g ++ (if g = a then perGroup.get? g else none).toList) := by
      rw [addResult]
      rcases hget : perGroup.get? a with _ | r
      · apply congrArg Except.ok
        apply List.map_congr_left
        intro g _
        by_cases hga : g = a
        · rw [if_pos hga, hga, hget, Option.toList_none, List.append_nil]
        · rw [if_neg hga, Option.toList_none, List.append_nil]
      · simp only [List.length_map, List.length_range, if_pos han]
        apply congrArg Except.ok
        apply List.ext_getElem
        · simp
        · intro g hg hg'
          by_cases hga : a = g
          · subst hga
            simp [hget]
          · simp [hga, Ne.symm hga]
    rw [List.foldlM_cons, hstep]
    refine (ih hnodup hcombo _).trans (congrArg Except.ok ?_)
    apply List.map_congr_left
    intro g _
    by_cases hga : g = a
    · subst hga
      simp [ha]
    · simp [hga]

theorem foldlM_addSplit {n : ℕ} {splitResults : List (SplitResult α)}
    (h : ∀ s ∈ splitResults, s.1.Nodup ∧ ∀ g ∈ s.1, g < n) (bucket : ℕ → List α) :
    splitResults.foldlM addSplit ((List.range n).map bucket) =
      .ok ((List.range n).map fun g => bucket g ++ resultsOf splitResults g) := by
  induction splitResults generalizing bucket with
  | nil => simp [resultsOf, pure, Except.pure]
  | cons s splitResults ih =>
    obtain ⟨⟨hnodup, hgroups⟩, htail⟩ := List.forall_mem_cons.mp h
    rw [List.foldlM_cons, addSplit, foldlM_addResult hnodup hgroups]
    refine (ih htail _).trans (congrArg Except.ok ?_)
    apply List.map_congr_left
    intro g _
    rw [List.append_assoc, resultsOf, resultsOf, List.filterMap_cons, ← resultOf]
    rcases resultOf g s with _ | r
    · rfl
    · rfl

/-! ## The paths -/

theorem map_some_filterMap {β γ : Type} {f : β → Option γ} {l : List β}
    (h : ∀ b ∈ l, (f b).isSome) : (l.filterMap f).map some = l.map f := by
  induction l with
  | nil => rfl
  | cons b l ih =>
    obtain ⟨hb, hl⟩ := List.forall_mem_cons.mp h
    obtain ⟨c, hc⟩ := Option.isSome_iff_exists.mp hb
    rw [List.filterMap_cons_some hc, List.map_cons, List.map_cons, ih hl, hc]

structure Complete (cv : CombinatorialPurgedCV) (splitResults : List (SplitResult α)) : Prop where
  splits : (splitResults.map Prod.fst).Perm
    (combinations cv.testGroups.toNat (List.range cv.nGroups))
  results : ∀ s ∈ splitResults, ∀ g ∈ s.1, (s.2.get? g).isSome

/-- The path that takes the result of the `i`-th split for a group. -/
def slot (g i : ℕ) : ℕ :=
  Ranks.rank (fun s => (resultOf g s).isSome) splitResults i

namespace Complete

variable {cv : CombinatorialPurgedCV} {splitResults : List (SplitResult α)}

theorem sublist (h : Complete cv splitResults) {s : SplitResult α} (hs : s ∈ splitResults) :
    s.1.Sublist (List.range cv.nGroups) :=
  mem_of_mem_combinations (h.splits.mem_iff.mp (List.mem_map_of_mem hs))

theorem isSome_resultOf (h : Complete cv splitResults) {s : SplitResult α}
    (hs : s ∈ splitResults) (g : ℕ) : (resultOf g s).isSome = decide (g ∈ s.1) := by
  rw [resultOf]
  split_ifs with hg
  · rw [h.results s hs g hg]
    simp [hg]
  · simp [hg]

theorem countP_eq (h : Complete cv splitResults) (hk : 1 ≤ cv.testGroups) {g : ℕ}
    (hg : g < cv.nGroups) :
    splitResults.countP (fun s => (resultOf g s).isSome) =
      (cv.nGroups - 1).choose (cv.testGroups - 1).toNat := by
  have hcount : splitResults.countP (fun s => (resultOf g s).isSome) =
      (splitResults.map Prod.fst).countP fun combo => decide (g ∈ combo) := by
    rw [List.countP_map]
    exact List.countP_congr fun s hs => by simp [h.isSome_resultOf hs g]
  have htest : cv.testGroups.toNat = (cv.testGroups - 1).toNat + 1 := by omega
  rw [hcount, h.splits.countP_eq, htest,
    countP_mem_combinations List.nodup_range (List.mem_range.mpr hg), List.length_range]

theorem length_resultsOf (h : Complete cv splitResults) (hk : 1 ≤ cv.testGroups) {g : ℕ}
    (hg : g < cv.nGroups) :
    (resultsOf splitResults g).length = (cv.nGroups - 1).choose (cv.testGroups - 1).toNat := by
  rw [← h.countP_eq hk hg, resultsOf, List.length_filterMap_eq_countP]

theorem pathAt_eq (h : Complete cv splitResults) (hk : 1 ≤ cv.testGroups) {p : ℕ}
    (hp : p < (cv.nGroups - 1).choose (cv.testGroups - 1).toNat) :
    (pathAt ((List.range cv.nGroups).map (resultsOf splitResults)) p).map some =
      (List.range cv.nGroups).map fun g => (resultsOf splitResults g)[p]? := by
  have hsome : ∀ g ∈ List.range cv.nGroups, ((resultsOf splitResults g)[p]?).isSome := by
    intro g hg
    rw [← h.length_resultsOf hk (List.mem_range.mp hg)] at hp
    rw [List.getElem?_eq_getElem hp]
    rfl
  rw [pathAt, List.filterMap_map]
  exact map_some_filterMap hsome

theorem assemblePaths_eq (h : Complete cv splitResults) (hk : 1 ≤ cv.testGroups) :
    cv.assemblePaths splitResults =
      .ok ((List.range ((cv.nGroups - 1).choose (cv.testGroups - 1).toNat)).map
        (pathAt ((List.range cv.nGroups).map (resultsOf splitResults)))) := by
  have hgroups : ∀ s ∈ splitResults, s.1.Nodup ∧ ∀ g ∈ s.1, g < cv.nGroups := by
    intro s hs
    have hsub := h.sublist hs
    exact ⟨hsub.nodup List.nodup_range, fun g hg => List.mem_range.mp (hsub.subset hg)⟩
  have hempty : List.replicate cv.nGroups ([] : List α) =
      (List.range cv.nGroups).map fun _ => [] := by
    rw [List.map_const', List.length_range]
  have hfill := foldlM_addSplit hgroups fun _ => []
  have hpaths : cv.nPaths = .ok ((cv.nGroups - 1).choose (cv.testGroups - 1).toNat) := by
    rw [CombinatorialPurgedCV.nPaths, if_neg (by omega)]
  rw [CombinatorialPurgedCV.assemblePaths, hempty, hfill, hpaths]
  refine congrArg Except.ok ?_
  simp only [List.nil_append]
  -- no path is short, since every bucket is as long as there are paths
  rw [List.filter_eq_self]
  intro path hpath
  obtain ⟨p, hp, rfl⟩ := List.mem_map.mp hpath
  rw [List.mem_range] at hp
  have hlength := congrArg List.length (h.pathAt_eq hk hp)
  rw [List.length_map, List.length_map, List.length_range] at hlength
  exact decide_eq_true hlength

end Complete

/-- The paths take every result of every split once, and every group in its
place. -/
theorem assemblePaths_perfect (hk : 1 ≤ cv.testGroups)
    (h : Complete cv splitResults) :
    ∃ paths, cv.assemblePaths splitResults = .ok paths ∧
      paths.length = (cv.nGroups - 1).choose (cv.testGroups - 1).toNat ∧
      (∀ path ∈ paths, path.length = cv.nGroups) ∧
      ∀ g < cv.nGroups,
        Set.BijOn (slot splitResults g) {i | ∃ s, splitResults[i]? = some s ∧ g ∈ s.1}
          {p | p < paths.length} ∧
        ∀ i s, splitResults[i]? = some s → g ∈ s.1 →
          ∃ path, paths[slot splitResults g i]? = some path ∧ path[g]? = s.2.get? g := by
  have hrow := fun p => h.pathAt_eq hk (p := p)
  refine ⟨_, h.assemblePaths_eq hk, by rw [List.length_map, List.length_range], ?_, ?_⟩
  · intro path hpath
    obtain ⟨p, hp, rfl⟩ := List.mem_map.mp hpath
    have hlength := congrArg List.length (hrow p (List.mem_range.mp hp))
    rwa [List.length_map, List.length_map, List.length_range] at hlength
  · intro g hg
    have hmarked : Ranks.Marked (fun s => (resultOf g s).isSome) splitResults =
        {i | ∃ s, splitResults[i]? = some s ∧ g ∈ s.1} := by
      ext i
      refine exists_congr fun s => and_congr_right fun hs => ?_
      simp only [h.isSome_resultOf (List.mem_of_getElem? hs), decide_eq_true_eq]
    have hbij := Ranks.bijOn_rank (fun s => (resultOf g s).isSome) splitResults
    rw [hmarked, h.countP_eq hk hg] at hbij
    rw [List.length_map, List.length_range]
    refine ⟨hbij, ?_⟩
    intro i s hs hmem
    have hp := hbij.mapsTo ⟨s, hs, hmem⟩
    obtain ⟨r, hr⟩ := Option.isSome_iff_exists.mp (h.results s (List.mem_of_getElem? hs) g hmem)
    have hresult : resultOf g s = some r := by rw [resultOf, if_pos hmem, hr]
    have hplace := Ranks.getElem?_filterMap_rank hs hresult
    have hentry := congrArg (·[g]?) (hrow _ hp)
    simp only [List.getElem?_map, List.getElem?_range hg, Option.map_some] at hentry
    obtain ⟨entry, hentry, hsame⟩ := Option.map_eq_some_iff.mp hentry
    refine ⟨pathAt ((List.range cv.nGroups).map (resultsOf splitResults))
      (slot splitResults g i), ?_, ?_⟩
    · rw [List.getElem?_map, slot, List.getElem?_range hp, Option.map_some]
    · rw [slot, hentry, hsame, hr]
      exact hplace

def twoOfThree : CombinatorialPurgedCV := ⟨3, 2, 0, by norm_num, oneOfThree.three_le⟩

def namedResults : List (SplitResult (ℕ × ℕ)) :=
  [([0, 1], Dict.ofEntries [(0, (0, 0)), (1, (0, 1))]),
    ([0, 2], Dict.ofEntries [(0, (1, 0)), (2, (1, 2))]),
    ([1, 2], Dict.ofEntries [(1, (2, 1)), (2, (2, 2))])]

theorem complete_namedResults : Complete twoOfThree namedResults := ⟨by decide, by decide⟩

theorem assemblePaths_perfect_twoOfThree :
    ∃ paths, twoOfThree.assemblePaths namedResults = .ok paths ∧ paths.length = Nat.choose 2 1 ∧
      (∀ path ∈ paths, path.length = 3) ∧
      ∀ g < 3, Set.BijOn (slot namedResults g) {i | ∃ s, namedResults[i]? = some s ∧ g ∈ s.1}
          {p | p < paths.length} ∧
        ∀ i s, namedResults[i]? = some s → g ∈ s.1 →
          ∃ path, paths[slot namedResults g i]? = some path ∧ path[g]? = s.2.get? g :=
  assemblePaths_perfect twoOfThree namedResults (by decide) complete_namedResults

example : twoOfThree.assemblePaths namedResults =
    .ok [[(0, 0), (0, 1), (1, 2)], [(1, 0), (2, 1), (2, 2)]] := by
  decide

end CrossValidation
end Sentinel
