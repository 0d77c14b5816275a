import Mathlib.Data.Rat.Defs
import Sentinel.Risk.Exposure
import Sentinel.Support.Grouping
import Sentinel.Support.UnionFind

/-!
# Correlation clusters by union-find

`correlation_clusters` as it runs: the parents it climbs and halves, the pairs
it joins and the groups it collects.  Its clusters are the connected components
of the correlation graph, and they are those of the climbed roots the engine's
model keeps.
-/

namespace Sentinel

open UnionFind

variable (candidates : List String) (correlations : Dict (String × String) Dec) (threshold : Dec)

/-- `list(dict.fromkeys(candidates))`. -/
def distinctNames : List String :=
  (candidates.foldl (fun d n => d.set n ()) (Dict.empty : Dict String Unit)).keys

/-- `abs(corr(a, b)) >= threshold`. -/
def Linked (correlations : Dict (String × String) Dec) (threshold : Dec)
    (ab : String × String) : Prop :=
  threshold ≤ |pairCorrelation correlations ab.1 ab.2|

instance (correlations : Dict (String × String) Dec) (threshold : Dec) :
    DecidablePred (Linked correlations threshold) :=
  fun _ => inferInstanceAs (Decidable (_ ≤ _))

def clusterOf (riskByInstrument : Dict String Dec) (correlations : Dict (String × String) Dec)
    (members : List String) : Cluster where
  instruments := sortedNames members
  totalRisk := (members.map fun m => riskByInstrument.getD m 0).sum
  maxPairwiseCorr :=
    ((orderedPairs members).map fun ab =>
      |pairCorrelation correlations ab.1 ab.2|).foldl max 0

def byRisk (clusters : List Cluster) : List Cluster :=
  clusters.insertionSort fun c d => d.totalRisk ≤ c.totalRisk

/-- `groups[find(n)].append(n)` for every name. -/
def groupNames (fuel : ℕ) (parent : Dict String String) (names : List String) :
    Option (Dict String String × Dict String (List String)) :=
  names.foldlM
    (fun state n => do
      let (root, parent) ← find fuel state.1 n
      pure (parent, state.2.append root n))
    (parent, Dict.empty)

/-- `correlation_clusters` with its pairs taken in the order of `pairs`; nothing
when the parent chase runs out of fuel. -/
def clustersOver (fuel : ℕ) (pairs : List (String × String)) (names : List String)
    (riskByInstrument : Dict String Dec) (correlations : Dict (String × String) Dec)
    (threshold : Dec) : Option (List Cluster) := do
  let parent ← pairs.foldlM
    (fun parent ab =>
      if Linked correlations threshold ab then union fuel parent ab.1 ab.2 else pure parent)
    (names.foldl (fun d n => d.set n n) Dict.empty)
  let (_, groups) ← groupNames fuel parent names
  pure (byRisk (groups.values.map (clusterOf riskByInstrument correlations)))

def linkedPairs : List (String × String) :=
  (orderedPairs (distinctNames candidates)).filter (Linked correlations threshold)

def correlationGraph : SimpleGraph String :=
  SimpleGraph.fromRel fun a b => (a, b) ∈ linkedPairs candidates correlations threshold

/-! ## Names and pairs -/

theorem foldl_set_eq (l : List String) {α : Type} (f : String → α) :
    l.foldl (fun d n => d.set n (f n)) Dict.empty =
      Dict.ofEntries (l.map fun n => (n, f n)) := by
  rw [Dict.ofEntries, List.foldl_map]

theorem nodup_distinctNames : (distinctNames candidates).Nodup :=
  Dict.nodup _

theorem mem_distinctNames {candidates : List String} {n : String} :
    n ∈ distinctNames candidates ↔ n ∈ candidates := by
  rw [distinctNames, foldl_set_eq, ← not_iff_not, ← Dict.get?_eq_none_iff,
    Dict.get?_ofEntries_map]
  simp

theorem mem_of_mem_orderedPairs {names : List String} {ab : String × String}
    (h : ab ∈ orderedPairs names) : ab.1 ∈ names ∧ ab.2 ∈ names := by
  induction names with
  | nil => exact absurd h List.not_mem_nil
  | cons n names ih =>
      rcases List.mem_append.mp h with hhead | htail
      · obtain ⟨b, hb, rfl⟩ := List.mem_map.mp hhead
        exact ⟨List.mem_cons_self, List.mem_cons_of_mem _ hb⟩
      · exact ⟨List.mem_cons_of_mem _ (ih htail).1, List.mem_cons_of_mem _ (ih htail).2⟩

theorem mem_linkedPairs {candidates : List String}
    {correlations : Dict (String × String) Dec} {threshold : Dec} {ab : String × String} :
    ab ∈ linkedPairs candidates correlations threshold ↔
      ab ∈ orderedPairs (distinctNames candidates) ∧ Linked correlations threshold ab := by
  simp [linkedPairs]

theorem mem_iff_of_reachable {candidates : List String}
    {correlations : Dict (String × String) Dec} {threshold : Dec} {n m : String}
    (h : (correlationGraph candidates correlations threshold).Reachable n m) :
    n ∈ distinctNames candidates ↔ m ∈ distinctNames candidates := by
  rw [correlationGraph, ← eqvGen_iff_reachable] at h
  induction h with
  | rel a b hab =>
      have hmem := mem_of_mem_orderedPairs (mem_linkedPairs.mp hab).1
      exact iff_of_true hmem.1 hmem.2
  | refl a => exact Iff.rfl
  | symm a b _ ih => exact ih.symm
  | trans a b c _ _ ih₁ ih₂ => exact ih₁.trans ih₂

/-! ## The run -/

def singletons (names : List String) : Dict String String :=
  names.foldl (fun d n => d.set n n) Dict.empty

theorem parentOf_singletons (names : List String) (x : String) :
    parentOf (singletons names) x = x := by
  rw [parentOf, Dict.getD, singletons, foldl_set_eq, Dict.get?_ofEntries_map]
  split_ifs
  · rfl
  · rfl

theorem keys_singletons {names : List String} (h : names.Nodup) :
    (singletons names).keys = names := by
  have hitems := Dict.items_foldl_set (names.map fun n => (n, n)) Dict.empty
    (by simpa [Dict.keys, Dict.empty, Function.comp_def] using h)
  rw [List.foldl_map] at hitems
  rw [Dict.keys, singletons, hitems]
  simp [Dict.empty, Function.comp_def]

theorem exists_groupNames {fuel : ℕ} {parent : Dict String String} {root : String → String}
    {rank : String → ℕ} (h : IsForest parent root rank) (hfuel : parent.keys.length ≤ fuel)
    (names : List String) (hnames : ∀ n ∈ names, n ∈ parent.keys) :
    ∃ parent', groupNames fuel parent names = some (parent', Dict.groupBy root names) ∧
      IsForest parent' root rank ∧ parent'.keys = parent.keys := by
  induction names using List.reverseRecOn with
  | nil => exact ⟨parent, rfl, h, rfl⟩
  | append_singleton names n ih =>
      obtain ⟨p, hrun, hforest, hkeys⟩ := ih fun m hm => hnames m (List.mem_append_left _ hm)
      have hn : n ∈ p.keys := hkeys ▸ hnames n (by simp)
      obtain ⟨p', hfind, hforest', hkeys'⟩ := hforest.exists_find fuel hn
        ((IsForest.card_below_lt_length hn).trans_le (hkeys ▸ hfuel))
      refine ⟨p', ?_, hforest', hkeys'.trans hkeys⟩
      rw [groupNames, List.foldlM_append, ← groupNames, hrun]
      simp [hfind, Dict.groupBy_concat]

theorem clustersOver_eq {fuel : ℕ} {names : List String} (hnodup : names.Nodup)
    (hfuel : names.length ≤ fuel) {pairs : List (String × String)}
    (hpairs : ∀ ab ∈ pairs, ab.1 ∈ names ∧ ab.2 ∈ names)
    {correlations : Dict (String × String) Dec} {threshold : Dec} {key : String → String}
    (hkey : Joins key (pairs.filter (Linked correlations threshold)))
    (riskByInstrument : Dict String Dec) :
    clustersOver fuel pairs names riskByInstrument correlations threshold =
      some (byRisk ((Dict.groupBy key names).values.map
        (clusterOf riskByInstrument correlations))) := by
  have hkeys := keys_singletons hnodup
  obtain ⟨parent, root, rank, hunion, hforest, hkeep, hjoins⟩ :=
    exists_unionAll (parentOf_singletons names)
      (show (singletons names).keys.length ≤ fuel from hkeys.symm ▸ hfuel)
      (pairs.filter (Linked correlations threshold)) fun ab hab => by
        rw [hkeys]
        exact hpairs ab (List.mem_of_mem_filter hab)
  obtain ⟨parent', hgroup, -, -⟩ :=
    exists_groupNames hforest (hkeep.trans hkeys ▸ hfuel) names fun n hn => by
      rwa [hkeep, hkeys]
  have hvalues : (Dict.groupBy root names).values = (Dict.groupBy key names).values :=
    Dict.values_groupBy_congr (fun m n => (hjoins m n).trans (hkey m n).symm) names
  rw [unionAll, List.foldlM_filter] at hunion
  rw [clustersOver]
  simp only [decide_eq_true_eq] at hunion
  rw [← singletons, hunion]
  simp [hgroup, hvalues]

/-! ## The climbed roots -/

def rootIn (roots : Dict String String) (n : String) : String := roots.getD n n

theorem rootIn_unionRoots (roots : Dict String String) (a : String) {b : String}
    (hb : rootIn roots b ∈ roots.keys) :
    rootIn (unionRoots roots a b) = IsForest.merge (rootIn roots) a b := by
  by_cases hab : rootIn roots a = rootIn roots b
  · rw [IsForest.merge_of_eq hab, unionRoots]
    simp only [rootIn] at hab
    simp [hab]
  · funext x
    have hmap : unionRoots roots a b = roots.mapValues fun r =>
        if r = rootIn roots b then rootIn roots a else r := by
      rw [unionRoots]
      exact if_pos hab
    rw [hmap, IsForest.merge, rootIn, Dict.getD, Dict.get?_mapValues]
    rcases hget : roots.get? x with _ | r
    · have hx : x ≠ rootIn roots b := fun hxb =>
        (Dict.get?_eq_none_iff _ _).mp hget (hxb ▸ hb)
      have hself : rootIn roots x = x := by simp [rootIn, Dict.getD, hget]
      rw [hself, if_neg hx]
      rfl
    · have hself : rootIn roots x = r := by simp [rootIn, Dict.getD, hget]
      rw [hself]
      rfl

theorem joins_foldl_unionRoots {names : List String} (h : names.Nodup)
    (pairs : List (String × String)) (hpairs : ∀ ab ∈ pairs, ab.1 ∈ names ∧ ab.2 ∈ names) :
    let roots := pairs.foldl (fun roots ab => unionRoots roots ab.1 ab.2) (singletons names)
    Joins (rootIn roots) pairs ∧ roots.keys = names ∧ ∀ n ∈ names, rootIn roots n ∈ names := by
  induction pairs using List.reverseRecOn with
  | nil =>
      have hroot : rootIn (singletons names) = id := funext (parentOf_singletons names)
      refine ⟨?_, keys_singletons h, fun n hn => ?_⟩
      · exact hroot ▸ joins_nil
      · exact (congrFun hroot n).symm ▸ hn
  | append_singleton pairs ab ih =>
      obtain ⟨hjoins, hkeys, hmem⟩ := ih fun cd hcd => hpairs cd (List.mem_append_left _ hcd)
      obtain ⟨ha, hb⟩ := hpairs ab (by simp)
      rw [List.foldl_append]
      simp only [List.foldl_cons, List.foldl_nil]
      generalize pairs.foldl (fun roots ab => unionRoots roots ab.1 ab.2) (singletons names) =
        roots at hjoins hkeys hmem ⊢
      have hroot := rootIn_unionRoots roots ab.1 (hkeys ▸ hmem _ hb)
      refine ⟨hroot ▸ hjoins.merge ab.1 ab.2, ?_, fun n hn => ?_⟩
      · rw [← hkeys, unionRoots]
        split_ifs
        · simp [Dict.keys, Dict.mapValues, Function.comp_def]
        · rfl
      · rw [hroot, IsForest.merge]
        split_ifs
        · exact hmem _ ha
        · exact hmem _ hn

theorem joins_clusterRoots {names : List String} (h : names.Nodup)
    (correlations : Dict (String × String) Dec) (threshold : Dec) :
    Joins (rootIn (clusterRoots names correlations threshold))
      ((orderedPairs names).filter (Linked correlations threshold)) := by
  have hjoins := joins_foldl_unionRoots h
    ((orderedPairs names).filter (Linked correlations threshold)) fun ab hab =>
      mem_of_mem_orderedPairs (List.mem_of_mem_filter hab)
  rw [List.foldl_filter] at hjoins
  simp only [decide_eq_true_eq] at hjoins
  exact hjoins.1

def groupsOf : List (List String) :=
  let names := distinctNames candidates
  (Dict.groupBy (rootIn (clusterRoots names correlations threshold)) names).values

theorem joins_groups :
    Joins (rootIn (clusterRoots (distinctNames candidates) correlations threshold))
      (linkedPairs candidates correlations threshold) :=
  joins_clusterRoots (nodup_distinctNames candidates) correlations threshold

theorem mem_group_iff {candidates : List String} {correlations : Dict (String × String) Dec}
    {threshold : Dec} {group : List String}
    (h : group ∈ groupsOf candidates correlations threshold) :
    ∃ n ∈ candidates, ∀ m,
      m ∈ group ↔ (correlationGraph candidates correlations threshold).Reachable n m := by
  obtain ⟨n, hn, rfl⟩ := (Dict.mem_values_groupBy _ _ _).mp h
  refine ⟨n, mem_distinctNames.mp hn, fun m => ?_⟩
  have hroots := joins_groups candidates correlations threshold n m
  rw [eqvGen_iff_reachable] at hroots
  rw [List.mem_filter, decide_eq_true_eq, eq_comm, hroots]
  exact ⟨And.right, fun hreach => ⟨(mem_iff_of_reachable hreach).mp hn, hreach⟩⟩

theorem flatten_groupsOf :
    (groupsOf candidates correlations threshold).flatten.Perm (distinctNames candidates) :=
  Dict.flatten_values_groupBy _ _

/-! ## The clusters -/

theorem byRisk_perm (clusters : List Cluster) : (byRisk clusters).Perm clusters :=
  List.perm_insertionSort _ _

theorem clusterOf_instruments_perm (riskByInstrument : Dict String Dec)
    (correlations : Dict (String × String) Dec) (members : List String) :
    (clusterOf riskByInstrument correlations members).instruments.Perm members :=
  List.perm_insertionSort _ _

/-- The clusters are the connected components of the correlation graph: they
partition the candidates, their risks add up, and the union-find that computes
them terminates with the same clusters whatever the order of the pairs. -/
theorem correlationClusters_components
    (riskByInstrument : Dict String Dec) (correlations : Dict (String × String) Dec)
    (threshold : Dec) :
    let clusters := correlationClusters candidates riskByInstrument correlations threshold
    let graph := correlationGraph candidates correlations threshold
    let names := distinctNames candidates
    (∀ c ∈ clusters, ∃ n ∈ candidates, ∀ m, m ∈ c.instruments ↔ graph.Reachable n m) ∧
      (clusters.flatMap Cluster.instruments).Perm names ∧
      (∀ c ∈ clusters,
        c.totalRisk = (c.instruments.map fun n => riskByInstrument.getD n 0).sum) ∧
      (clusters.map Cluster.totalRisk).sum =
        (names.map fun n => riskByInstrument.getD n 0).sum ∧
      ∀ (fuel : ℕ) (pairs : List (String × String)), names.length ≤ fuel →
        pairs.Perm (orderedPairs names) →
        clustersOver fuel pairs names riskByInstrument correlations threshold =
          some clusters := by
  intro clusters graph names
  have hclusters : clusters.Perm ((groupsOf candidates correlations threshold).map
      (clusterOf riskByInstrument correlations)) := byRisk_perm _
  have hgroup : ∀ c ∈ clusters, ∃ group ∈ groupsOf candidates correlations threshold,
      clusterOf riskByInstrument correlations group = c := fun c hc =>
    List.mem_map.mp (hclusters.mem_iff.mp hc)
  have hrisk : ∀ c ∈ clusters,
      c.totalRisk = (c.instruments.map fun n => riskByInstrument.getD n 0).sum := by
    intro c hc
    obtain ⟨group, -, rfl⟩ := hgroup c hc
    exact (((clusterOf_instruments_perm riskByInstrument correlations group).map _).sum_eq).symm
  have hnames : (clusters.flatMap Cluster.instruments).Perm names := by
    refine (hclusters.flatMap_right _).trans ?_
    rw [List.flatMap_map]
    refine (List.Perm.flatMap_left _ fun group _ =>
      clusterOf_instruments_perm riskByInstrument correlations group).trans ?_
    rw [List.flatMap_id']
    exact flatten_groupsOf candidates correlations threshold
  refine ⟨fun c hc => ?_, hnames, hrisk, ?_, fun fuel pairs hfuel hpairs => ?_⟩
  · obtain ⟨group, hin, rfl⟩ := hgroup c hc
    obtain ⟨n, hn, hmem⟩ := mem_group_iff hin
    exact ⟨n, hn, fun m => mem_sortedNames.trans (hmem m)⟩
  · calc (clusters.map Cluster.totalRisk).sum
        = (clusters.map fun c =>
            (c.instruments.map fun n => riskByInstrument.getD n 0).sum).sum := by
          rw [List.map_congr_left hrisk]
      _ = ((clusters.flatMap Cluster.instruments).map fun n =>
            riskByInstrument.getD n 0).sum := by
          rw [List.map_flatMap, List.flatMap_def, List.sum_flatten, List.map_map]
          rfl
      _ = (names.map fun n => riskByInstrument.getD n 0).sum := (hnames.map _).sum_eq
  · have hkey : Joins (rootIn (clusterRoots names correlations threshold))
        (pairs.filter (Linked correlations threshold)) := by
      intro x y
      have hmem : ∀ ab, ab ∈ pairs.filter (Linked correlations threshold) ↔
          ab ∈ linkedPairs candidates correlations threshold := fun ab =>
        (hpairs.filter _).mem_iff
      simp only [hmem]
      exact joins_groups candidates correlations threshold x y
    exact clustersOver_eq (nodup_distinctNames candidates) hfuel
      (fun ab hab => mem_of_mem_orderedPairs (hpairs.mem_iff.mp hab)) hkey riskByInstrument

end Sentinel
