import Mathlib.Combinatorics.SimpleGraph.Connectivity.Connected
import Mathlib.Data.Finset.Card
import Mathlib.Logic.Relation
import Sentinel.Support.Dict

/-!
# Union-find with path halving

A forest is the dictionary of its parents, a root being its own parent.  `find`
climbs to a root and, on the way, hangs what it passes under its grandparent;
`union` hangs one root under another.  The loop of `find` is bounded by a fuel,
and a forest of `n` elements never needs more than `n`.
-/

namespace Sentinel

namespace UnionFind

variable {α : Type*} [DecidableEq α]

/-- The parent of `x`; what is not in the forest is its own root. -/
def parentOf (parent : Dict α α) (x : α) : α := parent.getD x x

/-- Climb from `x` to its root, halving the path. -/
def find : ℕ → Dict α α → α → Option (α × Dict α α)
  | 0, _, _ => none
  | fuel + 1, parent, x =>
      if parentOf parent x = x then some (x, parent)
      else
        let halved := parent.set x (parentOf parent (parentOf parent x))
        find fuel halved (parentOf halved x)

/-- Hang the root of `b` under the root of `a`. -/
def union (fuel : ℕ) (parent : Dict α α) (a b : α) : Option (Dict α α) := do
  let (ra, parent) ← find fuel parent a
  let (rb, parent) ← find fuel parent b
  if ra ≠ rb then pure (parent.set rb ra) else pure parent

theorem parentOf_set (parent : Dict α α) (k v x : α) :
    parentOf (parent.set k v) x = if x = k then v else parentOf parent x := by
  rw [parentOf, Dict.getD, Dict.get?_set]
  split_ifs with hk
  · rfl
  · rfl

/-! ## Forests -/

/-- `parent` is a forest in which the root of `x` is `root x`, with parents
ranked below their children. -/
structure IsForest (parent : Dict α α) (root : α → α) (rank : α → ℕ) : Prop where
  root_parent : ∀ x, root (parentOf parent x) = root x
  root_of_fixed : ∀ x, parentOf parent x = x → root x = x
  descends : ∀ x, parentOf parent x ≠ x → rank (parentOf parent x) < rank x
  closed : ∀ x ∈ parent.keys, parentOf parent x ∈ parent.keys

namespace IsForest

variable {parent : Dict α α} {root : α → α} {rank : α → ℕ}

theorem rank_parent_le (h : IsForest parent root rank) (x : α) :
    rank (parentOf parent x) ≤ rank x := by
  by_cases hx : parentOf parent x = x
  · rw [hx]
  · exact (h.descends x hx).le

theorem climb (h : IsForest parent root rank) {P : α → Prop}
    (hroot : ∀ x, parentOf parent x = x → P x)
    (hstep : ∀ x, P (parentOf parent x) → P x) (x : α) : P x := by
  induction hr : rank x using Nat.strong_induction_on generalizing x with
  | _ r ih =>
      by_cases hx : parentOf parent x = x
      · exact hroot x hx
      · exact hstep x (ih _ (hr ▸ h.descends x hx) _ rfl)

theorem parentOf_root (h : IsForest parent root rank) (x : α) :
    parentOf parent (root x) = root x := by
  refine h.climb (P := fun x => parentOf parent (root x) = root x) ?_ ?_ x
  · intro x hx
    rw [h.root_of_fixed x hx, hx]
  · intro x ih
    rwa [h.root_parent x] at ih

theorem root_root (h : IsForest parent root rank) (x : α) : root (root x) = root x :=
  h.root_of_fixed _ (h.parentOf_root x)

theorem root_mem (h : IsForest parent root rank) (x : α) (hx : x ∈ parent.keys) :
    root x ∈ parent.keys := by
  refine h.climb (P := fun x => x ∈ parent.keys → root x ∈ parent.keys) ?_ ?_ x hx
  · intro x hfix hmem
    rwa [h.root_of_fixed x hfix]
  · intro x ih hmem
    rw [← h.root_parent x]
    exact ih (h.closed x hmem)

theorem halve (h : IsForest parent root rank) {x : α} (hx : x ∈ parent.keys)
    (hne : parentOf parent x ≠ x) :
    IsForest (parent.set x (parentOf parent (parentOf parent x))) root rank where
  root_parent y := by
    rw [parentOf_set]
    split_ifs with hy
    · rw [hy, h.root_parent, h.root_parent]
    · exact h.root_parent y
  root_of_fixed y hy := by
    rw [parentOf_set] at hy
    split_ifs at hy with hyx
    · have hlt := h.descends x hne
      have hle := h.rank_parent_le (parentOf parent x)
      rw [hy, hyx] at hle
      exact absurd hlt (not_lt.mpr hle)
    · exact h.root_of_fixed y hy
  descends y hy := by
    rw [parentOf_set] at hy ⊢
    split_ifs at hy ⊢ with hyx
    · rw [hyx]
      exact (h.rank_parent_le _).trans_lt (h.descends x hne)
    · exact h.descends y hy
  closed y hy := by
    rw [Dict.keys_set_of_mem hx] at hy ⊢
    rw [parentOf_set]
    split_ifs with hyx
    · exact h.closed _ (h.closed _ hx)
    · exact h.closed y hy

/-- The elements ranked below `x`, which bound the climb from `x`. -/
def below (parent : Dict α α) (rank : α → ℕ) (x : α) : Finset α :=
  parent.keys.toFinset.filter fun y => rank y < rank x

theorem card_below_lt_of_rank_lt {x y : α} (hy : y ∈ parent.keys) (hlt : rank y < rank x) :
    (below parent rank y).card < (below parent rank x).card := by
  refine Finset.card_lt_card (Finset.ssubset_iff_of_subset ?_ |>.mpr ⟨y, ?_, ?_⟩)
  · intro z hz
    simp only [below, Finset.mem_filter] at hz ⊢
    exact ⟨hz.1, hz.2.trans hlt⟩
  · simp [below, hy, hlt]
  · simp [below]

theorem card_below_lt_length {x : α} (hx : x ∈ parent.keys) :
    (below parent rank x).card < parent.keys.length := by
  have hself : x ∉ below parent rank x := by simp [below]
  have hssub : below parent rank x ⊂ parent.keys.toFinset :=
    (Finset.ssubset_iff_of_subset (Finset.filter_subset _ _)).mpr
      ⟨x, List.mem_toFinset.mpr hx, hself⟩
  exact (Finset.card_lt_card hssub).trans_le (List.toFinset_card_le _)

theorem exists_find (fuel : ℕ) (h : IsForest parent root rank) {x : α}
    (hx : x ∈ parent.keys) (hfuel : (below parent rank x).card < fuel) :
    ∃ parent', find fuel parent x = some (root x, parent') ∧
      IsForest parent' root rank ∧ parent'.keys = parent.keys := by
  induction fuel generalizing parent x with
  | zero => exact absurd hfuel (Nat.not_lt_zero _)
  | succ fuel ih =>
      by_cases hfix : parentOf parent x = x
      · exact ⟨parent, by rw [find, if_pos hfix, h.root_of_fixed x hfix], h, rfl⟩
      · have hhalve := h.halve hx hfix
        have hmem := h.closed _ (h.closed _ hx)
        have hroot : root (parentOf parent (parentOf parent x)) = root x := by
          rw [h.root_parent, h.root_parent]
        generalize hgrand : parentOf parent (parentOf parent x) = grand at *
        have hkeys := Dict.keys_set_of_mem hx grand
        have hat : parentOf (parent.set x grand) x = grand := by
          rw [parentOf_set, if_pos rfl]
        have hlt : rank grand < rank x := hgrand ▸
          (h.rank_parent_le _).trans_lt (h.descends x hfix)
        have hbelow : (below (parent.set x grand) rank grand).card < fuel := by
          have : (below parent rank grand).card < (below parent rank x).card :=
            card_below_lt_of_rank_lt hmem hlt
          unfold below at this hfuel ⊢
          rw [hkeys]
          omega
        obtain ⟨parent', hrun, hforest, hkeep⟩ :=
          ih hhalve (hkeys ▸ hmem) hbelow
        refine ⟨parent', ?_, hforest, hkeep.trans hkeys⟩
        rw [find, if_neg hfix]
        simp only [hgrand, hat, hrun, hroot]

/-- `union` merges the two classes and leaves the others alone. -/
def merge (root : α → α) (a b x : α) : α := if root x = root b then root a else root x

theorem merge_of_eq {a b : α} (hab : root a = root b) : merge root a b = root := by
  funext x
  rw [merge]
  split_ifs with hx
  · exact hab.trans hx.symm
  · rfl

theorem hang (h : IsForest parent root rank) {a b : α} (ha : a ∈ parent.keys)
    (hb : b ∈ parent.keys) (hab : root a ≠ root b) :
    IsForest (parent.set (root b) (root a)) (merge root a b)
      fun x => if root x = root b then rank x + rank (root a) + 1 else rank x where
  root_parent y := by
    rw [parentOf_set]
    split_ifs with hy
    · simp [merge, hy, h.root_root]
    · simp [merge, h.root_parent]
  root_of_fixed y hy := by
    rw [parentOf_set] at hy
    split_ifs at hy with hyb
    · exact absurd (hy.trans hyb) hab
    · have hroot := h.root_of_fixed y hy
      rw [merge, hroot, if_neg hyb]
  descends y hy := by
    rw [parentOf_set] at hy ⊢
    by_cases hyb : y = root b
    · simp only [hyb, h.root_root, if_neg hab, if_true]
      omega
    · simp only [if_neg hyb, h.root_parent] at hy ⊢
      have hlt := h.descends y hy
      split_ifs
      · omega
      · exact hlt
  closed y hy := by
    rw [Dict.keys_set_of_mem (h.root_mem b hb)] at hy ⊢
    rw [parentOf_set]
    split_ifs with hyb
    · exact h.root_mem a ha
    · exact h.closed y hy

theorem exists_union {fuel : ℕ} (h : IsForest parent root rank) {a b : α}
    (ha : a ∈ parent.keys) (hb : b ∈ parent.keys) (hfuel : parent.keys.length ≤ fuel) :
    ∃ parent' rank', union fuel parent a b = some parent' ∧
      IsForest parent' (merge root a b) rank' ∧ parent'.keys = parent.keys := by
  obtain ⟨p₁, hfind₁, h₁, hkeys₁⟩ :=
    h.exists_find fuel ha ((card_below_lt_length ha).trans_le hfuel)
  have hb₁ : b ∈ p₁.keys := hkeys₁ ▸ hb
  obtain ⟨p₂, hfind₂, h₂, hkeys₂⟩ :=
    h₁.exists_find fuel hb₁ ((card_below_lt_length hb₁).trans_le (hkeys₁ ▸ hfuel))
  have hkeys : p₂.keys = parent.keys := hkeys₂.trans hkeys₁
  by_cases hab : root a = root b
  · refine ⟨p₂, rank, ?_, ?_, hkeys⟩
    · simp [union, hfind₁, hfind₂, hab]
    · rwa [merge_of_eq hab]
  · refine ⟨p₂.set (root b) (root a), _, ?_,
      h₂.hang (hkeys ▸ ha) (hkeys ▸ hb) hab, ?_⟩
    · simp [union, hfind₁, hfind₂, hab]
    · rw [Dict.keys_set_of_mem (h₂.root_mem b (hkeys ▸ hb)), hkeys]

end IsForest

/-! ## Classes -/

def Joins (root : α → α) (pairs : List (α × α)) : Prop :=
  ∀ x y, root x = root y ↔ Relation.EqvGen (fun a b => (a, b) ∈ pairs) x y

omit [DecidableEq α] in
theorem joins_nil : Joins (id : α → α) [] := by
  intro x y
  constructor
  · intro hxy
    obtain rfl : x = y := hxy
    exact .refl x
  · intro hxy
    induction hxy with
    | rel x y h => exact absurd h List.not_mem_nil
    | refl x => rfl
    | symm x y _ ih => exact ih.symm
    | trans x y z _ _ ih₁ ih₂ => exact ih₁.trans ih₂

theorem merge_eq_of_eq {root : α → α} (a b : α) {x y : α} (h : root x = root y) :
    IsForest.merge root a b x = IsForest.merge root a b y := by
  rw [IsForest.merge, IsForest.merge, h]

theorem Joins.merge {root : α → α} {pairs : List (α × α)} (h : Joins root pairs) (a b : α) :
    Joins (IsForest.merge root a b) (pairs ++ [(a, b)]) := by
  intro x y
  have hold : ∀ {u v}, root u = root v →
      Relation.EqvGen (fun c d => (c, d) ∈ pairs ++ [(a, b)]) u v := by
    intro u v huv
    exact Relation.EqvGen.mono (fun c d hcd => List.mem_append_left _ hcd) u v ((h u v).mp huv)
  have hnew : Relation.EqvGen (fun c d => (c, d) ∈ pairs ++ [(a, b)]) a b :=
    .rel _ _ (by simp)
  constructor
  · intro hxy
    unfold IsForest.merge at hxy
    split_ifs at hxy with hx hy hy
    · exact hold (hx.trans hy.symm)
    · exact (hold hx).trans _ _ _ ((hnew.symm _ _).trans _ _ _ (hold hxy))
    · exact (hold hxy).trans _ _ _ (hnew.trans _ _ _ (hold hy.symm))
    · exact hold hxy
  · intro hxy
    induction hxy with
    | rel u v huv =>
        rcases List.mem_append.mp huv with hin | hin
        · exact merge_eq_of_eq a b ((h u v).mpr (.rel _ _ hin))
        · obtain ⟨rfl, rfl⟩ : u = a ∧ v = b := by simpa using hin
          by_cases huv : root u = root v
          · rw [IsForest.merge_of_eq huv, huv]
          · simp [IsForest.merge, huv]
    | refl u => rfl
    | symm u v _ ih => exact ih.symm
    | trans u v w _ _ ih₁ ih₂ => exact ih₁.trans ih₂

def unionAll (fuel : ℕ) (parent : Dict α α) (pairs : List (α × α)) : Option (Dict α α) :=
  pairs.foldlM (fun parent ab => union fuel parent ab.1 ab.2) parent

theorem isForest_singletons {parent : Dict α α} (h : ∀ x, parentOf parent x = x) :
    IsForest parent id fun _ => 0 where
  root_parent x := h x
  root_of_fixed x _ := rfl
  descends x hx := absurd (h x) hx
  closed x hx := by rwa [h x]

theorem exists_unionAll {parent : Dict α α} (hsingle : ∀ x, parentOf parent x = x)
    {fuel : ℕ} (hfuel : parent.keys.length ≤ fuel) (pairs : List (α × α))
    (hmem : ∀ ab ∈ pairs, ab.1 ∈ parent.keys ∧ ab.2 ∈ parent.keys) :
    ∃ parent' root rank, unionAll fuel parent pairs = some parent' ∧
      IsForest parent' root rank ∧ parent'.keys = parent.keys ∧ Joins root pairs := by
  induction pairs using List.reverseRecOn with
  | nil => exact ⟨parent, id, _, rfl, isForest_singletons hsingle, rfl, joins_nil⟩
  | append_singleton pairs ab ih =>
      obtain ⟨p, root, rank, hrun, hforest, hkeys, hjoins⟩ :=
        ih fun cd hcd => hmem cd (List.mem_append_left _ hcd)
      obtain ⟨ha, hb⟩ := hmem ab (by simp)
      obtain ⟨p', rank', hunion, hforest', hkeys'⟩ :=
        hforest.exists_union (hkeys ▸ ha) (hkeys ▸ hb) (hkeys ▸ hfuel)
      refine ⟨p', _, rank', ?_, hforest', hkeys'.trans hkeys, hjoins.merge ab.1 ab.2⟩
      rw [unionAll, List.foldlM_append, ← unionAll, hrun]
      simp [hunion]

/-! ## Connected components -/

theorem eqvGen_iff_reachable {r : α → α → Prop} {x y : α} :
    Relation.EqvGen r x y ↔ (SimpleGraph.fromRel r).Reachable x y := by
  constructor
  · intro h
    induction h with
    | rel x y hr =>
        by_cases hxy : x = y
        · exact hxy ▸ .refl _
        · exact (SimpleGraph.Adj.reachable
            ((SimpleGraph.fromRel_adj r x y).mpr ⟨hxy, .inl hr⟩))
    | refl x => exact .refl x
    | symm x y _ ih => exact ih.symm
    | trans x y z _ _ ih₁ ih₂ => exact ih₁.trans ih₂
  · rintro ⟨walk⟩
    induction walk with
    | nil => exact .refl _
    | cons hadj _ ih =>
        refine Relation.EqvGen.trans _ _ _ ?_ ih
        rcases ((SimpleGraph.fromRel_adj r _ _).mp hadj).2 with hr | hr
        · exact .rel _ _ hr
        · exact .symm _ _ (.rel _ _ hr)

end UnionFind

end Sentinel
