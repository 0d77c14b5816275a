import Mathlib.Data.List.Induction
import Mathlib.Data.List.Perm.Subperm
import Mathlib.Data.List.Sort
import Mathlib.Order.MinMax
import Mathlib.Algebra.Order.Field.Basic
import Mathlib.Tactic.Positivity
import Sentinel.Support.Shortlist

/-!
# Step-up procedures

Places are ranked by their values.  A step-up procedure accepts every place up to the
last that meets the threshold of its rank, and a running minimum from the largest value
down gives each place the least of the figures at or before its own.
-/

namespace Sentinel

namespace StepUp

/-! ## Ranks -/

def rank (order : List ℕ) (i : ℕ) : ℕ := order.idxOf i + 1

def lastMarked (marks : List Bool) : ℕ :=
  match (marks.zipIdx.filterMap fun mark => if mark.1 then some mark.2 else none).getLast? with
  | some position => position + 1
  | none => 0

theorem lt_lastMarked_iff {marks : List Bool} {position : ℕ} :
    position < lastMarked marks ↔ ∃ later, position ≤ later ∧ marks[later]? = some true := by
  induction marks using List.reverseRecOn with
  | nil => simp [lastMarked]
  | append_singleton marks mark ih =>
    have hmarked : lastMarked (marks ++ [mark]) =
        if mark then marks.length + 1 else lastMarked marks := by
      cases mark with
      | true => simp [lastMarked, List.zipIdx_append]
      | false => simp [lastMarked, List.zipIdx_append]
    rw [hmarked]
    cases mark with
    | true =>
      rw [if_pos rfl, Nat.lt_succ_iff]
      constructor
      · intro h
        exact ⟨marks.length, h, by simp⟩
      · rintro ⟨later, hle, hlater⟩
        have hbound := (List.getElem?_eq_some_iff.mp hlater).1
        rw [List.length_append, List.length_singleton] at hbound
        omega
    | false =>
      rw [if_neg (by simp), ih]
      constructor
      · rintro ⟨later, hle, hlater⟩
        have hbound := (List.getElem?_eq_some_iff.mp hlater).1
        exact ⟨later, hle, by rw [List.getElem?_append_left hbound, hlater]⟩
      · rintro ⟨later, hle, hlater⟩
        by_cases hbound : later < marks.length
        · rw [List.getElem?_append_left hbound] at hlater
          exact ⟨later, hle, hlater⟩
        · rw [List.getElem?_append_right (not_lt.mp hbound)] at hlater
          rcases hrest : later - marks.length with _ | n
          · rw [hrest] at hlater
            simp at hlater
          · rw [hrest] at hlater
            simp at hlater

/-! ## A running minimum from the largest value down -/

section

variable {P : Type} [LinearOrder P]

variable (p : ℕ → P) (m : ℕ)

/-- The places of `p`, largest value first; equal values keep their order. -/
def descending : List ℕ :=
  (List.range m).mergeSort fun i j => decide (p j ≤ p i)

def runningMins (figure : ℕ → P) : P → List ℕ → List (ℕ × P)
  | _, [] => []
  | running, i :: places =>
      (i, min running (figure i)) :: runningMins figure (min running (figure i)) places

/-- What a place is given by a running minimum that begins at `top`. -/
def adjusted (p figure : ℕ → P) (top : P) (m i : ℕ) : P :=
  ((runningMins figure top (descending p m)).lookup i).getD (figure i)

theorem not_pair_sublist_swap {α : Type} {l : List α} (h : l.Nodup) {a b : α}
    (hab : List.Sublist [a, b] l) : ¬List.Sublist [b, a] l := by
  induction l with
  | nil => cases hab
  | cons x l ih =>
    rw [List.nodup_cons] at h
    intro hba
    cases hab with
    | cons _ hab =>
      cases hba with
      | cons _ hba => exact ih h.2 hab hba
      | cons_cons _ hba => exact h.1 (hab.subset (by simp))
    | cons_cons _ hab =>
      cases hba with
      | cons _ hba => exact h.1 (hba.subset (by simp))
      | cons_cons _ hba => exact h.1 (hba.subset (by simp))

theorem pair_sublist_range {m i j : ℕ} (hij : i < j) (hj : j < m) :
    List.Sublist [i, j] (List.range m) := by
  refine List.sublist_of_subperm_of_pairwise (r := (· < ·)) ?_ ?_ List.pairwise_lt_range
  · refine List.subperm_of_subset (by simp [hij.ne]) ?_
    intro k hk
    simp only [List.mem_cons, List.not_mem_nil, or_false] at hk
    rw [List.mem_range]
    omega
  · simpa using hij

theorem descending_perm : (descending p m).Perm (List.range m) :=
  List.mergeSort_perm _ _

theorem pairwise_descending :
    (descending p m).Pairwise fun i j => p j < p i ∨ (p i = p j ∧ i < j) := by
  have hsorted : (descending p m).Pairwise fun i j => p j ≤ p i := by
    refine (List.pairwise_mergeSort ?_ ?_ (List.range m)).imp of_decide_eq_true
    · simpa using fun a b c hab hbc => le_trans hbc hab
    · simpa using fun a b => le_total (p b) (p a)
  have hnodup : (descending p m).Nodup :=
    (descending_perm p m).nodup_iff.mpr List.nodup_range
  rw [List.pairwise_iff_forall_sublist] at hsorted ⊢
  intro i j hij
  rcases (hsorted hij).lt_or_eq with hlt | heq
  · exact Or.inl hlt
  · refine Or.inr ⟨heq.symm, ?_⟩
    by_contra hle
    have hi : i < m := List.mem_range.mp ((descending_perm p m).subset (hij.subset (by simp)))
    rcases (not_lt.mp hle).lt_or_eq with hji | rfl
    · have hstable : List.Sublist [j, i] (descending p m) :=
        List.pair_sublist_mergeSort
          (by simpa using fun a b c hab hbc => le_trans hbc hab)
          (by simpa using fun a b => le_total (p b) (p a)) (by simpa using heq.ge)
          (pair_sublist_range hji hi)
      exact not_pair_sublist_swap hnodup hij hstable
    · exact not_pair_sublist_swap hnodup hij hij

theorem lookup_runningMins {figure : ℕ → P} {before after : List ℕ} {i : ℕ}
    (h : (before ++ i :: after).Nodup) (running : P) :
    ∃ y, (runningMins figure running (before ++ i :: after)).lookup i = some y ∧
      ∀ x, y ≤ x ↔ running ≤ x ∨ ∃ j ∈ before ++ [i], figure j ≤ x := by
  induction before generalizing running with
  | nil => exact ⟨min running (figure i), by simp [runningMins], fun x => by simp⟩
  | cons a before ih =>
    rw [List.cons_append, List.nodup_cons] at h
    have hne : i ≠ a := by
      rintro rfl
      exact h.1 (by simp)
    obtain ⟨y, hy, hleast⟩ := ih h.2 (min running (figure a))
    refine ⟨y, ?_, fun x => ?_⟩
    · rw [List.cons_append, runningMins, List.lookup_cons, beq_eq_false_iff_ne.mpr hne]
      exact hy
    · simp only [hleast x, min_le_iff, List.cons_append, List.mem_cons, exists_eq_or_imp, or_assoc]

theorem adjusted_le_iff {p figure : ℕ → P} {top x : P} {m i : ℕ} (hi : i < m) :
    adjusted p figure top m i ≤ x ↔
      top ≤ x ∨ ∃ j < m, (p i < p j ∨ (p i = p j ∧ j ≤ i)) ∧ figure j ≤ x := by
  have hperm := descending_perm p m
  have hmem : i ∈ descending p m := hperm.mem_iff.mpr (List.mem_range.mpr hi)
  obtain ⟨before, after, hsplit⟩ := List.append_of_mem hmem
  have hnodup : (before ++ i :: after).Nodup := by
    rw [← hsplit]
    exact hperm.nodup_iff.mpr List.nodup_range
  have hpairs := pairwise_descending p m
  rw [hsplit, List.pairwise_append, List.pairwise_cons] at hpairs
  obtain ⟨y, hlookup, hleast⟩ := lookup_runningMins hnodup top
  rw [adjusted, hsplit, hlookup, Option.getD_some, hleast]
  refine or_congr_right ⟨?_, ?_⟩
  · rintro ⟨j, hj, hfigure⟩
    have hjm : j < m := by
      rw [← List.mem_range, ← hperm.mem_iff, hsplit]
      simp only [List.mem_append, List.mem_cons, List.not_mem_nil, or_false] at hj ⊢
      tauto
    refine ⟨j, hjm, ?_, hfigure⟩
    rcases List.mem_append.mp hj with hbefore | hself
    · rcases hpairs.2.2 j hbefore i List.mem_cons_self with hlt | ⟨heq, hlt⟩
      · exact Or.inl hlt
      · exact Or.inr ⟨heq.symm, hlt.le⟩
    · rw [List.mem_singleton] at hself
      exact Or.inr ⟨by rw [hself], hself.le⟩
  · rintro ⟨j, hjm, hearlier, hfigure⟩
    refine ⟨j, ?_, hfigure⟩
    have hj : j ∈ before ++ i :: after := by
      rw [← hsplit]
      exact hperm.mem_iff.mpr (List.mem_range.mpr hjm)
    rcases List.mem_append.mp hj with hbefore | hrest
    · exact List.mem_append_left _ hbefore
    · rcases List.mem_cons.mp hrest with rfl | hafter
      · simp
      · exfalso
        rcases hpairs.2.1.1 j hafter with hlt | ⟨heq, hlt⟩
        · rcases hearlier with hlt' | ⟨heq, -⟩
          · exact lt_asymm hlt hlt'
          · exact hlt.ne heq.symm
        · rcases hearlier with hlt' | ⟨-, hle⟩
          · exact hlt'.ne heq
          · omega

theorem adjusted_le_figure {p figure : ℕ → P} {top : P} {m i : ℕ} (hi : i < m) :
    adjusted p figure top m i ≤ figure i :=
  (adjusted_le_iff hi).mpr (Or.inr ⟨i, hi, Or.inr ⟨rfl, le_rfl⟩, le_rfl⟩)

/-! ## Equal values -/

variable {p scaled threshold : ℕ → P} {top level : P} {m : ℕ}

def TiesLevel (p scaled : ℕ → P) (top : P) (m : ℕ) : Prop :=
  ∀ i < m, ∀ j < m, p i = p j → (∀ k < i, p k ≠ p i) →
    scaled i ≤ scaled j ∨ top ≤ scaled j ∨ ∃ h < m, p j < p h ∧ scaled h ≤ scaled j

theorem adjusted_mono_iff :
    (∀ i < m, ∀ j < m, p i ≤ p j →
      adjusted p (fun k => min top (scaled k)) top m i ≤
        adjusted p (fun k => min top (scaled k)) top m j) ↔
    TiesLevel p scaled top m := by
  constructor
  · intro hmono i hi j hj htie hfirst
    have hle := (hmono i hi j hj htie.le).trans (adjusted_le_figure hj)
    rcases (adjusted_le_iff hi).mp hle with htop | ⟨k, hk, hearlier, hfigure⟩
    · exact Or.inr (Or.inl (htop.trans (min_le_right _ _)))
    · rcases min_le_iff.mp (hfigure.trans (min_le_right _ _)) with htop | hscaled
      · exact Or.inr (Or.inl htop)
      · rcases hearlier with hlt | ⟨heq, hki⟩
        · exact Or.inr (Or.inr ⟨k, hk, htie ▸ hlt, hscaled⟩)
        · rcases hki.lt_or_eq with hlt | rfl
          · exact absurd heq.symm (hfirst k hlt)
          · exact Or.inl hscaled
  · intro hties i hi j hj hle
    rw [adjusted_le_iff hi]
    have hself := le_refl (adjusted p (fun k => min top (scaled k)) top m j)
    rcases (adjusted_le_iff hj).mp hself with htop | ⟨k, hk, hearlier, hfigure⟩
    · exact Or.inl htop
    · have hik : p i ≤ p k := by
        rcases hearlier with hlt | ⟨heq, -⟩
        · exact hle.trans hlt.le
        · exact hle.trans heq.le
      rcases hik.lt_or_eq with hlt | heq
      · exact Or.inr ⟨k, hk, Or.inl hlt, hfigure⟩
      · -- the first place of the value speaks for all of them
        have hsome : ∃ f, p f = p i := ⟨i, rfl⟩
        have hfound := Nat.find_spec hsome
        have hfi : Nat.find hsome ≤ i := Nat.find_min' hsome rfl
        have hfirst : ∀ f < Nat.find hsome, p f ≠ p (Nat.find hsome) := by
          intro f hf
          rw [hfound]
          exact Nat.find_min hsome hf
        rcases hties (Nat.find hsome) (hfi.trans_lt hi) k hk (hfound.trans heq) hfirst with
          hscaled | htop | ⟨h, hh, hlt, hscaled⟩
        · exact Or.inr ⟨Nat.find hsome, hfi.trans_lt hi, Or.inr ⟨hfound.symm, hfi⟩,
            (min_le_min_left top hscaled).trans hfigure⟩
        · exact Or.inl ((le_min le_rfl htop).trans hfigure)
        · exact Or.inr ⟨h, hh, Or.inl (heq ▸ hlt), (min_le_min_left top hscaled).trans hfigure⟩

theorem adjusted_le_level_iff (h : TiesLevel p scaled top m) {i : ℕ} (hi : i < m) :
    adjusted p (fun k => min top (scaled k)) top m i ≤ level ↔
      top ≤ level ∨ ∃ j < m, p i ≤ p j ∧ scaled j ≤ level := by
  constructor
  · intro hle
    rcases (adjusted_le_iff hi).mp hle with htop | ⟨j, hj, hearlier, hfigure⟩
    · exact Or.inl htop
    · rcases min_le_iff.mp hfigure with htop | hscaled
      · exact Or.inl htop
      · rcases hearlier with hlt | ⟨heq, -⟩
        · exact Or.inr ⟨j, hj, hlt.le, hscaled⟩
        · exact Or.inr ⟨j, hj, heq.le, hscaled⟩
  · rintro (htop | ⟨j, hj, hle, hscaled⟩)
    · exact (adjusted_le_iff hi).mpr (Or.inl htop)
    · exact ((adjusted_mono_iff.mpr h i hi j hj hle).trans (adjusted_le_figure hj)).trans
        ((min_le_right _ _).trans hscaled)

/-! ## The step up -/

def marks (p : ℕ → P) (threshold : ℕ → P) (order : List ℕ) : List Bool :=
  order.zipIdx.map fun place => decide (p place.1 ≤ threshold (place.2 + 1))

theorem mem_take_lastMarked_iff {order : List ℕ} (h : order.Perm (List.range m)) {i : ℕ}
    (hi : i < m) :
    i ∈ order.take (lastMarked (marks p threshold order)) ↔
      ∃ j < m, rank order i ≤ rank order j ∧ p j ≤ threshold (rank order j) := by
  have hmem : ∀ {k}, k < m → k ∈ order := fun hk => h.mem_iff.mpr (List.mem_range.mpr hk)
  have hnodup : order.Nodup := h.nodup_iff.mpr List.nodup_range
  rw [List.mem_take_iff_idxOf_lt (hmem hi), lt_lastMarked_iff]
  constructor
  · rintro ⟨position, hle, hmarked⟩
    rw [marks, List.getElem?_map, Option.map_eq_some_iff] at hmarked
    obtain ⟨⟨j, q⟩, hplace, hmeets⟩ := hmarked
    rw [List.getElem?_zipIdx, Option.map_eq_some_iff] at hplace
    obtain ⟨j', hj, heq⟩ := hplace
    obtain ⟨rfl, rfl⟩ := Prod.mk.inj heq
    obtain ⟨hbound, hget⟩ := List.getElem?_eq_some_iff.mp hj
    have hposition : order.idxOf j' = position := by
      rw [← hget, hnodup.idxOf_getElem]
    have hrange : j' < m := List.mem_range.mp (h.mem_iff.mp (List.mem_of_getElem? hj))
    refine ⟨j', hrange, ?_, ?_⟩
    · rw [rank, rank, hposition]
      omega
    · rw [rank, hposition]
      simpa using hmeets
  · rintro ⟨j, hj, hrank, hmeets⟩
    refine ⟨order.idxOf j, ?_, ?_⟩
    · rw [rank, rank] at hrank
      omega
    · have hget : order[order.idxOf j]? = some j := List.getElem?_idxOf (hmem hj)
      rw [marks, List.getElem?_map, List.getElem?_zipIdx, hget]
      simpa [rank] using hmeets

/-! ## An order that sorts the values -/

/-- How many of the `m` values are at most `v`: the last rank a place of value `v` has. -/
def upTo (p : ℕ → P) (m : ℕ) (v : P) : ℕ := (List.range m).countP fun i => p i ≤ v

/-- An order of the `m` places in which no value comes after a larger one; places of one
value may come in any order. -/
structure Sorts (p : ℕ → P) (m : ℕ) (order : List ℕ) : Prop where
  perm : order.Perm (List.range m)
  sorted : order.Pairwise fun i j => p i ≤ p j

variable {order : List ℕ} {i j : ℕ}

theorem rank_pos (order : List ℕ) (i : ℕ) : 0 < rank order i := Nat.succ_pos _

theorem upTo_le (v : P) : upTo p m v ≤ m := by
  have hcount : upTo p m v ≤ (List.range m).length := List.countP_le_length
  rwa [List.length_range] at hcount

theorem rank_le_upTo_iff (h : Sorts p m order) (hi : i < m) {v : P} :
    rank order i ≤ upTo p m v ↔ p i ≤ v := by
  have hmem : i ∈ order := h.perm.mem_iff.mpr (List.mem_range.mpr hi)
  have hplace := Ranks.getElem_iff_lt_countP h.sorted (q := fun k => p k ≤ v)
    (fun a b hab hb => decide_eq_true (hab.trans (of_decide_eq_true hb)))
    (List.idxOf_lt_length_of_mem hmem)
  rw [List.getElem_idxOf, decide_eq_true_iff, h.perm.countP_eq] at hplace
  rw [rank, upTo, Nat.succ_le_iff]
  exact hplace.symm

theorem exists_rank_eq_upTo (h : Sorts p m order) (hi : i < m) :
    ∃ j < m, p j = p i ∧ rank order j = upTo p m (p i) := by
  have hle : rank order i ≤ upTo p m (p i) := (rank_le_upTo_iff h hi).mpr le_rfl
  have hpos := (rank_pos order i).trans_le hle
  have hbound : upTo p m (p i) - 1 < order.length := by
    rw [h.perm.length_eq, List.length_range]
    exact (Nat.sub_lt hpos Nat.one_pos).trans_le (upTo_le _)
  have hj : order[upTo p m (p i) - 1] < m :=
    List.mem_range.mp (h.perm.mem_iff.mp (List.getElem_mem hbound))
  have hrank : rank order order[upTo p m (p i) - 1] = upTo p m (p i) := by
    rw [rank, (h.perm.nodup_iff.mpr List.nodup_range).idxOf_getElem]
    omega
  refine ⟨_, hj, le_antisymm ?_ ?_, hrank⟩
  · exact (rank_le_upTo_iff h hj).mp hrank.le
  · have hself := (rank_le_upTo_iff h hj).mpr le_rfl
    exact (rank_le_upTo_iff h hi).mp (hle.trans (hrank.symm.le.trans hself))

variable {figure : P → ℕ → P}

def TiesReach (p : ℕ → P) (figure : P → ℕ → P) (top : P) (m : ℕ) (order : List ℕ) : Prop :=
  ∀ i < m, (∀ k < i, p k ≠ p i) →
    figure (p i) (rank order i) ≤ figure (p i) (upTo p m (p i)) ∨
    top ≤ figure (p i) (upTo p m (p i)) ∨
    ∃ h < m, p i < p h ∧ figure (p h) (upTo p m (p h)) ≤ figure (p i) (upTo p m (p i))

theorem tiesLevel_iff (h : Sorts p m order)
    (hfigure : ∀ i < m, ∀ r s, 0 < r → r ≤ s → figure (p i) s ≤ figure (p i) r) :
    TiesLevel p (fun i => figure (p i) (rank order i)) top m ↔
      TiesReach p figure top m order := by
  have hlast : ∀ i < m, figure (p i) (upTo p m (p i)) ≤ figure (p i) (rank order i) :=
    fun i hi => hfigure i hi _ _ (rank_pos order i) ((rank_le_upTo_iff h hi).mpr le_rfl)
  constructor
  · intro hties i hi hfirst
    obtain ⟨j, hj, hvalue, hrank⟩ := exists_rank_eq_upTo h hi
    have hreach := hties i hi j hj hvalue.symm hfirst
    simp only [hvalue, hrank] at hreach
    refine hreach.imp_right (Or.imp_right ?_)
    rintro ⟨k, hk, hlarger, hbelow⟩
    exact ⟨k, hk, hlarger, (hlast k hk).trans hbelow⟩
  · intro hties i hi j hj htie hfirst
    have hbest := hlast j hj
    rw [← htie] at hbest
    simp only [← htie]
    rcases hties i hi hfirst with hfirstFigure | htop | ⟨k, hk, hlarger, hbelow⟩
    · exact Or.inl (hfirstFigure.trans hbest)
    · exact Or.inr (Or.inl (htop.trans hbest))
    · obtain ⟨l, hl, hvalue, hrank⟩ := exists_rank_eq_upTo h hk
      refine Or.inr (Or.inr ⟨l, hl, hvalue ▸ hlarger, ?_⟩)
      rw [hvalue, hrank]
      exact hbelow.trans hbest

theorem tiesReach_of_distinct (h : Sorts p m order)
    (hdistinct : ∀ i < m, ∀ j < m, p j = p i → j = i) : TiesReach p figure top m order := by
  intro i hi _
  obtain ⟨j, hj, hvalue, hrank⟩ := exists_rank_eq_upTo h hi
  rw [hdistinct i hi j hj hvalue] at hrank
  exact Or.inl (by rw [hrank])

/-- The two ways of comparing a value with the level round to the same side: where the
value is within the threshold of its last rank, it or a larger one has a figure within the
level, and the other way round. -/
def RoundsAlike (p : ℕ → P) (figure : P → ℕ → P) (threshold : ℕ → P) (level : P) (m : ℕ) :
    Prop :=
  ∀ i < m, (p i ≤ threshold (upTo p m (p i)) →
      ∃ j < m, p i ≤ p j ∧ figure (p j) (upTo p m (p j)) ≤ level) ∧
    (figure (p i) (upTo p m (p i)) ≤ level →
      ∃ j < m, p i ≤ p j ∧ p j ≤ threshold (upTo p m (p j)))

theorem exists_later_meets_iff (h : Sorts p m order)
    (hthreshold : ∀ r s, r ≤ s → s ≤ m → threshold r ≤ threshold s) (hi : i < m) :
    (∃ j < m, rank order i ≤ rank order j ∧ p j ≤ threshold (rank order j)) ↔
      ∃ j < m, p i ≤ p j ∧ p j ≤ threshold (upTo p m (p j)) := by
  constructor
  · rintro ⟨j, hj, hrank, hmeets⟩
    have hself := (rank_le_upTo_iff h hj).mpr (le_refl (p j))
    exact ⟨j, hj, (rank_le_upTo_iff h hi).mp (hrank.trans hself),
      hmeets.trans (hthreshold _ _ hself (upTo_le _))⟩
  · rintro ⟨j, hj, hle, hmeets⟩
    obtain ⟨l, hl, hvalue, hrank⟩ := exists_rank_eq_upTo h hj
    refine ⟨l, hl, ?_, ?_⟩
    · rw [hrank]
      exact (rank_le_upTo_iff h hi).mpr hle
    · rw [hvalue, hrank]
      exact hmeets

theorem exists_larger_within_iff (h : Sorts p m order)
    (hfigure : ∀ i < m, ∀ r s, 0 < r → r ≤ s → figure (p i) s ≤ figure (p i) r) :
    (∃ j < m, p i ≤ p j ∧ figure (p j) (rank order j) ≤ level) ↔
      ∃ j < m, p i ≤ p j ∧ figure (p j) (upTo p m (p j)) ≤ level := by
  constructor
  · rintro ⟨j, hj, hle, hwithin⟩
    exact ⟨j, hj, hle, (hfigure j hj _ _ (rank_pos order j)
      ((rank_le_upTo_iff h hj).mpr le_rfl)).trans hwithin⟩
  · rintro ⟨j, hj, hle, hwithin⟩
    obtain ⟨l, hl, hvalue, hrank⟩ := exists_rank_eq_upTo h hj
    refine ⟨l, hl, hvalue ▸ hle, ?_⟩
    rw [hvalue, hrank]
    exact hwithin

theorem roundsAlike_iff :
    RoundsAlike p figure threshold level m ↔
      ∀ i < m, (∃ j < m, p i ≤ p j ∧ p j ≤ threshold (upTo p m (p j))) ↔
        ∃ j < m, p i ≤ p j ∧ figure (p j) (upTo p m (p j)) ≤ level := by
  constructor
  · intro halike i hi
    constructor
    · rintro ⟨j, hj, hle, hmeets⟩
      obtain ⟨k, hk, hle', hwithin⟩ := (halike j hj).1 hmeets
      exact ⟨k, hk, hle.trans hle', hwithin⟩
    · rintro ⟨j, hj, hle, hwithin⟩
      obtain ⟨k, hk, hle', hmeets⟩ := (halike j hj).2 hwithin
      exact ⟨k, hk, hle.trans hle', hmeets⟩
  · intro halike i hi
    exact ⟨fun hmeets => (halike i hi).mp ⟨i, hi, le_rfl, hmeets⟩,
      fun hwithin => (halike i hi).mpr ⟨i, hi, le_rfl, hwithin⟩⟩

theorem roundsAlike_of_exact (h : ∀ v, ∀ r ≤ m, 0 < r → (v ≤ threshold r ↔ figure v r ≤ level)) :
    RoundsAlike p figure threshold level m := by
  intro i hi
  have hpos : 0 < upTo p m (p i) :=
    List.countP_pos_iff.mpr ⟨i, List.mem_range.mpr hi, decide_eq_true le_rfl⟩
  exact ⟨fun hmeets => ⟨i, hi, le_rfl, (h _ _ (upTo_le _) hpos).mp hmeets⟩,
    fun hwithin => ⟨i, hi, le_rfl, (h _ _ (upTo_le _) hpos).mpr hwithin⟩⟩

theorem accepted_iff (h : Sorts p m order) (hlevel : level < top)
    (hfigure : ∀ i < m, ∀ r s, 0 < r → r ≤ s → figure (p i) s ≤ figure (p i) r)
    (hthreshold : ∀ r s, r ≤ s → s ≤ m → threshold r ≤ threshold s) :
    ((∀ i < m, i ∈ order.take (lastMarked (marks p threshold order)) ↔
        adjusted p (fun k => min top (figure (p k) (rank order k))) top m i ≤ level) ∧
      (∀ i < m, ∀ j < m, p i ≤ p j →
        adjusted p (fun k => min top (figure (p k) (rank order k))) top m i ≤
          adjusted p (fun k => min top (figure (p k) (rank order k))) top m j)) ↔
    TiesReach p figure top m order ∧ RoundsAlike p figure threshold level m := by
  rw [adjusted_mono_iff, and_comm, tiesLevel_iff h hfigure, roundsAlike_iff]
  refine and_congr_right fun hties => forall₂_congr fun i hi => ?_
  rw [mem_take_lastMarked_iff h.perm hi, exists_later_meets_iff h hthreshold hi,
    adjusted_le_level_iff ((tiesLevel_iff h hfigure).mpr hties) hi,
    exists_larger_within_iff h hfigure, or_iff_right hlevel.not_ge]

end

end StepUp

end Sentinel
