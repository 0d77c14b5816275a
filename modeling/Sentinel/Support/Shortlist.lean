import Mathlib.Algebra.BigOperators.Group.List.Lemmas
import Mathlib.Algebra.Order.Field.Basic
import Mathlib.Data.List.Count
import Mathlib.Data.List.Sort
import Mathlib.Data.Set.Function

/-!
# Shortlists

The first `k` of a list in order, and what one more candidate does to their product:
it brings its own weight where it is among the first `k`, and moves the last of them
out.

The rank of a position is how many positions before it are marked.  Ranks number
the marked positions without a gap, and what is made of the marked elements
stands at their ranks.
-/

namespace Sentinel
namespace Ranks

variable {α β : Type*}

/-- How many marked positions are before `i`. -/
def rank (q : α → Bool) (l : List α) (i : ℕ) : ℕ := (l.take i).countP q

theorem getElem_iff_lt_countP {r : α → α → Prop} {l : List α} (hl : l.Pairwise r) {q : α → Bool}
    (hq : ∀ a b, r a b → q b = true → q a = true) {m : ℕ} (hm : m < l.length) :
    q l[m] = true ↔ m < l.countP q := by
  induction l generalizing m with
  | nil => cases hm
  | cons a l ih =>
    obtain ⟨hleast, hl⟩ := List.pairwise_cons.1 hl
    by_cases ha : q a = true
    · rw [List.countP_cons_of_pos ha]
      rcases m with - | m
      · exact iff_of_true ha (Nat.succ_pos _)
      · rw [List.getElem_cons_succ, ih hl, Nat.succ_lt_succ_iff]
    · have hnone : ∀ b ∈ a :: l, ¬ q b = true := by
        intro b hb hqb
        rcases List.mem_cons.1 hb with rfl | hb
        · exact ha hqb
        · exact ha (hq a b (hleast b hb) hqb)
      rw [List.countP_eq_zero.2 hnone]
      exact iff_of_false (hnone _ (List.getElem_mem hm)) (Nat.not_lt_zero m)

theorem rank_cons_succ (q : α → Bool) (a : α) (l : List α) (i : ℕ) :
    rank q (a :: l) (i + 1) = (if q a then 1 else 0) + rank q l i := by
  rw [rank, List.take_succ_cons, List.countP_cons, rank, Nat.add_comm]

def Marked (q : α → Bool) (l : List α) : Set ℕ := {i | ∃ a, l[i]? = some a ∧ q a = true}

theorem rank_mono (q : α → Bool) (l : List α) {i j : ℕ} (h : i ≤ j) :
    rank q l i ≤ rank q l j := (List.take_sublist_take_left h).countP_le

theorem rank_succ {q : α → Bool} {l : List α} {i : ℕ} (h : i ∈ Marked q l) :
    rank q l (i + 1) = rank q l i + 1 := by
  obtain ⟨a, ha, hq⟩ := h
  rw [rank, List.take_add_one, ha, List.countP_append, rank]
  simp [hq]

theorem rank_lt {q : α → Bool} {l : List α} {i j : ℕ} (hi : i ∈ Marked q l) (h : i < j) :
    rank q l i < rank q l j := by
  have hnext := rank_mono q l (show i + 1 ≤ j from h)
  rw [rank_succ hi] at hnext
  omega

theorem rank_lt_countP {q : α → Bool} {l : List α} {i : ℕ} (hi : i ∈ Marked q l) :
    rank q l i < l.countP q := by
  obtain ⟨a, ha, -⟩ := id hi
  have hlast := rank_lt hi (List.getElem?_eq_some_iff.mp ha).1
  rwa [rank, rank, List.take_length] at hlast

theorem exists_rank_eq {q : α → Bool} {l : List α} {p : ℕ} (h : p < l.countP q) :
    ∃ i ∈ Marked q l, rank q l i = p := by
  induction l generalizing p with
  | nil => cases h
  | cons a l ih =>
    rw [List.countP_cons] at h
    by_cases hq : q a = true
    · rcases p with _ | p
      · exact ⟨0, ⟨a, rfl, hq⟩, rfl⟩
      · rw [if_pos hq] at h
        obtain ⟨i, ⟨b, hb, hqb⟩, hi⟩ := ih (show p < l.countP q by omega)
        refine ⟨i + 1, ⟨b, hb, hqb⟩, ?_⟩
        rw [rank_cons_succ, if_pos hq, hi, Nat.add_comm]
    · rw [if_neg hq] at h
      obtain ⟨i, ⟨b, hb, hqb⟩, hi⟩ := ih h
      refine ⟨i + 1, ⟨b, hb, hqb⟩, ?_⟩
      rw [rank_cons_succ, if_neg hq, hi, Nat.zero_add]

theorem bijOn_rank (q : α → Bool) (l : List α) :
    Set.BijOn (rank q l) (Marked q l) {p | p < l.countP q} := by
  refine ⟨fun i hi => rank_lt_countP hi, ?_, fun p hp => exists_rank_eq hp⟩
  intro i hi j hj heq
  rcases lt_trichotomy i j with h | h | h
  · exact absurd heq (rank_lt hi h).ne
  · exact h
  · exact absurd heq.symm (rank_lt hj h).ne

theorem getElem?_filterMap_rank {f : α → Option β} {l : List α} {i : ℕ} {a : α} {b : β}
    (ha : l[i]? = some a) (hb : f a = some b) :
    (l.filterMap f)[rank (fun a => (f a).isSome) l i]? = some b := by
  induction l generalizing i with
  | nil => cases ha
  | cons c l ih =>
    rcases i with _ | i
    · obtain rfl := Option.some.inj ha
      rw [List.filterMap_cons_some hb]
      rfl
    · have htail := ih (i := i) ha
      rw [rank_cons_succ]
      rcases hc : f c with _ | d
      · rw [List.filterMap_cons_none hc]
        simpa using htail
      · rw [List.filterMap_cons_some hc, Option.isSome_some, if_pos rfl, Nat.add_comm]
        exact htail

end Ranks
end Sentinel

namespace Shortlist

section

variable {α : Type*}

/-- The one that a further candidate moves out of the first `k`. -/
def last (k : ℕ) (l : List α) : Option α := l[k - 1]?

theorem take_insert_perm {xs ys : List α} {a : α} {k : ℕ} (h : xs.length < k) :
    (a :: (xs ++ ys).take k).Perm ((xs ++ a :: ys).take k ++ (last k (xs ++ ys)).toList) := by
  have hold : (xs ++ ys).take k = xs ++ ys.take (k - xs.length) := by
    rw [List.take_append, List.take_of_length_le h.le]
  have hnew : (xs ++ a :: ys).take k = xs ++ a :: ys.take (k - 1 - xs.length) := by
    rw [List.take_append, List.take_of_length_le h.le, List.take_cons (by omega),
      show k - xs.length - 1 = k - 1 - xs.length by omega]
  have hlast : last k (xs ++ ys) = ys[k - 1 - xs.length]? := by
    rw [last, List.getElem?_append_right (by omega)]
  have hsplit : ys.take (k - xs.length) =
      ys.take (k - 1 - xs.length) ++ ys[k - 1 - xs.length]?.toList := by
    rw [show k - xs.length = k - 1 - xs.length + 1 by omega, List.take_add_one]
  rw [hold, hnew, hlast, hsplit, ← List.append_assoc]
  calc (a :: (xs ++ ys.take (k - 1 - xs.length) ++ ys[k - 1 - xs.length]?.toList)).Perm
        (a :: (xs ++ ys.take (k - 1 - xs.length)) ++ ys[k - 1 - xs.length]?.toList) :=
      List.Perm.refl _
    _ |>.Perm _ := List.Perm.append_right _ List.perm_middle.symm

theorem take_insert_of_le {xs ys : List α} {a : α} {k : ℕ} (h : k ≤ xs.length) :
    (xs ++ a :: ys).take k = (xs ++ ys).take k := by
  rw [List.take_append_of_le_length h, List.take_append_of_le_length h]

/-! ## One candidate more -/

variable (r : α → α → Prop) [DecidableRel r]

def enter (a : Option α) (l : List α) : List α :=
  match a with
  | none => l
  | some a => l.orderedInsert r a

/-- Fewer than `k` of the list come before the candidate. -/
def Leads (k : ℕ) (l : List α) (a : α) : Prop :=
  (l.takeWhile fun b => ¬ r a b).length < k

instance (k : ℕ) (l : List α) (a : α) : Decidable (Leads r k l a) :=
  inferInstanceAs (Decidable (_ < _))

variable {M : Type*} (w : α → M)

section

variable [CommMonoid M]

def lastWeight (k : ℕ) (l : List α) : M := ((last k l).map w).getD 1

/-- What a candidate has of the product: its weight where it is among the first `k`, and
else the weight of the one that stays in. -/
def share (k : ℕ) (l : List α) (a : Option α) : M :=
  match a with
  | none => lastWeight w k l
  | some a => if Leads r k l a then w a else lastWeight w k l

theorem prod_take_enter (k : ℕ) (l : List α) (a : Option α) :
    (((enter r a l).take k).map w).prod * lastWeight w k l =
      share r w k l a * ((l.take k).map w).prod := by
  rcases a with _ | a
  · exact mul_comm _ _
  · have hl : l = (l.takeWhile fun b => ¬ r a b) ++ l.dropWhile fun b => ¬ r a b :=
      List.takeWhile_append_dropWhile.symm
    have henter : enter r (some a) l =
        (l.takeWhile fun b => ¬ r a b) ++ a :: l.dropWhile fun b => ¬ r a b :=
      List.orderedInsert_eq_take_drop r a l
    by_cases hleads : Leads r k l a
    · have hinsert : (a :: ((l.takeWhile fun b => ¬ r a b) ++
          l.dropWhile fun b => ¬ r a b).take k).Perm _ := take_insert_perm hleads
      have hperm := (hinsert.map w).prod_eq
      rw [← henter, ← hl, List.map_cons, List.prod_cons, List.map_append,
        List.prod_append] at hperm
      have hlast : ((last k l).toList.map w).prod = lastWeight w k l := by
        rw [lastWeight]
        rcases last k l with _ | b
        · rfl
        · simp
      rw [share, if_pos hleads, hperm, hlast]
    · have htake : ((l.takeWhile fun b => ¬ r a b) ++ a ::
          l.dropWhile fun b => ¬ r a b).take k = _ := take_insert_of_le (not_lt.mp hleads)
      rw [← henter, ← hl] at htake
      rw [share, if_neg hleads, htake, mul_comm]

end

variable [CommSemiring M] [LinearOrder M] [IsStrictOrderedRing M]

theorem lastWeight_pos {w : α → M} (hw : ∀ a, 0 < w a) (k : ℕ) (l : List α) :
    0 < lastWeight w k l := by
  rw [lastWeight]
  rcases last k l with _ | b
  · exact one_pos
  · exact hw b

theorem prod_pos {w : α → M} (hw : ∀ a, 0 < w a) (l : List α) : 0 < (l.map w).prod := by
  induction l with
  | nil => exact one_pos
  | cons a l ih =>
    rw [List.map_cons, List.prod_cons]
    exact mul_pos (hw a) ih

theorem prod_take_enter_le_iff {w : α → M} (hw : ∀ a, 0 < w a) (k : ℕ) (l : List α)
    (a b : Option α) :
    (((enter r a l).take k).map w).prod ≤ (((enter r b l).take k).map w).prod ↔
      share r w k l a ≤ share r w k l b := by
  rw [← mul_le_mul_iff_of_pos_right (lastWeight_pos hw k l), prod_take_enter, prod_take_enter,
    mul_le_mul_iff_of_pos_right (prod_pos hw _)]

theorem enter_perm (a : Option α) (l : List α) : (enter r a l).Perm (a.toList ++ l) := by
  rcases a with _ | a
  · exact List.Perm.refl l
  · exact List.perm_orderedInsert r a l

theorem pairwise_enter [Std.Total r] [IsTrans α r] (a : Option α) {l : List α}
    (h : l.Pairwise r) : (enter r a l).Pairwise r := by
  rcases a with _ | a
  · exact h
  · exact h.orderedInsert a l

end

end Shortlist
