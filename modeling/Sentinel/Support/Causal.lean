import Mathlib.Data.List.Dedup
import Mathlib.Data.List.Sort
import Mathlib.Order.Basic

/-!
# Series that read no later row

A series is a function of the row number.  Two series agree up to a row when
they have the same value on it and on every row before it; an operation that
gives agreeing series to agreeing series, for every row, reads no later row.
The operations here are the ones that time series are put together from:
row by row, a delay, a forward recursion, a trailing window, the rows so far,
and a table that rows are grouped into.
-/

namespace Sentinel

namespace Causal

variable {α β γ σ κ : Type*}

/-- The same value on every row up to `i`. -/
def AgreeTo (i : ℕ) (s t : ℕ → α) : Prop := ∀ j ≤ i, s j = t j

variable {i : ℕ} {s t : ℕ → α}

theorem AgreeTo.last (h : AgreeTo i s t) : s i = t i :=
  h i le_rfl

/-! ## Row by row -/

theorem AgreeTo.map (h : AgreeTo i s t) (f : α → β) :
    AgreeTo i (fun j => f (s j)) (fun j => f (t j)) := by
  intro j hj
  simp only [h j hj]

theorem AgreeTo.map₂ {u v : ℕ → β} (h : AgreeTo i s t)
    (h' : AgreeTo i u v) (f : α → β → γ) :
    AgreeTo i (fun j => f (s j) (u j)) (fun j => f (t j) (v j)) := by
  intro j hj
  simp only [h j hj, h' j hj]

/-! ## Delay -/

/-- The series `n` rows later; the first rows have the value `fill`. -/
def delay (n : ℕ) (fill : α) (s : ℕ → α) (i : ℕ) : α :=
  if i < n then fill else s (i - n)

theorem AgreeTo.delay {i : ℕ} {s t : ℕ → α} (h : AgreeTo i s t) (n : ℕ) (fill : α) :
    AgreeTo i (delay n fill s) (delay n fill t) := by
  intro j hj
  rw [Causal.delay, Causal.delay, h (j - n) ((Nat.sub_le j n).trans hj)]

/-! ## Forward recursion -/

def scan (first : α → σ) (step : σ → α → σ) (s : ℕ → α) : ℕ → σ
  | 0 => first (s 0)
  | i + 1 => step (scan first step s i) (s (i + 1))

theorem AgreeTo.scan {i : ℕ} {s t : ℕ → α} (h : AgreeTo i s t) (first : α → σ)
    (step : σ → α → σ) : AgreeTo i (scan first step s) (scan first step t) := by
  intro j
  induction j with
  | zero =>
      intro hj
      simp only [Causal.scan]
      rw [h 0 hj]
  | succ j ih =>
      intro hj
      simp only [Causal.scan]
      rw [ih (Nat.le_of_succ_le hj), h (j + 1) hj]

/-! ## Trailing windows -/

/-- The rows up to `i`, oldest first. -/
def upTo (s : ℕ → α) (i : ℕ) : List α := (List.range (i + 1)).map s

/-- The last `w` rows up to `i`, or all of them when there are fewer. -/
def trailing (w : ℕ) (s : ℕ → α) (i : ℕ) : List α := (upTo s i).drop (i + 1 - w)

theorem AgreeTo.upTo {i : ℕ} {s t : ℕ → α} (h : AgreeTo i s t) :
    AgreeTo i (upTo s) (upTo t) := by
  intro j hj
  apply List.map_congr_left
  intro k hk
  exact h k ((Nat.le_of_lt_succ (List.mem_range.1 hk)).trans hj)

theorem AgreeTo.trailing {i : ℕ} {s t : ℕ → α} (h : AgreeTo i s t) (w : ℕ) :
    AgreeTo i (trailing w s) (trailing w t) := by
  intro j hj
  rw [Causal.trailing, Causal.trailing, h.upTo j hj]

/-! ## Rows of a table -/

/-- A list as a series, with `fill` after its end. -/
def rows (xs : List α) (fill : α) (i : ℕ) : α := xs[i]?.getD fill

theorem agreeTo_rows {xs ys : List α} {i : ℕ} (h : xs.take (i + 1) = ys.take (i + 1))
    (fill : α) : AgreeTo i (rows xs fill) (rows ys fill) := by
  intro j hj
  have hlt : j < i + 1 := Nat.lt_succ_of_le hj
  have hx : xs[j]? = ys[j]? := by
    rw [← List.getElem?_take_of_lt hlt, h, List.getElem?_take_of_lt hlt]
  rw [rows, rows, hx]

theorem take_of_take {xs ys : List α} {i k : ℕ} (h : xs.take (i + 1) = ys.take (i + 1))
    (hk : k ≤ i) : xs.take (k + 1) = ys.take (k + 1) := by
  have hmin : min (k + 1) (i + 1) = k + 1 := min_eq_left (Nat.succ_le_succ hk)
  rw [← hmin, ← List.take_take, h, List.take_take]

/-! ## Groups -/

theorem filter_take {p : α → Bool} {xs : List α} {n : ℕ}
    (h : ∀ x ∈ xs.drop n, p x = false) : (xs.take n).filter p = xs.filter p := by
  have hnone : (xs.drop n).filter p = [] := by
    rw [List.filter_eq_nil_iff]
    intro x hx
    rw [h x hx]
    exact Bool.false_ne_true
  conv_rhs => rw [← List.take_append_drop n xs]
  rw [List.filter_append, hnone, List.append_nil]

theorem filter_eq_of_take {p : α → Bool} {xs ys : List α} {n : ℕ}
    (htake : xs.take n = ys.take n) (hx : ∀ x ∈ xs.drop n, p x = false)
    (hy : ∀ y ∈ ys.drop n, p y = false) : xs.filter p = ys.filter p := by
  rw [← filter_take hx, htake, filter_take hy]

variable [LinearOrder κ]

def sortedKeys (keys : List κ) : List κ := keys.dedup.insertionSort (· ≤ ·)

theorem mem_sortedKeys {keys : List κ} {k : κ} : k ∈ sortedKeys keys ↔ k ∈ keys := by
  rw [sortedKeys, List.mem_insertionSort, List.mem_dedup]

theorem sortedKeys_sortedLT (keys : List κ) : (sortedKeys keys).SortedLT := by
  rw [List.sortedLT_iff_nodup_and_sortedLE]
  constructor
  · exact (List.perm_insertionSort _ _).nodup_iff.2 (List.nodup_dedup keys)
  · exact (List.pairwise_insertionSort (· ≤ ·) keys.dedup).sortedLE

theorem sortedLT_filter {keys : List κ} (h : keys.SortedLT) (p : κ → Bool) :
    (keys.filter p).SortedLT :=
  (h.pairwise.filter p).sortedLT

theorem filter_sortedKeys_congr {keys keys' : List κ} {p : κ → Bool}
    (h : ∀ x, p x = true → (x ∈ keys ↔ x ∈ keys')) :
    (sortedKeys keys).filter p = (sortedKeys keys').filter p := by
  apply List.SortedLT.eq_of_mem_iff
  · exact sortedLT_filter (sortedKeys_sortedLT keys) p
  · exact sortedLT_filter (sortedKeys_sortedLT keys') p
  · intro x
    rw [List.mem_filter, List.mem_filter, mem_sortedKeys, mem_sortedKeys]
    constructor
    · rintro ⟨hx, hp⟩
      exact ⟨(h x hp).1 hx, hp⟩
    · rintro ⟨hx, hp⟩
      exact ⟨(h x hp).2 hx, hp⟩

theorem take_idxOf {keys : List κ} (h : keys.SortedLT) {k : κ} (hk : k ∈ keys) :
    keys.take (keys.idxOf k + 1) = keys.filter (· ≤ k) := by
  induction keys with
  | nil => exact absurd hk List.not_mem_nil
  | cons x xs ih =>
      have hpair : (∀ y ∈ xs, x < y) ∧ xs.Pairwise (· < ·) := List.pairwise_cons.1 h.pairwise
      by_cases hx : x = k
      · have hrest : xs.filter (· ≤ k) = [] := by
          rw [List.filter_eq_nil_iff]
          intro y hy
          rw [decide_eq_true_iff, not_le, ← hx]
          exact hpair.1 y hy
        rw [hx, List.idxOf_cons_self, List.filter_cons_of_pos (by simp), hrest]
        rfl
      · have hkxs : k ∈ xs := (List.mem_cons.1 hk).resolve_left fun hkx => hx hkx.symm
        have hle : x ≤ k := (hpair.1 k hkxs).le
        rw [List.idxOf_cons_ne _ hx, List.take_succ_cons, ih hpair.2.sortedLT hkxs,
          List.filter_cons_of_pos (by simpa using hle)]

theorem idxOf_sortedKeys_congr {keys keys' : List κ} {k : κ}
    (h : ∀ x ≤ k, x ∈ keys ↔ x ∈ keys') (hk : k ∈ keys) :
    (sortedKeys keys).idxOf k = (sortedKeys keys').idxOf k ∧
      (sortedKeys keys).take ((sortedKeys keys).idxOf k + 1) =
        (sortedKeys keys').take ((sortedKeys keys).idxOf k + 1) := by
  have hk' : k ∈ keys' := (h k le_rfl).1 hk
  have hfilter : (sortedKeys keys).filter (· ≤ k) = (sortedKeys keys').filter (· ≤ k) :=
    filter_sortedKeys_congr fun x hx => h x (of_decide_eq_true hx)
  have htake := take_idxOf (sortedKeys_sortedLT keys) (mem_sortedKeys.2 hk)
  have htake' := take_idxOf (sortedKeys_sortedLT keys') (mem_sortedKeys.2 hk')
  have hidx : (sortedKeys keys).idxOf k = (sortedKeys keys').idxOf k := by
    have hlen : ((sortedKeys keys).take ((sortedKeys keys).idxOf k + 1)).length =
        ((sortedKeys keys').take ((sortedKeys keys').idxOf k + 1)).length := by
      rw [htake, htake', hfilter]
    have hlt := List.idxOf_lt_length_of_mem (mem_sortedKeys.2 hk)
    have hlt' := List.idxOf_lt_length_of_mem (mem_sortedKeys.2 hk')
    rw [List.length_take, List.length_take] at hlen
    omega
  refine ⟨hidx, ?_⟩
  rw [htake, hfilter, ← htake', ← hidx]

end Causal

end Sentinel
