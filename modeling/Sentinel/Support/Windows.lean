import Mathlib.Data.Int.Range
import Mathlib.Data.List.Sort

/-!
# Lists seen through a window

What is generated from the items of a window, and what the window keeps of that
which is generated from the items of a wider one.
-/

namespace Sentinel
namespace Windows

variable {α β ε : Type}

/-! ## Ranges of integers -/

theorem pairwise_range (a b : ℤ) : (Int.range a b).Pairwise (· < ·) := by
  rw [Int.range, List.pairwise_map]
  exact List.pairwise_lt_range.imp fun hlt => by omega

theorem eq_of_pairwise_lt {l l' : List ℤ} (h : l.Pairwise (· < ·)) (h' : l'.Pairwise (· < ·))
    (hmem : ∀ a, a ∈ l ↔ a ∈ l') : l = l' := by
  have hperm : l.Perm l' :=
    (List.perm_ext_iff_of_nodup (h.imp fun hlt => hlt.ne) (h'.imp fun hlt => hlt.ne)).mpr hmem
  exact hperm.eq_of_pairwise (fun a b _ _ hab hba => absurd hab hba.asymm) h h'

theorem range_eq_filter {a b a' b' : ℤ} (ha : a' ≤ a) (hb : b ≤ b') :
    Int.range a b = (Int.range a' b').filter fun k => a ≤ k ∧ k < b := by
  apply eq_of_pairwise_lt (pairwise_range a b) ((pairwise_range a' b').filter _)
  intro k
  rw [List.mem_filter, Int.mem_range_iff, Int.mem_range_iff, decide_eq_true_iff]
  omega

/-! ## What a window generates -/

theorem filterMap_filter_sublist (l : List α) (p : α → Bool) (f : α → Option β) :
    ((l.filter p).filterMap f).Sublist (l.filterMap f) :=
  List.filter_sublist.filterMap f

theorem filter_filterMap_filter_iff (l : List α) (p : α → Bool) (f : α → Option β)
    (q : β → Bool) :
    ((l.filter p).filterMap f).filter q = (l.filterMap f).filter q ↔
      ∀ a ∈ l, p a = false → ∀ b, f a = some b → q b = false := by
  induction l with
  | nil => simp
  | cons a l ih =>
      rw [List.forall_mem_cons, ← ih]
      rcases hp : p a with - | -
      · rw [List.filter_cons_of_neg (by simp [hp])]
        rcases hf : f a with - | b
        · rw [List.filterMap_cons_none hf]
          simp
        · rw [List.filterMap_cons_some hf]
          rcases hq : q b with - | -
          · rw [List.filter_cons_of_neg (by simp [hq])]
            simp [hq]
          · rw [List.filter_cons_of_pos (by simp [hq])]
            have hlength := ((filterMap_filter_sublist l p f).filter q).length_le
            constructor
            · intro heq
              rw [heq, List.length_cons] at hlength
              omega
            · rintro ⟨hnone, -⟩
              rw [hnone rfl b rfl] at hq
              cases hq
      · rw [List.filter_cons_of_pos (by simp [hp])]
        rcases hf : f a with - | b
        · rw [List.filterMap_cons_none hf, List.filterMap_cons_none hf]
          simp
        · rw [List.filterMap_cons_some hf, List.filterMap_cons_some hf]
          rcases hq : q b with - | -
          · rw [List.filter_cons_of_neg (by simp [hq]), List.filter_cons_of_neg (by simp [hq])]
            simp
          · rw [List.filter_cons_of_pos (by simp [hq]), List.filter_cons_of_pos (by simp [hq])]
            simp

theorem filter_filter_of_imp {p q : α → Bool} (h : ∀ a, q a = true → p a = true) (l : List α) :
    (l.filter p).filter q = l.filter q := by
  rw [List.filter_filter]
  apply List.filter_congr
  intro a _
  rcases hq : q a with - | -
  · rfl
  · rw [h a hq]
    rfl

/-! ## Loops that cannot raise -/

theorem map_eq_ok_iff {x : Except ε α} {f : α → β} {b : β} :
    x.map f = .ok b ↔ ∃ a, x = .ok a ∧ f a = b := by
  rcases x with why | a
  · simp [Except.map]
  · simp [Except.map]

theorem mapM_ok {f : α → Except ε β} {g : α → β} {l : List α} (h : ∀ a ∈ l, f a = .ok (g a)) :
    l.mapM f = .ok (l.map g) := by
  induction l with
  | nil => rfl
  | cons a l ih =>
      rw [List.forall_mem_cons] at h
      rw [List.mapM_cons, h.1, ih h.2]
      rfl

theorem mapM_eq_ok_iff (f : α → Except ε β) (l : List α) (bs : List β) :
    l.mapM f = .ok bs ↔
      (∀ a ∈ l, ∃ b, f a = .ok b) ∧ bs = l.filterMap fun a => (f a).toOption := by
  induction l generalizing bs with
  | nil => simp [pure, Except.pure, eq_comm]
  | cons a l ih =>
      rw [List.mapM_cons, List.forall_mem_cons]
      rcases ha : f a with why | b
      · simp [bind, Except.bind]
      · rw [List.filterMap_cons_some (by rw [ha]; rfl)]
        rcases hl : l.mapM f with why | bs'
        · have hnot : ¬∀ a ∈ l, ∃ b, f a = .ok b := fun hall => by
            rw [(ih _).mpr ⟨hall, rfl⟩] at hl
            cases hl
          simp [bind, Except.bind, hnot]
        · obtain ⟨hall, rfl⟩ := (ih bs').mp hl
          simpa [bind, Except.bind, pure, Except.pure, eq_comm] using fun _ => hall

end Windows
end Sentinel
