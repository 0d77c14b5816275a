import Mathlib.Algebra.Order.Group.Defs
import Mathlib.Data.List.Basic
import Mathlib.Tactic.Abel
import Mathlib.Algebra.Order.Group.Basic

/-!
# Sliding windows

A limiter keeps the times it has let pass, drops those that have left the window
and lets the next one pass while fewer than its limit are left.  Whatever it
drops, no interval of the window's length holds more than the limit.
-/

namespace Sentinel

variable {α : Type*} [AddCommGroup α] [LinearOrder α] [IsOrderedAddMonoid α]

namespace SlidingWindow

/-- The times of a list that are less than `width` old. -/
def live (width now : α) (times : List α) : List α := times.filter fun t => now - t < width

/-- The times of a list in the half-open interval that starts at `a`. -/
def within (width a : α) (times : List α) : List α :=
  times.filter fun t => a ≤ t && t < a + width

structure Keeps (width now : α) (limit : ℤ) (kept passed : List α) : Prop where
  live_eq : live width now kept = live width now passed
  bounded : ∀ a, ((within width a passed).length : ℤ) ≤ max limit 0

variable {width now next : α} {limit : ℤ} {kept passed : List α}

theorem live_live (h : now ≤ next) (times : List α) :
    live width next (live width now times) = live width next times := by
  simp only [live, List.filter_filter]
  apply List.filter_congr
  intro t _
  by_cases hl : next - t < width
  · have hn : now - t < width := lt_of_le_of_lt (sub_le_sub_right h t) hl
    simp [hl, hn]
  · simp [hl]

theorem Keeps.later (h : Keeps width now limit kept passed) (hle : now ≤ next) :
    Keeps width next limit kept passed := by
  refine ⟨?_, h.bounded⟩
  rw [← live_live hle kept, h.live_eq, live_live hle]

omit [IsOrderedAddMonoid α] in
theorem Keeps.replace (h : Keeps width now limit kept passed) {kept' : List α}
    (hkept : live width now kept' = live width now kept) :
    Keeps width now limit kept' passed :=
  ⟨hkept.trans h.live_eq, h.bounded⟩

theorem live_idem (times : List α) :
    live width now (live width now times) = live width now times :=
  live_live (le_refl now) times

theorem length_within_le {a : α} (hlast : now < a + width) (times : List α) :
    (within width a times).length ≤ (live width now times).length := by
  apply List.Sublist.length_le
  apply List.monotone_filter_right
  intro t ht
  simp only [Bool.and_eq_true, decide_eq_true_eq] at ht ⊢
  have hlt : now - t < a + width - t := sub_lt_sub_right hlast t
  have hle : a + width - t ≤ width := by
    rw [sub_le_iff_le_add, add_comm]
    exact add_le_add_right ht.1 width
  exact hlt.trans_le hle

theorem Keeps.pass (h : Keeps width now limit kept passed)
    (hlimit : ((live width now kept).length : ℤ) < limit) :
    Keeps width now limit (live width now kept ++ [now]) (passed ++ [now]) := by
  have hlive : ∀ times : List α, live width now (times ++ [now]) =
      live width now times ++ live width now [now] := fun times => List.filter_append _ _
  refine ⟨?_, ?_⟩
  · rw [hlive, hlive, live_idem, h.live_eq]
  · intro a
    have hsplit : within width a (passed ++ [now]) =
        within width a passed ++ within width a [now] := List.filter_append _ _
    rw [hsplit, List.length_append]
    by_cases hin : a ≤ now ∧ now < a + width
    · have hpassed := length_within_le hin.2 passed
      rw [← h.live_eq] at hpassed
      have hone : (within width a [now]).length ≤ 1 := List.length_filter_le _ _
      have hmax := le_max_left limit 0
      push_cast
      omega
    · have hnone : within width a [now] = [] := by
        rw [within, List.filter_eq_nil_iff]
        intro t ht
        rw [List.mem_singleton] at ht
        subst ht
        simpa using hin
      rw [hnone]
      simpa using h.bounded a

omit [IsOrderedAddMonoid α] in
theorem Keeps.nil (width now : α) (limit : ℤ) : Keeps width now limit [] [] :=
  ⟨rfl, fun _ => le_max_right limit 0⟩

end SlidingWindow

end Sentinel
