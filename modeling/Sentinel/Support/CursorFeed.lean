import Mathlib.Data.List.Basic
import Mathlib.Order.MinMax

/-!
# Reading a growing record with a cursor

A reader keeps the greatest key it has been handed and takes from every answer
the items above it.  An item is never handed over twice as long as its key
does not change.  It is handed over at all only when its key is above
everything handed over before: the keys have to grow in the order in which the
items appear.
-/

namespace Sentinel

structure Feed (κ : Type*) where
  cursor : κ
  delivered : List κ := []

namespace Feed

variable {κ ι : Type*} [LinearOrder κ]

/-- What the reader takes of an answer. -/
def fresh (cursor : κ) (page : List κ) : List κ := page.filter fun k => cursor < k

def advance (cursor : κ) (page : List κ) : κ := (fresh cursor page).foldl max cursor

/-- One answer read. -/
def poll (f : Feed κ) (page : List κ) : Feed κ where
  cursor := advance f.cursor page
  delivered := f.delivered ++ fresh f.cursor page

@[simp] theorem mem_fresh {cursor k : κ} {page : List κ} :
    k ∈ fresh cursor page ↔ k ∈ page ∧ cursor < k := by
  simp [fresh]

theorem foldl_max_lt_iff {bottom k : κ} (l : List κ) :
    l.foldl max bottom < k ↔ bottom < k ∧ ∀ j ∈ l, j < k := by
  induction l generalizing bottom with
  | nil => simp
  | cons j l ih => rw [List.foldl_cons, ih, max_lt_iff, List.forall_mem_cons, and_assoc]

theorem lost_poll {f : Feed κ} {k : κ} (hle : k ≤ f.cursor) (hk : k ∉ f.delivered)
    (page : List κ) : k ≤ (f.poll page).cursor ∧ k ∉ (f.poll page).delivered := by
  constructor
  · refine not_lt.1 fun hlt => ?_
    exact not_lt.2 hle ((foldl_max_lt_iff _).1 hlt).1
  · simp only [poll, List.mem_append, not_or, mem_fresh, not_and, not_lt]
    exact ⟨hk, fun _ => hle⟩

/-- The reader's state: the cursor is the greatest key handed over, or the
bottom it started from, and no item was handed over twice. -/
structure Sound (bottom : κ) (ident : κ → ι) (f : Feed κ) : Prop where
  cursor_eq : f.cursor = f.delivered.foldl max bottom
  nodup : (f.delivered.map ident).Nodup

def KeepsKeys (ident : κ → ι) (f : Feed κ) (page : List κ) : Prop :=
  ∀ j ∈ f.delivered, ∀ k ∈ page, ident k = ident j → k = j

namespace Sound

variable {bottom : κ} {ident : κ → ι} {f : Feed κ} {page : List κ}

theorem start (bottom : κ) (ident : κ → ι) : Sound bottom ident ⟨bottom, []⟩ :=
  ⟨rfl, List.nodup_nil⟩

theorem cursor_lt_iff (h : f.Sound bottom ident) {k : κ} :
    f.cursor < k ↔ bottom < k ∧ ∀ j ∈ f.delivered, j < k := by
  rw [h.cursor_eq, foldl_max_lt_iff]

theorem le_cursor (h : f.Sound bottom ident) {k : κ} (hk : k ∈ f.delivered) :
    k ≤ f.cursor := by
  refine not_lt.1 fun hlt => ?_
  exact lt_irrefl k ((h.cursor_lt_iff.1 hlt).2 k hk)

theorem notMem_fresh (h : f.Sound bottom ident) {k : κ} (hk : k ∈ f.delivered) :
    k ∉ fresh f.cursor page := by
  intro hmem
  exact not_lt.2 (h.le_cursor hk) (mem_fresh.1 hmem).2

theorem poll (h : f.Sound bottom ident) (hpage : (page.map ident).Nodup)
    (hkeys : f.KeepsKeys ident page) : (f.poll page).Sound bottom ident where
  cursor_eq := by
    simp only [Feed.poll, advance, List.foldl_append, ← h.cursor_eq]
  nodup := by
    have hfresh : ((fresh f.cursor page).map ident).Nodup :=
      hpage.sublist (List.filter_sublist.map ident)
    simp only [Feed.poll, List.map_append]
    refine List.nodup_append.2 ⟨h.nodup, hfresh, ?_⟩
    intro a ha b hb hab
    obtain ⟨j, hj, rfl⟩ := List.mem_map.1 ha
    obtain ⟨k, hk, rfl⟩ := List.mem_map.1 hb
    have hkj : k = j := hkeys j hj k (mem_fresh.1 hk).1 hab.symm
    exact h.notMem_fresh hj (hkj ▸ hk)

theorem complete_iff (h : f.Sound bottom ident) (items : List ι) :
    (∀ i ∈ items, i ∈ (f.poll page).delivered.map ident) ↔
      ∀ i ∈ items, i ∉ f.delivered.map ident →
        ∃ k ∈ page, ident k = i ∧ bottom < k ∧ ∀ j ∈ f.delivered, j < k := by
  refine forall₂_congr fun i _ => ?_
  simp only [Feed.poll, List.map_append, List.mem_append, or_iff_not_imp_left]
  refine imp_congr_right fun _ => ?_
  simp only [List.mem_map, mem_fresh, h.cursor_lt_iff]
  constructor
  · rintro ⟨k, ⟨hpage, habove⟩, hident⟩
    exact ⟨k, hpage, hident, habove⟩
  · rintro ⟨k, hpage, hident, habove⟩
    exact ⟨k, ⟨hpage, habove⟩, hident⟩

end Sound

end Feed

end Sentinel
