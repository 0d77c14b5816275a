import Mathlib.Order.Lattice
import Mathlib.Order.SetNotation
import Mathlib.Data.Set.Basic

/-!
# Sets without a hole

A part of a linearly ordered set has no hole when it holds, with two elements,
all of the set between them.  Two such parts join to one when what lies between
them is held by either.
-/

namespace Sentinel

variable {α : Type*} [LinearOrder α] {S H W : Set α}

/-- `H` holds every element of `S` between two of its own. -/
def NoHole (S H : Set α) : Prop :=
  ∀ a ∈ H, ∀ b ∈ H, ∀ c ∈ S, a < c → c < b → c ∈ H

namespace NoHole

theorem mem_of_le (h : NoHole S H) {a b c : α} (ha : a ∈ H) (hb : b ∈ H) (hc : c ∈ S)
    (hac : a ≤ c) (hcb : c ≤ b) : c ∈ H := by
  rcases hac.eq_or_lt with rfl | hlt
  · exact ha
  · rcases hcb.eq_or_lt with rfl | hlt'
    · exact hb
    · exact h a ha b hb c hc hlt hlt'

theorem union (hH : NoHole S H) (hW : NoHole S W)
    (habove : H.Nonempty → ∀ c ∈ S, (∀ h ∈ H, h < c) → ∀ w ∈ W, c < w → c ∈ W)
    (hbelow : ∀ w ∈ W, ∀ h ∈ H, ∀ c ∈ S, w < c → c < h → c ∈ W) : NoHole S (H ∪ W) := by
  rintro a (ha | ha) b (hb | hb) c hc hac hcb
  · exact .inl (hH a ha b hb c hc hac hcb)
  · by_cases hlast : ∃ h ∈ H, c ≤ h
    · obtain ⟨h, hh, hch⟩ := hlast
      exact .inl (hH.mem_of_le ha hh hc hac.le hch)
    · refine .inr (habove ⟨a, ha⟩ c hc ?_ b hb hcb)
      intro h hh
      by_contra hch
      exact hlast ⟨h, hh, not_lt.1 hch⟩
  · exact .inr (hbelow a ha b hb c hc hac hcb)
  · exact .inr (hW a ha b hb c hc hac hcb)

end NoHole

end Sentinel
