import Mathlib.Data.List.Infix

/-!
# Words in a text

The test `part in text` of the source, which classifies some of its texts, and
texts that are joined by a separator.
-/

namespace Sentinel

/-- `part in text`. -/
def occursIn (part text : String) : Bool := decide (part.toList <:+: text.toList)

def anyOccursIn (parts : List String) (text : String) : Bool :=
  parts.any fun part => occursIn part text

variable {α : Type*}

theorem append_separator_inj {x : α} {l l' m m' : List α} (hm : x ∉ m) (hm' : x ∉ m')
    (h : l ++ x :: m = l' ++ x :: m') : l = l' ∧ m = m' := by
  rw [List.append_eq_append_iff] at h
  rcases h with ⟨as, hl, hr⟩ | ⟨bs, hl, hr⟩
  · rcases as with _ | ⟨a, as⟩
    · simp only [List.nil_append, List.cons.injEq, true_and, List.append_nil] at hr hl
      exact ⟨hl.symm, hr⟩
    · simp only [List.cons_append, List.cons.injEq] at hr
      exact absurd (hr.2 ▸ by simp) hm
  · rcases bs with _ | ⟨b, bs⟩
    · simp only [List.nil_append, List.cons.injEq, true_and, List.append_nil] at hr hl
      exact ⟨hl, hr.symm⟩
    · simp only [List.cons_append, List.cons.injEq] at hr
      exact absurd (hr.2 ▸ by simp) hm'

theorem exists_of_append_separator {x : α} {s w t rest : List α} (hs : x ∉ s)
    (h : w ++ x :: t = s ++ rest) : ∃ w', w = s ++ w' ∧ rest = w' ++ x :: t := by
  rw [List.append_eq_append_iff] at h
  rcases h with ⟨as, hl, hr⟩ | ⟨bs, hl, hr⟩
  · rcases as with _ | ⟨a, as⟩
    · refine ⟨[], ?_, ?_⟩
      · simpa using hl.symm
      · simpa using hr.symm
    · rw [List.cons_append, List.cons.injEq] at hr
      exact absurd (hl ▸ hr.1 ▸ by simp) hs
  · exact ⟨bs, hl, hr⟩

theorem append_first_separator_inj {x : α} {s s' t t' : List α} (hs : x ∉ s)
    (hs' : x ∉ s') (h : s ++ x :: t = s' ++ x :: t') : s = s' ∧ t = t' := by
  obtain ⟨w, rfl, hw⟩ := exists_of_append_separator hs' h
  rcases w with _ | ⟨a, w⟩
  · rw [List.nil_append, List.cons.injEq] at hw
    exact ⟨List.append_nil s', hw.2.symm⟩
  · rw [List.cons_append, List.cons.injEq] at hw
    exact absurd (hw.1 ▸ by simp) hs

def barred (x : α) (parts : List (List α)) : List α := parts.flatMap (x :: ·)

@[simp] theorem barred_nil (x : α) : barred x ([] : List (List α)) = [] := rfl

@[simp] theorem barred_cons (x : α) (part : List α) (parts : List (List α)) :
    barred x (part :: parts) = x :: (part ++ barred x parts) := List.flatMap_cons

theorem barred_cut {x : α} {parts : List (List α)} {rest w t : List α}
    (hparts : ∀ part ∈ parts, x ∉ part) (h : barred x parts ++ rest = w ++ x :: t) :
    (∃ before part after, parts = before ++ part :: after ∧ w = barred x before ∧
      t = part ++ (barred x after ++ rest)) ∨
    ∃ u, w = barred x parts ++ u ∧ rest = u ++ x :: t := by
  induction parts generalizing w with
  | nil => exact Or.inr ⟨w, rfl, h⟩
  | cons part parts ih =>
    rw [barred_cons, List.cons_append, List.append_assoc] at h
    rcases w with _ | ⟨a, w⟩
    · rw [List.nil_append, List.cons.injEq] at h
      exact Or.inl ⟨[], part, parts, rfl, rfl, h.2.symm⟩
    · rw [List.cons_append, List.cons.injEq] at h
      obtain ⟨w', rfl, hrest⟩ := exists_of_append_separator
        (hparts part List.mem_cons_self) h.2.symm
      rcases ih (fun p hp => hparts p (List.mem_cons_of_mem _ hp)) hrest with
        ⟨before, here, after, rfl, rfl, ht⟩ | ⟨u, rfl, hu⟩
      · exact Or.inl ⟨part :: before, here, after, rfl, by rw [barred_cons, h.1], ht⟩
      · exact Or.inr ⟨u, by simp [h.1], hu⟩

end Sentinel
