import Mathlib.Data.List.Sort

/-!
# Rows under keys

A frame is a list of rows, each under a key.  Frames are put together by keeping
the last row of every key and sorting what is kept, so a row of the result is
one that no later frame has a row against.
-/

namespace Sentinel

namespace KeyedRows

variable {κ α β : Type}

/-! ## Sorting what passes a test -/

section Sorting

variable {r : α → α → Prop} [DecidableRel r] [IsTrans α r] [Std.Total r]

omit [IsTrans α r] [Std.Total r] in
theorem filter_orderedInsert_of_neg {p : α → Bool} {a : α} (ha : p a = false) (l : List α) :
    (l.orderedInsert r a).filter p = l.filter p := by
  induction l with
  | nil => simp [ha]
  | cons b l ih =>
      rw [List.orderedInsert_cons]
      split
      · rw [List.filter_cons_of_neg (by simp [ha])]
      · rw [List.filter_cons, ih, List.filter_cons]

omit [Std.Total r] in
theorem filter_orderedInsert_of_pos {p : α → Bool} {a : α} (ha : p a = true) {l : List α}
    (hl : l.Pairwise r) : (l.orderedInsert r a).filter p = (l.filter p).orderedInsert r a := by
  induction l with
  | nil => simp [ha]
  | cons b l ih =>
      have hb : ∀ c ∈ l, r b c := (List.pairwise_cons.1 hl).1
      have ih := ih (List.pairwise_cons.1 hl).2
      rw [List.orderedInsert_cons]
      by_cases hab : r a b
      · rw [if_pos hab, List.filter_cons_of_pos ha]
        have hall : ∀ c ∈ (b :: l).filter p, r a c := by
          intro c hc
          rcases List.mem_cons.1 (List.mem_filter.1 hc).1 with rfl | hc
          · exact hab
          · exact IsTrans.trans a b c hab (hb c hc)
        rcases hfilter : (b :: l).filter p with - | ⟨c, rest⟩
        · rfl
        · rw [hfilter] at hall
          rw [List.orderedInsert_cons, if_pos (hall c List.mem_cons_self)]
      · rw [if_neg hab, List.filter_cons, ih, List.filter_cons]
        split
        · rw [List.orderedInsert_cons, if_neg hab]
        · rfl

theorem filter_insertionSort (p : α → Bool) (l : List α) :
    (l.insertionSort r).filter p = (l.filter p).insertionSort r := by
  induction l with
  | nil => rfl
  | cons a l ih =>
      rw [List.insertionSort_cons, List.filter_cons]
      split
      · rename_i ha
        rw [filter_orderedInsert_of_pos ha (List.pairwise_insertionSort r l), ih,
          List.insertionSort_cons]
      · rename_i ha
        rw [filter_orderedInsert_of_neg (by simpa using ha), ih]

end Sorting

/-! ## The last row of every key -/

variable [DecidableEq κ]

def lastRows : List (κ × β) → List (κ × β)
  | [] => []
  | row :: rows =>
      if row.1 ∈ rows.map Prod.fst then lastRows rows else row :: lastRows rows

theorem mem_of_mem_lastRows {row : κ × β} {rows : List (κ × β)} (h : row ∈ lastRows rows) :
    row ∈ rows := by
  induction rows with
  | nil => exact h
  | cons row' rows ih =>
      rw [lastRows] at h
      split at h
      · exact List.mem_cons_of_mem row' (ih h)
      · rcases List.mem_cons.1 h with rfl | h
        · exact List.mem_cons_self
        · exact List.mem_cons_of_mem row' (ih h)

theorem nodup_keys_lastRows (rows : List (κ × β)) : ((lastRows rows).map Prod.fst).Nodup := by
  induction rows with
  | nil => exact List.nodup_nil
  | cons row rows ih =>
      rw [lastRows]
      split
      · exact ih
      · rename_i hnot
        rw [List.map_cons, List.nodup_cons]
        refine ⟨fun hmem => hnot ?_, ih⟩
        obtain ⟨row', hrow', heq⟩ := List.mem_map.1 hmem
        exact List.mem_map.2 ⟨row', mem_of_mem_lastRows hrow', heq⟩

theorem lastRows_of_nodup {rows : List (κ × β)} (h : (rows.map Prod.fst).Nodup) :
    lastRows rows = rows := by
  induction rows with
  | nil => rfl
  | cons row rows ih =>
      rw [List.map_cons, List.nodup_cons] at h
      rw [lastRows, if_neg h.1, ih h.2]

theorem mem_lastRows_append {row : κ × β} {rows rows' : List (κ × β)} :
    row ∈ lastRows (rows ++ rows') ↔
      row ∈ lastRows rows' ∨ (row ∈ lastRows rows ∧ row.1 ∉ rows'.map Prod.fst) := by
  induction rows with
  | nil => simp [lastRows]
  | cons first rows ih =>
      rw [List.cons_append, lastRows, lastRows, List.map_append]
      by_cases hfirst : first.1 ∈ rows.map Prod.fst
      · rw [if_pos (List.mem_append_left _ hfirst), if_pos hfirst, ih]
      · by_cases hlater : first.1 ∈ rows'.map Prod.fst
        · rw [if_pos (List.mem_append_right _ hlater), if_neg hfirst, ih, List.mem_cons]
          constructor
          · rintro (h | ⟨h, hnot⟩)
            · exact .inl h
            · exact .inr ⟨.inr h, hnot⟩
          · rintro (h | ⟨rfl | h, hnot⟩)
            · exact .inl h
            · exact absurd hlater hnot
            · exact .inr ⟨h, hnot⟩
        · rw [if_neg (fun h => (List.mem_append.1 h).elim hfirst hlater), if_neg hfirst,
            List.mem_cons, ih, List.mem_cons]
          constructor
          · rintro (rfl | h | ⟨h, hnot⟩)
            · exact .inr ⟨.inl rfl, hlater⟩
            · exact .inl h
            · exact .inr ⟨.inr h, hnot⟩
          · rintro (h | ⟨rfl | h, hnot⟩)
            · exact .inr (.inl h)
            · exact .inl rfl
            · exact .inr (.inr ⟨h, hnot⟩)

theorem mem_lastRows_flatMap {γ : Type} {frame : γ → List (κ × β)}
    (hnodup : ∀ c, ((frame c).map Prod.fst).Nodup) {l : List γ} {row : κ × β} :
    row ∈ lastRows (l.flatMap frame) ↔
      ∃ before c later, l = before ++ c :: later ∧ row ∈ frame c ∧
        ∀ d ∈ later, row.1 ∉ (frame d).map Prod.fst := by
  induction l with
  | nil => simp [lastRows]
  | cons c l ih =>
      rw [List.flatMap_cons, mem_lastRows_append, ih, lastRows_of_nodup (hnodup c)]
      constructor
      · rintro (⟨before, d, later, rfl, hrow, hnone⟩ | ⟨hrow, hnone⟩)
        · exact ⟨c :: before, d, later, rfl, hrow, hnone⟩
        · refine ⟨[], c, l, rfl, hrow, fun d hd hmem => hnone ?_⟩
          obtain ⟨row', hrow', heq⟩ := List.mem_map.1 hmem
          exact List.mem_map.2 ⟨row', List.mem_flatMap.2 ⟨d, hd, hrow'⟩, heq⟩
      · rintro ⟨before, d, later, hl, hrow, hnone⟩
        rcases before with - | ⟨c', before⟩
        · obtain ⟨rfl, rfl⟩ := List.cons.inj hl
          refine .inr ⟨hrow, fun hmem => ?_⟩
          obtain ⟨row', hrow', heq⟩ := List.mem_map.1 hmem
          obtain ⟨d, hd, hrow'⟩ := List.mem_flatMap.1 hrow'
          exact hnone d hd (List.mem_map.2 ⟨row', hrow', heq⟩)
        · obtain ⟨rfl, rfl⟩ := List.cons.inj hl
          exact .inl ⟨before, d, later, rfl, hrow, hnone⟩

/-! ## Frames in the order of their keys -/

omit [DecidableEq κ] in
theorem eq_of_same_rows [LinearOrder κ] {rows rows' : List (κ × β)}
    (h : rows.Pairwise fun a b => a.1 < b.1) (h' : rows'.Pairwise fun a b => a.1 < b.1)
    (hmem : ∀ row, row ∈ rows ↔ row ∈ rows') : rows = rows' := by
  have hnodup : ∀ {l : List (κ × β)}, l.Pairwise (fun a b => a.1 < b.1) → l.Nodup :=
    fun hl => hl.imp fun hlt heq => (lt_irrefl _ (heq ▸ hlt)).elim
  have hperm : rows.Perm rows' :=
    (List.perm_ext_iff_of_nodup (hnodup h) (hnodup h')).2 hmem
  refine hperm.eq_of_pairwise ?_ h h'
  intro a b _ _ hab hba
  exact absurd hab (lt_asymm hba)

omit [DecidableEq κ] in
theorem pairwise_insertionSort [LinearOrder κ] {rows : List (κ × β)}
    (h : (rows.map Prod.fst).Nodup) :
    (rows.insertionSort fun a b => a.1 ≤ b.1).Pairwise fun a b => a.1 < b.1 := by
  have htotal : Std.Total fun a b : κ × β => a.1 ≤ b.1 := ⟨fun a b => le_total a.1 b.1⟩
  have htrans : IsTrans (κ × β) fun a b => a.1 ≤ b.1 := ⟨fun a b c => le_trans⟩
  have hsorted := List.pairwise_insertionSort (fun a b : κ × β => a.1 ≤ b.1) rows
  have hkeys : ((rows.insertionSort fun a b => a.1 ≤ b.1).map Prod.fst).Nodup :=
    ((List.perm_insertionSort _ rows).map Prod.fst).nodup_iff.2 h
  have hne := List.pairwise_map.1 hkeys
  exact (hsorted.and hne).imp fun hlt => lt_of_le_of_ne hlt.1 hlt.2

end KeyedRows

end Sentinel
