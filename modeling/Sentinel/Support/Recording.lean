import Mathlib.Data.List.Nodup
import Mathlib.Data.List.Perm.Subperm

/-!
# Recording what is new

A list that takes in the items of a report whose key it does not hold yet.
Reports may repeat what earlier ones said; what is lost is an item whose key
another one has.
-/

namespace Sentinel

variable {α κ : Type} [DecidableEq κ]

def recordUnseen (key : α → κ) (held : List α) : List α → List α
  | [] => held
  | item :: items =>
      if key item ∈ held.map key then recordUnseen key held items
      else recordUnseen key (held ++ [item]) items

variable {key : α → κ} {held items : List α}

theorem recordUnseen_cons_seen {item : α} (h : key item ∈ held.map key) :
    recordUnseen key held (item :: items) = recordUnseen key held items := by
  rw [recordUnseen, if_pos h]

theorem recordUnseen_cons_new {item : α} (h : key item ∉ held.map key) :
    recordUnseen key held (item :: items) = recordUnseen key (held ++ [item]) items := by
  rw [recordUnseen, if_neg h]

theorem prefix_recordUnseen (key : α → κ) (held items : List α) :
    held <+: recordUnseen key held items := by
  induction items generalizing held with
  | nil => exact List.prefix_rfl
  | cons item items ih =>
      by_cases hseen : key item ∈ held.map key
      · rw [recordUnseen_cons_seen hseen]
        exact ih held
      · rw [recordUnseen_cons_new hseen]
        exact (List.prefix_append held [item]).trans (ih (held ++ [item]))

theorem nodup_recordUnseen (h : (held.map key).Nodup) :
    ((recordUnseen key held items).map key).Nodup := by
  induction items generalizing held with
  | nil => exact h
  | cons item items ih =>
      by_cases hseen : key item ∈ held.map key
      · rw [recordUnseen_cons_seen hseen]
        exact ih h
      · rw [recordUnseen_cons_new hseen]
        apply ih
        rw [List.map_append, List.map_singleton, ← List.concat_eq_append]
        exact h.concat hseen

theorem subset_of_recordUnseen (key : α → κ) (held items : List α) :
    recordUnseen key held items ⊆ held ++ items := by
  induction items generalizing held with
  | nil => exact List.subset_append_left held []
  | cons item items ih =>
      by_cases hseen : key item ∈ held.map key
      · rw [recordUnseen_cons_seen hseen]
        intro a ha
        have hmem := ih held ha
        rw [List.mem_append] at hmem ⊢
        exact hmem.imp_right (List.mem_cons_of_mem item)
      · rw [recordUnseen_cons_new hseen]
        intro a ha
        simpa using ih (held ++ [item]) ha

theorem key_mem_recordUnseen {item : α} (h : item ∈ items) :
    key item ∈ (recordUnseen key held items).map key := by
  induction items generalizing held with
  | nil => cases h
  | cons first items ih =>
      by_cases hseen : key first ∈ held.map key
      · rw [recordUnseen_cons_seen hseen]
        rcases List.mem_cons.1 h with rfl | hrest
        · exact ((prefix_recordUnseen key held items).map key).subset hseen
        · exact ih hrest
      · rw [recordUnseen_cons_new hseen]
        rcases List.mem_cons.1 h with rfl | hrest
        · apply ((prefix_recordUnseen key (held ++ [item]) items).map key).subset
          exact List.mem_map_of_mem (List.mem_append_right held (List.mem_singleton_self item))
        · exact ih hrest

theorem recordUnseen_perm (hkeys : (items.map key).Nodup) (hnodup : (held.map key).Nodup)
    (hheld : held ⊆ items) : (recordUnseen key held items).Perm items := by
  have hrecorded : (recordUnseen key held items).Nodup :=
    (nodup_recordUnseen hnodup).of_map
  rw [List.perm_ext_iff_of_nodup hrecorded hkeys.of_map]
  have hsubset : recordUnseen key held items ⊆ items := by
    intro a ha
    rcases List.mem_append.1 (subset_of_recordUnseen key held items ha) with hold | hnew
    · exact hheld hold
    · exact hnew
  intro a
  constructor
  · exact fun ha => hsubset ha
  · intro ha
    have hkey : key a ∈ (recordUnseen key held items).map key := key_mem_recordUnseen ha
    obtain ⟨b, hb, hkey⟩ := List.mem_map.1 hkey
    -- the item held under the key is the item itself
    rw [← List.inj_on_of_nodup_map hkeys (hsubset hb) ha hkey]
    exact hb

end Sentinel
