import Mathlib.Data.List.Induction
import Mathlib.Data.List.Perm.Basic
import Sentinel.Support.Dict

/-!
# Grouping a list by a key

The dictionary a loop of `groups[key(n)].append(n)` leaves: one entry for every
key that occurs, in the order the keys are first met, holding the elements with
that key in the order of the list.
-/

namespace Sentinel

namespace Dict

variable {α κ κ' : Type*} [DecidableEq κ] [DecidableEq κ']

/-- `groups[k].append(n)` on a `defaultdict(list)`. -/
def append (d : Dict κ (List α)) (k : κ) (n : α) : Dict κ (List α) :=
  d.set k (d.getD k [] ++ [n])

variable (key : α → κ) (l : List α)

def groupBy : Dict κ (List α) :=
  l.foldl (fun d n => d.append (key n) n) empty

theorem groupBy_concat (n : α) : groupBy key (l ++ [n]) = (groupBy key l).append (key n) n := by
  simp [groupBy]

theorem mem_keys_groupBy (k : κ) : k ∈ (groupBy key l).keys ↔ ∃ n ∈ l, key n = k := by
  induction l using List.reverseRecOn with
  | nil => simp [groupBy, keys, empty]
  | append_singleton l n ih =>
      rw [groupBy_concat, append, mem_keys_set, ih]
      simp only [List.mem_append, List.mem_singleton]
      constructor
      · rintro (rfl | ⟨m, hm, rfl⟩)
        · exact ⟨n, .inr rfl, rfl⟩
        · exact ⟨m, .inl hm, rfl⟩
      · rintro ⟨m, hm | rfl, rfl⟩
        · exact .inr ⟨m, hm, rfl⟩
        · exact .inl rfl

theorem getD_groupBy (k : κ) : (groupBy key l).getD k [] = l.filter fun n => key n = k := by
  induction l using List.reverseRecOn with
  | nil => simp [groupBy, getD]
  | append_singleton l n ih =>
      rw [groupBy_concat, append, getD, get?_set, List.filter_append]
      by_cases hk : k = key n
      · subst hk
        simp [ih]
      · have hne : ¬key n = k := fun h => hk h.symm
        rw [if_neg hk, List.filter_cons_of_neg (by simpa using hne)]
        simpa [getD] using ih

theorem values_groupBy :
    (groupBy key l).values =
      (groupBy key l).keys.map fun k => l.filter fun n => key n = k := by
  rw [values, keys, List.map_map]
  refine List.map_congr_left fun kv hkv => ?_
  have hget : (groupBy key l).get? kv.1 = some kv.2 := (mem_items_iff _ _ _).mp hkv
  rw [Function.comp, ← getD_groupBy, getD, hget]
  rfl

theorem mem_values_groupBy (c : List α) :
    c ∈ (groupBy key l).values ↔ ∃ n ∈ l, c = l.filter fun m => key m = key n := by
  rw [values_groupBy, List.mem_map]
  constructor
  · rintro ⟨k, hk, rfl⟩
    obtain ⟨n, hn, rfl⟩ := (mem_keys_groupBy key l k).mp hk
    exact ⟨n, hn, rfl⟩
  · rintro ⟨n, hn, rfl⟩
    exact ⟨key n, (mem_keys_groupBy key l _).mpr ⟨n, hn, rfl⟩, rfl⟩

theorem keys_groupBy_forall₂ {key : α → κ} {key' : α → κ'}
    (h : ∀ m n, key m = key n ↔ key' m = key' n) (l : List α) :
    List.Forall₂ (fun k k' => ∃ n, key n = k ∧ key' n = k')
      (groupBy key l).keys (groupBy key' l).keys := by
  induction l using List.reverseRecOn with
  | nil => exact .nil
  | append_singleton l n ih =>
      have hmem : key n ∈ (groupBy key l).keys ↔ key' n ∈ (groupBy key' l).keys := by
        simp only [mem_keys_groupBy, h]
      rw [groupBy_concat, groupBy_concat, append, append]
      by_cases hin : key n ∈ (groupBy key l).keys
      · rwa [keys_set_of_mem hin, keys_set_of_mem (hmem.mp hin)]
      · rw [keys_set_of_notMem hin, keys_set_of_notMem (fun h' => hin (hmem.mpr h'))]
        exact List.rel_append ih (.cons ⟨n, rfl, rfl⟩ .nil)

theorem values_groupBy_congr {key : α → κ} {key' : α → κ'}
    (h : ∀ m n, key m = key n ↔ key' m = key' n) (l : List α) :
    (groupBy key l).values = (groupBy key' l).values := by
  rw [values_groupBy, values_groupBy, ← List.forall₂_eq_eq_eq, List.forall₂_map_left_iff,
    List.forall₂_map_right_iff]
  refine (keys_groupBy_forall₂ h l).imp ?_
  rintro _ _ ⟨n, rfl, rfl⟩
  simp only [h]

theorem flatten_values_groupBy : (groupBy key l).values.flatten.Perm l := by
  induction l using List.reverseRecOn with
  | nil => simp [groupBy, values, empty]
  | append_singleton l n ih =>
      rw [groupBy_concat, append]
      refine List.Perm.trans ?_ (ih.append_right [n])
      by_cases hget : (groupBy key l).get? (key n) = none
      · have hnew := (get?_eq_none_iff _ _).mp hget
        simp [values, items_set_of_notMem hnew, getD, hget]
      · obtain ⟨old, hold⟩ := Option.ne_none_iff_exists'.mp hget
        obtain ⟨pre, post, hitems, hset⟩ := exists_items_set hold
        simp only [values, hset, hitems, getD, hold, Option.getD_some, List.map_append,
          List.map_cons, List.flatten_append, List.flatten_cons, List.append_assoc]
        have hlast : ([n] ++ (post.map Prod.snd).flatten).Perm
            ((post.map Prod.snd).flatten ++ [n]) := List.perm_append_comm
        exact (hlast.append_left old).append_left _

theorem groupBy_of_ordered {key : α → κ} {rank : κ → ℤ} {l : List α}
    (h : l.Pairwise fun a b => rank (key a) ≤ rank (key b))
    (hinj : ∀ a ∈ l, ∀ b ∈ l, rank (key a) = rank (key b) → key a = key b) :
    (groupBy key l).values.flatten = l ∧
      (groupBy key l).keys.Pairwise fun k k' => rank k < rank k' := by
  induction l using List.reverseRecOn with
  | nil => simp [groupBy, values, keys, empty]
  | append_singleton l n ih =>
      rw [List.pairwise_append] at h
      obtain ⟨hflatten, hkeys⟩ := ih h.1 fun a ha b hb =>
        hinj a (List.mem_append_left _ ha) b (List.mem_append_left _ hb)
      have hle : ∀ k ∈ (groupBy key l).keys, rank k ≤ rank (key n) := by
        intro k hk
        obtain ⟨a, ha, rfl⟩ := (mem_keys_groupBy key l k).mp hk
        exact h.2.2 a ha n (List.mem_singleton_self n)
      rw [groupBy_concat, append]
      by_cases hget : (groupBy key l).get? (key n) = none
      · have hnew := (get?_eq_none_iff _ _).mp hget
        have hlt : ∀ k ∈ (groupBy key l).keys, rank k < rank (key n) := by
          intro k hk
          refine Int.lt_iff_le_and_ne.mpr ⟨hle k hk, fun heq => hnew ?_⟩
          obtain ⟨a, ha, rfl⟩ := (mem_keys_groupBy key l k).mp hk
          rwa [← hinj a (List.mem_append_left _ ha) n (by simp) heq]
        refine ⟨?_, ?_⟩
        · simp only [values, items_set_of_notMem hnew, getD, hget, Option.getD_none,
            List.nil_append, List.map_append, List.map_cons, List.map_nil, List.flatten_append,
            List.flatten_cons, List.flatten_nil, List.append_nil]
          rw [← values, hflatten]
        · rw [keys_set_of_notMem hnew, List.pairwise_append]
          refine ⟨hkeys, List.pairwise_singleton _ _, ?_⟩
          intro k hk k' hk'
          rw [List.mem_singleton.mp hk']
          exact hlt k hk
      · obtain ⟨old, hold⟩ := Option.ne_none_iff_exists'.mp hget
        obtain ⟨pre, post, hitems, hset⟩ := exists_items_set hold
        have hpost : post = [] := by
          -- a key after the last one would be of a later element
          rcases post with _ | ⟨kv, post⟩
          · rfl
          · have hafter : kv.1 ∈ (groupBy key l).keys := by
              simp [keys, hitems]
            rw [keys, hitems, List.map_append, List.map_cons, List.map_cons,
              List.pairwise_append, List.pairwise_cons] at hkeys
            exact absurd (hkeys.2.1.1 kv.1 List.mem_cons_self) (Int.not_lt.mpr (hle kv.1 hafter))
        subst hpost
        refine ⟨?_, ?_⟩
        · simp only [values, hset, getD, hold, Option.getD_some, List.map_append, List.map_cons,
            List.map_nil, List.flatten_append, List.flatten_cons, List.flatten_nil,
            List.append_nil]
          rw [values, hitems] at hflatten
          simp only [List.map_append, List.map_cons, List.map_nil, List.flatten_append,
            List.flatten_cons, List.flatten_nil, List.append_nil] at hflatten
          rw [← List.append_assoc, hflatten]
        · rwa [keys_set_of_mem (mem_keys_of_get? hold)]

end Dict

end Sentinel
