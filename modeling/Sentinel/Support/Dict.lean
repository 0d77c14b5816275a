import Mathlib.Data.List.Nodup
import Mathlib.Data.List.Lookmap
import Mathlib.Algebra.BigOperators.Group.List.Basic
import Mathlib.Tactic.Abel

/-!
# Insertion-ordered dictionaries

A dictionary is the list of its items, oldest key first, together with the
proof that no key occurs twice.  Writing to a key that is present keeps its
place, and writing to a new key appends, which is the iteration order the
programs modelled over this file rely on.
-/

namespace Sentinel

structure Dict (κ α : Type*) where
  items : List (κ × α)
  nodup : (items.map Prod.fst).Nodup

namespace Dict

variable {κ α β : Type*}

def empty : Dict κ α := ⟨[], List.nodup_nil⟩

instance : Inhabited (Dict κ α) := ⟨empty⟩

def keys (d : Dict κ α) : List κ := d.items.map Prod.fst

def values (d : Dict κ α) : List α := d.items.map Prod.snd

def isEmpty (d : Dict κ α) : Bool := d.items.isEmpty

/-- Apply `f` to every value. -/
def mapValues (f : α → β) (d : Dict κ α) : Dict κ β where
  items := d.items.map fun kv => (kv.1, f kv.2)
  nodup := by
    simpa [List.map_map, Function.comp_def] using d.nodup

theorem ext_items {d e : Dict κ α} (h : d.items = e.items) : d = e := by
  cases d
  cases e
  simpa using h

variable [DecidableEq κ]

/-- The value stored under `k`, if there is one. -/
def get? (d : Dict κ α) (k : κ) : Option α := d.items.lookup k

/-- The value stored under `k`, or `fallback`. -/
def getD (d : Dict κ α) (k : κ) (fallback : α) : α := (d.get? k).getD fallback

def contains (d : Dict κ α) (k : κ) : Bool := (d.get? k).isSome

/-- Change the value stored under `k`, if there is one. -/
def adjust (d : Dict κ α) (k : κ) (f : α → α) : Dict κ α where
  items := d.items.map fun kv => if kv.1 = k then (kv.1, f kv.2) else kv
  nodup := by
    have hkeys : (fun kv : κ × α =>
        (if kv.1 = k then (kv.1, f kv.2) else kv).1) = Prod.fst := by
      funext kv
      split <;> rfl
    simpa [List.map_map, Function.comp_def, hkeys] using d.nodup

/-- Write `v` under `k`: in place when the key is present, at the end when it
is new. -/
def set (d : Dict κ α) (k : κ) (v : α) : Dict κ α :=
  if h : k ∈ d.keys then d.adjust k fun _ => v
  else
    { items := d.items ++ [(k, v)]
      nodup := by
        rw [List.map_append, List.nodup_append]
        refine ⟨d.nodup, by simp, ?_⟩
        intro a ha b hb hab
        have hbk : b = k := by simpa using hb
        exact h (hbk ▸ hab ▸ ha) }

theorem lookup_eq_none_iff (l : List (κ × α)) (k : κ) :
    l.lookup k = none ↔ k ∉ l.map Prod.fst := by
  induction l with
  | nil => simp
  | cons kv l ih =>
      rw [List.lookup_cons]
      by_cases hk : k = kv.1
      · simp [hk]
      · have hbeq : (k == kv.1) = false := by simpa using hk
        simp [hbeq, ih, hk]

theorem lookup_append (l₁ l₂ : List (κ × α)) (k : κ) :
    (l₁ ++ l₂).lookup k = (l₁.lookup k).or (l₂.lookup k) := by
  induction l₁ with
  | nil => simp
  | cons kv l ih =>
      rw [List.cons_append, List.lookup_cons, List.lookup_cons]
      cases k == kv.1 <;> simp [ih]

theorem lookup_adjust (l : List (κ × α)) (k k' : κ) (f : α → α) :
    (l.map fun kv => if kv.1 = k then (kv.1, f kv.2) else kv).lookup k' =
      if k' = k then (l.lookup k').map f else l.lookup k' := by
  induction l with
  | nil => simp
  | cons kv l ih =>
      rw [List.map_cons, List.lookup_cons, List.lookup_cons]
      by_cases hk' : k' = kv.1
      · by_cases hk : kv.1 = k
        · simp [hk', hk]
        · simp [hk', hk]
      · have hbeq : (k' == kv.1) = false := by simpa using hk'
        by_cases hk : kv.1 = k
        · subst hk
          simp [hbeq, hk', ih]
        · simp [hbeq, hk, ih]

theorem get?_eq_none_iff (d : Dict κ α) (k : κ) :
    d.get? k = none ↔ k ∉ d.keys :=
  lookup_eq_none_iff d.items k

theorem mem_keys_iff (d : Dict κ α) (k : κ) : k ∈ d.keys ↔ ∃ v, d.get? k = some v := by
  rw [← not_iff_not, ← get?_eq_none_iff, ← Option.ne_none_iff_exists', not_not]

variable {d : Dict κ α} {k : κ}

theorem mem_keys_of_get? {v : α} (h : d.get? k = some v) : k ∈ d.keys :=
  (mem_keys_iff d k).mpr ⟨v, h⟩

theorem exists_get?_of_mem (h : k ∈ d.keys) : ∃ v, d.get? k = some v :=
  (mem_keys_iff d k).mp h

@[simp] theorem get?_empty (k : κ) : (empty : Dict κ α).get? k = none := rfl

@[simp] theorem get?_mapValues (f : α → β) (d : Dict κ α) (k : κ) :
    (d.mapValues f).get? k = (d.get? k).map f := by
  unfold get? mapValues
  simp only
  induction d.items with
  | nil => simp
  | cons kv l ih =>
      rw [List.map_cons, List.lookup_cons, List.lookup_cons]
      cases k == kv.1 <;> simp [ih]

theorem get?_adjust (d : Dict κ α) (k k' : κ) (f : α → α) :
    (d.adjust k f).get? k' =
      if k' = k then (d.get? k').map f else d.get? k' :=
  lookup_adjust d.items k k' f

@[simp] theorem get?_adjust_self (d : Dict κ α) (k : κ) (f : α → α) :
    (d.adjust k f).get? k = (d.get? k).map f := by
  simp [get?_adjust]

theorem get?_adjust_of_ne (d : Dict κ α) {k k' : κ} (h : k' ≠ k)
    (f : α → α) : (d.adjust k f).get? k' = d.get? k' := by
  simp [get?_adjust, h]

theorem get?_foldl_adjust {τ : Type*} (key : τ → κ) (f : τ → α → α) (touches : List τ)
    (d : Dict κ α) (k : κ) :
    (touches.foldl (fun out t => out.adjust (key t) (f t)) d).get? k =
      (d.get? k).map fun a => (touches.filter fun t => key t = k).foldl (fun a t => f t a) a := by
  induction touches generalizing d with
  | nil => simp
  | cons t touches ih =>
      rw [List.foldl_cons, ih, get?_adjust]
      by_cases hk : k = key t
      · rw [if_pos hk, Option.map_map, List.filter_cons_of_pos (by simp [hk])]
        rfl
      · rw [if_neg hk, List.filter_cons_of_neg (by simpa using Ne.symm hk)]

@[simp] theorem get?_set_self (d : Dict κ α) (k : κ) (v : α) :
    (d.set k v).get? k = some v := by
  rw [set]
  split
  case isTrue h =>
    rw [get?_adjust_self]
    cases hk : d.get? k with
    | none => exact absurd h ((get?_eq_none_iff d k).1 hk)
    | some w => rfl
  case isFalse h =>
    have hnone : d.items.lookup k = none := (get?_eq_none_iff d k).2 h
    simp [get?, lookup_append, hnone]

theorem get?_set_of_ne (d : Dict κ α) {k k' : κ} (h : k' ≠ k) (v : α) :
    (d.set k v).get? k' = d.get? k' := by
  rw [set]
  split
  · exact get?_adjust_of_ne d h _
  · have hbeq : (k' == k) = false := by simpa using h
    simp [get?, lookup_append, List.lookup_cons, hbeq]

theorem items_set_of_notMem (h : k ∉ d.keys) (v : α) : (d.set k v).items = d.items ++ [(k, v)] := by
  rw [set]
  rw [dif_neg h]

theorem keys_set_of_mem (h : k ∈ d.keys) (v : α) : (d.set k v).keys = d.keys := by
  have hkeys : (fun kv : κ × α => (if kv.1 = k then (kv.1, v) else kv).1) = Prod.fst := by
    funext kv
    split <;> rfl
  rw [set, dif_pos h, keys, adjust, List.map_map, Function.comp_def, hkeys, keys]

theorem keys_set_of_notMem (h : k ∉ d.keys) (v : α) : (d.set k v).keys = d.keys ++ [k] := by
  rw [keys, items_set_of_notMem h, List.map_append]
  rfl

theorem mem_keys_set (d : Dict κ α) (k k' : κ) (v : α) :
    k' ∈ (d.set k v).keys ↔ k' = k ∨ k' ∈ d.keys := by
  rw [← not_iff_not, ← get?_eq_none_iff, not_or, ← get?_eq_none_iff]
  by_cases hk : k' = k
  · simp [hk]
  · simp [get?_set_of_ne d hk, hk]

theorem mem_items_set {v : α} {kv : κ × α}
    (h : kv ∈ (d.set k v).items) : kv = (k, v) ∨ kv ∈ d.items := by
  rw [set] at h
  split_ifs at h with hk
  · obtain ⟨kv', hmem, rfl⟩ := List.mem_map.1 h
    split_ifs with heq
    · exact Or.inl (by rw [heq])
    · exact Or.inr hmem
  · rcases List.mem_append.1 h with hmem | hnew
    · exact Or.inr hmem
    · exact Or.inl (List.mem_singleton.1 hnew)

theorem mem_items_iff (d : Dict κ α) (k : κ) (v : α) :
    (k, v) ∈ d.items ↔ d.get? k = some v := by
  obtain ⟨items, hnodup⟩ := d
  rw [get?]
  induction items with
  | nil => simp
  | cons kv l ih =>
      obtain ⟨key, w⟩ := kv
      rw [List.map_cons, List.nodup_cons] at hnodup
      rw [List.lookup_cons, List.mem_cons, Prod.mk.injEq]
      by_cases hk : k = key
      · subst hk
        have hnot : (k, v) ∉ l := fun hmem =>
          hnodup.1 (List.mem_map.2 ⟨(k, v), hmem, rfl⟩)
        simp [hnot, eq_comm]
      · have hbeq : (k == key) = false := by simpa using hk
        have htail := ih hnodup.2
        simp only at htail
        simp [hbeq, hk, htail]

theorem mem_values_iff (d : Dict κ α) (v : α) :
    v ∈ d.values ↔ ∃ k, d.get? k = some v := by
  simp only [values, List.mem_map, ← mem_items_iff]
  constructor
  · rintro ⟨⟨k, w⟩, hmem, rfl⟩
    exact ⟨k, hmem⟩
  · rintro ⟨k, hmem⟩
    exact ⟨(k, v), hmem, rfl⟩

theorem map_adjust_of_notMem {l : List (κ × α)} {k : κ} (f : α → α)
    (h : k ∉ l.map Prod.fst) :
    l.map (fun kv => if kv.1 = k then (kv.1, f kv.2) else kv) = l := by
  refine (List.map_congr_left fun kv hkv => ?_).trans (List.map_id l)
  have hne : kv.1 ≠ k := fun heq => h (heq ▸ List.mem_map_of_mem hkv)
  rw [if_neg hne]
  rfl

theorem items_perm {d e : Dict κ α} (h : ∀ k, d.get? k = e.get? k) : d.items.Perm e.items := by
  apply (List.perm_ext_iff_of_nodup d.nodup.of_map e.nodup.of_map).2
  rintro ⟨k, v⟩
  rw [mem_items_iff, mem_items_iff, h k]

theorem exists_items_set {old : α} (h : d.get? k = some old) :
    ∃ pre post, d.items = pre ++ (k, old) :: post ∧
      ∀ v, (d.set k v).items = pre ++ (k, v) :: post := by
  have hmem := (mem_items_iff d k old).2 h
  obtain ⟨pre, post, hitems⟩ := List.append_of_mem hmem
  refine ⟨pre, post, hitems, fun v => ?_⟩
  have hnodup := d.nodup
  rw [hitems, List.map_append, List.map_cons, List.nodup_append, List.nodup_cons] at hnodup
  obtain ⟨-, ⟨hpost, -⟩, hpre⟩ := hnodup
  have hpre' : k ∉ pre.map Prod.fst := fun hk => hpre k hk k (by simp) rfl
  have hk : k ∈ d.keys := List.mem_map_of_mem hmem
  rw [set]
  simp only [dif_pos hk, adjust, hitems, List.map_append, List.map_cons, if_true,
    map_adjust_of_notMem (fun _ => v) hpost, map_adjust_of_notMem (fun _ => v) hpre']

/-! ## Built from a list, and keys removed -/

/-- `{k: v for k, v in entries}`: the last value of a key counts. -/
def ofEntries (entries : List (κ × α)) : Dict κ α :=
  entries.foldl (fun d kv => d.set kv.1 kv.2) empty

theorem get?_foldl_set (entries : List (κ × α)) (d : Dict κ α) (k : κ) :
    (entries.foldl (fun d kv => d.set kv.1 kv.2) d).get? k =
      ((ofEntries entries).get? k).or (d.get? k) := by
  rw [ofEntries]
  induction entries generalizing d with
  | nil => simp
  | cons kv entries ih =>
      rw [List.foldl_cons, List.foldl_cons, ih (d.set kv.1 kv.2), ih (empty.set kv.1 kv.2)]
      by_cases hk : k = kv.1
      · subst hk
        simp
      · simp [get?_set_of_ne _ hk]

@[simp] theorem ofEntries_nil : (ofEntries [] : Dict κ α) = empty := rfl

theorem get?_ofEntries_append (l₁ l₂ : List (κ × α)) (k : κ) :
    (ofEntries (l₁ ++ l₂)).get? k = ((ofEntries l₂).get? k).or ((ofEntries l₁).get? k) := by
  rw [ofEntries, List.foldl_append, get?_foldl_set, ← ofEntries]

theorem get?_ofEntries_cons (kv : κ × α) (l : List (κ × α)) (k : κ) :
    (ofEntries (kv :: l)).get? k =
      ((ofEntries l).get? k).or (if k = kv.1 then some kv.2 else none) := by
  rw [ofEntries, List.foldl_cons, get?_foldl_set]
  by_cases hk : k = kv.1
  · subst hk
    simp
  · simp [get?_set_of_ne _ hk, hk]

theorem get?_ofEntries_eq_none_iff (l : List (κ × α)) (k : κ) :
    (ofEntries l).get? k = none ↔ k ∉ l.map Prod.fst := by
  induction l with
  | nil => simp
  | cons kv l ih =>
      rw [get?_ofEntries_cons, Option.or_eq_none_iff, ih]
      by_cases hk : k = kv.1 <;> simp [hk]

theorem mem_of_get?_ofEntries {l : List (κ × α)} {k : κ} {v : α}
    (h : (ofEntries l).get? k = some v) : (k, v) ∈ l := by
  induction l with
  | nil => simp at h
  | cons kv l ih =>
      rw [get?_ofEntries_cons, Option.or_eq_some_iff] at h
      rcases h with h | ⟨-, h⟩
      · exact List.mem_cons_of_mem _ (ih h)
      · split_ifs at h with hk
        have hv : kv.2 = v := Option.some.inj h
        rw [hk, ← hv]
        exact List.mem_cons_self

theorem get?_ofEntries_eq_some_last {l : List (κ × α)} {k : κ} {v : α} :
    (ofEntries l).get? k = some v ↔
      ∃ before after, l = before ++ (k, v) :: after ∧ k ∉ after.map Prod.fst := by
  induction l with
  | nil => simp
  | cons kv l ih =>
      rw [get?_ofEntries_cons, Option.or_eq_some_iff, get?_ofEntries_eq_none_iff, ih]
      constructor
      · rintro (⟨before, after, rfl, hafter⟩ | ⟨hnone, hfirst⟩)
        · exact ⟨kv :: before, after, rfl, hafter⟩
        · split_ifs at hfirst with hk
          exact ⟨[], l, by rw [hk, ← Option.some.inj hfirst, List.nil_append], hnone⟩
      · rintro ⟨before, after, hl, hafter⟩
        rcases before with _ | ⟨first, before⟩
        · obtain ⟨rfl, rfl⟩ := List.cons.inj hl
          exact Or.inr ⟨hafter, if_pos rfl⟩
        · obtain ⟨-, rfl⟩ := List.cons.inj hl
          exact Or.inl ⟨before, after, rfl, hafter⟩

theorem get?_ofEntries_filterMap {β : Type*} (d : Dict κ α) (f : κ → α → Option β) (k : κ) :
    (ofEntries (d.items.filterMap fun kv => (f kv.1 kv.2).map fun b => (kv.1, b))).get? k =
      (d.get? k).bind (f k) := by
  have hmem : ∀ b, (k, b) ∈ d.items.filterMap (fun kv => (f kv.1 kv.2).map fun b => (kv.1, b)) ↔
      (d.get? k).bind (f k) = some b := by
    intro b
    simp only [List.mem_filterMap, Option.map_eq_some_iff, Prod.mk.injEq, Option.bind_eq_some_iff]
    constructor
    · rintro ⟨⟨k', v⟩, hitem, b', hb', rfl, rfl⟩
      exact ⟨v, (mem_items_iff d _ v).1 hitem, hb'⟩
    · rintro ⟨v, hget, hb⟩
      exact ⟨(k, v), (mem_items_iff d k v).2 hget, b, hb, rfl, rfl⟩
  cases hget : (ofEntries (d.items.filterMap fun kv =>
      (f kv.1 kv.2).map fun b => (kv.1, b))).get? k with
  | some b => exact ((hmem b).1 (mem_of_get?_ofEntries hget)).symm
  | none =>
      rw [get?_ofEntries_eq_none_iff] at hget
      cases hbind : (d.get? k).bind (f k) with
      | none => rfl
      | some b => exact absurd (List.mem_map_of_mem ((hmem b).2 hbind)) hget

theorem get?_ofEntries_keys (l : List κ) (f : κ → Option α) (k : κ) :
    (ofEntries (l.filterMap fun k => (f k).map fun v => (k, v))).get? k =
      if k ∈ l then f k else none := by
  induction l with
  | nil => simp
  | cons a l ih =>
      rw [List.filterMap_cons]
      cases hfa : f a with
      | none =>
          simp only [Option.map_none, ih]
          by_cases hk : k = a
          · subst hk
            simp [hfa]
          · simp [hk]
      | some v =>
          simp only [Option.map_some, get?_ofEntries_cons, ih]
          by_cases hk : k = a
          · subst hk
            by_cases hl : k ∈ l <;> simp [hl, hfa]
          · simp [hk]

theorem get?_ofEntries_map (l : List κ) (f : κ → α) (k : κ) :
    (ofEntries (l.map fun k => (k, f k))).get? k = if k ∈ l then some (f k) else none := by
  have hkeys := get?_ofEntries_keys l (fun k => some (f k)) k
  simpa only [Option.map_some, List.filterMap_eq_map'] using hkeys

theorem items_foldl_set (entries : List (κ × α)) (d : Dict κ α)
    (h : (d.keys ++ entries.map Prod.fst).Nodup) :
    (entries.foldl (fun d kv => d.set kv.1 kv.2) d).items = d.items ++ entries := by
  induction entries generalizing d with
  | nil => simp
  | cons kv entries ih =>
      have hnew : kv.1 ∉ d.keys := by
        rw [List.map_cons, List.nodup_append] at h
        intro hmem
        exact h.2.2 kv.1 hmem kv.1 List.mem_cons_self rfl
      have hset := items_set_of_notMem hnew kv.2
      rw [List.foldl_cons, ih (d.set kv.1 kv.2), hset]
      · simp
      · simpa [keys, hset] using h

theorem ofEntries_items (d : Dict κ α) : ofEntries d.items = d := by
  apply ext_items
  rw [ofEntries, items_foldl_set _ _ (by simpa [keys, empty] using d.nodup)]
  rfl

/-- `d.update(e)`. -/
def update (d e : Dict κ α) : Dict κ α := e.items.foldl (fun d kv => d.set kv.1 kv.2) d

@[simp] theorem get?_update (d e : Dict κ α) (k : κ) :
    (d.update e).get? k = (e.get? k).or (d.get? k) := by
  rw [update, get?_foldl_set, ofEntries_items]

theorem get?_ofEntries_eq_some_iff {l : List (κ × α)} (h : (l.map Prod.fst).Nodup) {k : κ}
    {v : α} : (ofEntries l).get? k = some v ↔ (k, v) ∈ l := by
  have hentries : ofEntries l = ⟨l, h⟩ := ofEntries_items ⟨l, h⟩
  rw [hentries, ← mem_items_iff]

theorem get?_ofEntries_perm {l l' : List (κ × α)} (hperm : l.Perm l')
    (h : (l.map Prod.fst).Nodup) (k : κ) : (ofEntries l).get? k = (ofEntries l').get? k := by
  apply Option.ext
  intro v
  rw [get?_ofEntries_eq_some_iff h,
    get?_ofEntries_eq_some_iff ((hperm.map Prod.fst).nodup_iff.1 h), hperm.mem_iff]

/-- `d.pop(k, None)`. -/
def erase (d : Dict κ α) (k : κ) : Dict κ α where
  items := d.items.filter fun kv => kv.1 ≠ k
  nodup := d.nodup.sublist (List.filter_sublist.map _)

/-- Only the keys that satisfy `p`. -/
def restrict (d : Dict κ α) (p : κ → Bool) : Dict κ α where
  items := d.items.filter fun kv => p kv.1
  nodup := d.nodup.sublist (List.filter_sublist.map _)

theorem get?_restrict (d : Dict κ α) (p : κ → Bool) (k : κ) :
    (d.restrict p).get? k = if p k then d.get? k else none := by
  unfold get? restrict
  simp only
  induction d.items with
  | nil => simp
  | cons kv l ih =>
      obtain ⟨key, v⟩ := kv
      rw [List.filter_cons]
      by_cases hk : k = key
      · subst hk
        cases hp : p k
        · simpa [hp] using ih
        · simp
      · have hbeq : (k == key) = false := by simpa using hk
        cases p key
        · simpa [List.lookup_cons, hbeq] using ih
        · simpa [List.lookup_cons, hbeq] using ih

/-- Only the items that satisfy `p`. -/
def keep (d : Dict κ α) (p : κ → α → Bool) : Dict κ α where
  items := d.items.filter fun kv => p kv.1 kv.2
  nodup := d.nodup.sublist (List.filter_sublist.map _)

theorem get?_keep (d : Dict κ α) (p : κ → α → Bool) (k : κ) :
    (d.keep p).get? k = (d.get? k).filter (p k) := by
  apply Option.ext
  intro v
  rw [← mem_items_iff, keep, List.mem_filter, mem_items_iff, Option.filter_eq_some_iff]

theorem get?_erase (d : Dict κ α) (k k' : κ) :
    (d.erase k).get? k' = if k' = k then none else d.get? k' := by
  have hrestrict : d.erase k = d.restrict fun key => decide (key ≠ k) := rfl
  rw [hrestrict, get?_restrict]
  by_cases hk : k' = k <;> simp [hk]

@[simp] theorem get?_erase_self (d : Dict κ α) (k : κ) : (d.erase k).get? k = none := by
  simp [get?_erase]

theorem get?_erase_of_ne (d : Dict κ α) {k k' : κ} (h : k' ≠ k) :
    (d.erase k).get? k' = d.get? k' := by
  simp [get?_erase, h]

theorem get?_set (d : Dict κ α) (k k' : κ) (v : α) :
    (d.set k v).get? k' = if k' = k then some v else d.get? k' := by
  by_cases hk : k' = k
  · simp [hk]
  · simp [get?_set_of_ne _ hk, hk]

/-- `d.setdefault(k, v)`. -/
def setDefault (d : Dict κ α) (k : κ) (v : α) : Dict κ α := if d.contains k then d else d.set k v

theorem get?_setDefault (d : Dict κ α) (k k' : κ) (v : α) :
    (d.setDefault k v).get? k' = if k' = k then some ((d.get? k).getD v) else d.get? k' := by
  rw [setDefault, contains]
  rcases hk : d.get? k with _ | old
  · rw [Option.isSome_none, if_neg Bool.false_ne_true, get?_set]
    rfl
  · rw [Option.isSome_some, if_pos rfl]
    by_cases heq : k' = k
    · rw [if_pos heq, heq, hk]
      rfl
    · rw [if_neg heq]

/-! ## Running totals -/

section Totals

variable [AddCommMonoid α]

/-- Add `v` to the amount under `k`, from zero when the key is new. -/
def addTo (d : Dict κ α) (k : κ) (v : α) : Dict κ α := d.set k (d.getD k 0 + v)

def totals (entries : List (κ × α)) : Dict κ α :=
  entries.foldl (fun d kv => d.addTo kv.1 kv.2) empty

theorem getD_addTo (d : Dict κ α) (k k' : κ) (v : α) :
    (d.addTo k v).getD k' 0 = d.getD k' 0 + if k' = k then v else 0 := by
  by_cases h : k' = k
  · subst h
    simp [addTo, getD]
  · simp [addTo, getD, get?_set_of_ne _ h, h]

theorem getD_foldl_addTo (entries : List (κ × α)) (d : Dict κ α) (k : κ) :
    (entries.foldl (fun d kv => d.addTo kv.1 kv.2) d).getD k 0 =
      d.getD k 0 + (entries.map fun kv => if k = kv.1 then kv.2 else 0).sum := by
  induction entries generalizing d with
  | nil => simp
  | cons kv entries ih =>
      rw [List.foldl_cons, ih, getD_addTo, List.map_cons, List.sum_cons, add_assoc]

theorem getD_totals (entries : List (κ × α)) (k : κ) :
    (totals entries).getD k 0 =
      (entries.map fun kv => if k = kv.1 then kv.2 else 0).sum := by
  rw [totals, getD_foldl_addTo]
  simp [getD]

theorem isSome_get?_addTo (d : Dict κ α) (k k' : κ) (v : α) :
    ((d.addTo k v).get? k').isSome ↔ k' = k ∨ (d.get? k').isSome := by
  by_cases h : k' = k
  · subst h
    simp [addTo]
  · simp [addTo, get?_set_of_ne _ h, h]

theorem isSome_get?_foldl_addTo (entries : List (κ × α)) (d : Dict κ α) (k : κ) :
    ((entries.foldl (fun d kv => d.addTo kv.1 kv.2) d).get? k).isSome ↔
      k ∈ entries.map Prod.fst ∨ (d.get? k).isSome := by
  induction entries generalizing d with
  | nil => simp
  | cons kv entries ih =>
      rw [List.foldl_cons, ih, isSome_get?_addTo, List.map_cons, List.mem_cons]
      tauto

theorem get?_totals_perm {entries entries' : List (κ × α)} (h : entries.Perm entries') (k : κ) :
    (totals entries).get? k = (totals entries').get? k := by
  have hkeys : ((totals entries).get? k).isSome = ((totals entries').get? k).isSome := by
    rw [Bool.eq_iff_iff, totals, totals, isSome_get?_foldl_addTo, isSome_get?_foldl_addTo,
      (h.map Prod.fst).mem_iff]
  have hamount : (totals entries).getD k 0 = (totals entries').getD k 0 := by
    rw [getD_totals, getD_totals]
    exact (h.map _).sum_eq
  rw [getD, getD] at hamount
  rcases hleft : (totals entries).get? k with _ | v
  · rcases hright : (totals entries').get? k with _ | w
    · rfl
    · simp [hleft, hright] at hkeys
  · rcases hright : (totals entries').get? k with _ | w
    · simp [hleft, hright] at hkeys
    · rw [hleft, hright] at hamount
      exact congrArg some hamount

end Totals

/-! ## Sums over the values -/

section Sums

variable {M : Type*} [AddCommGroup M]

/-- The sum of `f` over the values. -/
def sumOf (f : α → M) (d : Dict κ α) : M := (d.values.map f).sum

omit [DecidableEq κ] in
@[simp] theorem sumOf_empty (f : α → M) : (empty : Dict κ α).sumOf f = 0 := rfl

theorem sumOf_set_of_get? (f : α → M) {d : Dict κ α} {k : κ} {old : α}
    (h : d.get? k = some old) (v : α) : (d.set k v).sumOf f = d.sumOf f - f old + f v := by
  obtain ⟨pre, post, hitems, hset⟩ := exists_items_set h
  simp only [sumOf, values, hset, hitems, List.map_append, List.map_cons, List.sum_append,
    List.sum_cons]
  abel

theorem sumOf_set_of_none (f : α → M) {d : Dict κ α} {k : κ} (h : d.get? k = none) (v : α) :
    (d.set k v).sumOf f = d.sumOf f + f v := by
  have hitems := items_set_of_notMem ((get?_eq_none_iff d k).1 h) v
  simp [sumOf, values, hitems]

theorem filter_ne_of_notMem {l : List (κ × α)} {k : κ} (h : k ∉ l.map Prod.fst) :
    l.filter (fun kv => kv.1 ≠ k) = l := by
  refine List.filter_eq_self.2 fun kv hkv => ?_
  have hne : kv.1 ≠ k := fun heq => h (heq ▸ List.mem_map_of_mem hkv)
  simpa using hne

theorem exists_items_erase {old : α} (h : d.get? k = some old) :
    ∃ pre post, d.items = pre ++ (k, old) :: post ∧ (d.erase k).items = pre ++ post := by
  obtain ⟨pre, post, hitems⟩ := List.append_of_mem ((mem_items_iff d k old).2 h)
  have hnodup := d.nodup
  rw [hitems, List.map_append, List.map_cons, List.nodup_append, List.nodup_cons] at hnodup
  obtain ⟨-, ⟨hpost, -⟩, hpre⟩ := hnodup
  have hpre' : k ∉ pre.map Prod.fst := fun hk => hpre k hk k (by simp) rfl
  refine ⟨pre, post, hitems, ?_⟩
  rw [erase]
  simp only [hitems, List.filter_append, List.filter_cons]
  rw [filter_ne_of_notMem hpre', filter_ne_of_notMem hpost]
  simp

theorem filterMap_items_single {f : κ × α → Option β}
    (h : ∀ other v, other ≠ k → d.get? other = some v → f (other, v) = none) :
    d.items.filterMap f = ((d.get? k).bind fun v => f (k, v)).toList := by
  have hnone : ∀ l : List (κ × α), (∀ kv ∈ l, kv ∈ d.items ∧ kv.1 ≠ k) →
      l.filterMap f = [] := by
    intro l hl
    rw [List.filterMap_eq_nil_iff]
    intro kv hkv
    obtain ⟨hin, hne⟩ := hl kv hkv
    exact h kv.1 kv.2 hne ((mem_items_iff d kv.1 kv.2).mp hin)
  rcases hget : d.get? k with _ | v
  · refine hnone d.items fun kv hkv => ⟨hkv, fun heq => ?_⟩
    exact (get?_eq_none_iff d k).mp hget (heq ▸ List.mem_map_of_mem hkv)
  · obtain ⟨pre, post, hitems, herase⟩ := exists_items_erase hget
    have hrest : ∀ kv ∈ pre ++ post, kv ∈ d.items ∧ kv.1 ≠ k := by
      intro kv hkv
      refine ⟨?_, fun heq => ?_⟩
      · rw [hitems]
        simp only [List.mem_append, List.mem_cons] at hkv ⊢
        exact hkv.imp_right .inr
      · have hin : k ∈ (d.erase k).keys := by
          rw [keys, herase]
          exact heq ▸ List.mem_map_of_mem hkv
        exact (get?_eq_none_iff _ _).mp (get?_erase_self d k) hin
    rw [hitems, List.filterMap_append, List.filterMap_cons,
      hnone pre fun kv hkv => hrest kv (List.mem_append_left _ hkv),
      hnone post fun kv hkv => hrest kv (List.mem_append_right _ hkv)]
    rcases hf : f (k, v) with _ | c
    · simp [hf]
    · simp [hf]

theorem sumOf_erase (f : α → M) {d : Dict κ α} {k : κ} {old : α} (h : d.get? k = some old) :
    (d.erase k).sumOf f = d.sumOf f - f old := by
  obtain ⟨pre, post, hitems, herase⟩ := exists_items_erase h
  simp only [sumOf, values, hitems, herase, List.map_append, List.map_cons, List.sum_append,
    List.sum_cons]
  abel
end Sums

end Dict

end Sentinel
