import Sentinel.Support.Dict

/-!
# Nested mappings

A nested mapping is a tree of mappings, lists and scalars, some of which are null.
A place is the way from its root to one of its nodes, and two nested mappings agree
where the same nodes are at the same places.

A patch is merged into a mapping entry by entry: where both have a mapping
under a key these are merged in turn, and otherwise the value of the patch
takes the place of the old one.  A merge takes no key away.
-/

namespace Sentinel

/-- Mappings, lists and scalars; the scalar `none` is null. -/
inductive Nested (κ α : Type) where
  | scalar (v : Option α)
  | dict (items : List (κ × Nested κ α))
  | list (elements : List (Nested κ α))

/-- One step down: into an entry of a mapping or an element of a list. -/
inductive Step (κ : Type) where
  | key (k : κ)
  | index (i : ℕ)
  deriving DecidableEq

inductive NodeKind (α : Type) where
  | scalar (v : Option α)
  | dict
  | list
  deriving DecidableEq

namespace Nested

variable {κ α : Type}

def kind : Nested κ α → NodeKind α
  | scalar v => .scalar v
  | dict _ => .dict
  | list _ => .list

mutual

/-- The scalars and their places, in the order of the entries. -/
def scalars : Nested κ α → List (List (Step κ) × Option α)
  | scalar v => [([], v)]
  | dict items => scalarsOfItems items
  | list elements => scalarsOfElements 0 elements

def scalarsOfItems : List (κ × Nested κ α) → List (List (Step κ) × Option α)
  | [] => []
  | (k, c) :: items =>
      c.scalars.map (fun e => (.key k :: e.1, e.2)) ++ scalarsOfItems items

def scalarsOfElements (i : ℕ) : List (Nested κ α) → List (List (Step κ) × Option α)
  | [] => []
  | c :: elements =>
      c.scalars.map (fun e => (.index i :: e.1, e.2)) ++ scalarsOfElements (i + 1) elements

end

variable {items : List (κ × Nested κ α)}

theorem mem_scalarsOfItems_iff {place : List (Step κ)}
    {v : Option α} :
    (place, v) ∈ scalarsOfItems items ↔
      ∃ k c below, (k, c) ∈ items ∧ place = .key k :: below ∧ (below, v) ∈ c.scalars := by
  induction items with
  | nil => simp [scalarsOfItems]
  | cons item items ih =>
    obtain ⟨k, c⟩ := item
    rw [scalarsOfItems, List.mem_append, ih]
    constructor
    · rintro (hfirst | ⟨k', c', below, hmem, hplace, hbelow⟩)
      · obtain ⟨⟨below, w⟩, hbelow, heq⟩ := List.mem_map.mp hfirst
        obtain ⟨rfl, rfl⟩ := Prod.mk.inj heq
        exact ⟨k, c, below, List.mem_cons_self, rfl, hbelow⟩
      · exact ⟨k', c', below, List.mem_cons_of_mem _ hmem, hplace, hbelow⟩
    · rintro ⟨k', c', below, hmem, rfl, hbelow⟩
      rcases List.mem_cons.mp hmem with heq | hmem
      · obtain ⟨rfl, rfl⟩ := Prod.mk.inj heq
        exact Or.inl (List.mem_map.mpr ⟨(below, v), hbelow, rfl⟩)
      · exact Or.inr ⟨k', c', below, hmem, rfl, hbelow⟩

variable {elements : List (Nested κ α)}

theorem mem_scalarsOfElements_iff {i : ℕ}
    {place : List (Step κ)} {v : Option α} :
    (place, v) ∈ scalarsOfElements i elements ↔
      ∃ j c below, elements[j]? = some c ∧ place = .index (i + j) :: below ∧
        (below, v) ∈ c.scalars := by
  induction elements generalizing i with
  | nil => simp [scalarsOfElements]
  | cons c elements ih =>
    rw [scalarsOfElements, List.mem_append, ih]
    constructor
    · rintro (hfirst | ⟨j, c', below, hmem, hplace, hbelow⟩)
      · obtain ⟨⟨below, w⟩, hbelow, heq⟩ := List.mem_map.mp hfirst
        obtain ⟨rfl, rfl⟩ := Prod.mk.inj heq
        exact ⟨0, c, below, rfl, rfl, hbelow⟩
      · refine ⟨j + 1, c', below, hmem, ?_, hbelow⟩
        rw [hplace, Nat.add_right_comm, Nat.add_assoc]
    · rintro ⟨j, c', below, hmem, rfl, hbelow⟩
      rcases j with _ | j
      · obtain rfl := Option.some.inj hmem
        exact Or.inl (List.mem_map.mpr ⟨(below, v), hbelow, rfl⟩)
      · refine Or.inr ⟨j, c', below, hmem, ?_, hbelow⟩
        rw [Nat.add_right_comm, Nat.add_assoc]

theorem kind_eq_scalar_iff {c : Nested κ α} {v : Option α} : c.kind = .scalar v ↔ c = scalar v := by
  cases c with
  | scalar w => simp [kind]
  | dict items => simp [kind]
  | list elements => simp [kind]

variable [DecidableEq κ]

def at? : Nested κ α → List (Step κ) → Option (Nested κ α)
  | c, [] => some c
  | dict items, .key k :: place => (items.lookup k).bind fun c => c.at? place
  | list elements, .index i :: place => (elements[i]?).bind fun c => c.at? place
  | _, _ :: _ => none

/-- No mapping has a key twice. -/
def WellFormed (c : Nested κ α) : Prop :=
  ∀ place items, c.at? place = some (dict items) → (items.map Prod.fst).Nodup

/-- The same nodes at the same places: the order of the entries does not count. -/
def Agrees (c c' : Nested κ α) : Prop :=
  ∀ place, (c.at? place).map kind = (c'.at? place).map kind

variable {c : Nested κ α}

@[simp] theorem at?_scalar_cons (v : Option α) (step : Step κ) (place : List (Step κ)) :
    (scalar v : Nested κ α).at? (step :: place) = none := by
  cases step
  · rfl
  · rfl

theorem at?_dict_cons_of_ne {k k' : κ} (h : k ≠ k') (c : Nested κ α)
    (items : List (κ × Nested κ α)) (place : List (Step κ)) :
    (dict ((k', c) :: items)).at? (.key k :: place) = (dict items).at? (.key k :: place) := by
  rw [at?, at?, List.lookup_cons, beq_eq_false_iff_ne.mpr h]

theorem Agrees.at?_eq_scalar_iff {c' : Nested κ α} (h : c.Agrees c') {place : List (Step κ)}
    {v : Option α} : c.at? place = some (scalar v) ↔ c'.at? place = some (scalar v) := by
  have hkind : ∀ d : Nested κ α, d.at? place = some (scalar v) ↔
      (d.at? place).map kind = some (.scalar v) := by
    intro d
    simp only [Option.map_eq_some_iff, kind_eq_scalar_iff, exists_eq_right]
  rw [hkind c, hkind c', h place]

theorem WellFormed.nodup (h : (dict items : Nested κ α).WellFormed) : (items.map Prod.fst).Nodup :=
  h [] items rfl

theorem WellFormed.of_lookup
    (h : (dict items : Nested κ α).WellFormed) {k : κ} (hk : items.lookup k = some c) :
    c.WellFormed := by
  intro place below hplace
  refine h (.key k :: place) below ?_
  rw [at?, hk]
  exact hplace

theorem WellFormed.of_getElem?
    (h : (list elements : Nested κ α).WellFormed) {i : ℕ} (hi : elements[i]? = some c) :
    c.WellFormed := by
  intro place below hplace
  refine h (.index i :: place) below ?_
  rw [at?, hi]
  exact hplace

theorem wellFormed_dict (h : (items.map Prod.fst).Nodup)
    (hitems : ∀ item ∈ items, item.2.WellFormed) : (dict items).WellFormed := by
  intro place below hat
  rcases place with _ | ⟨_ | _, place⟩
  · obtain rfl := dict.inj (Option.some.inj hat)
    exact h
  · rw [at?, Option.bind_eq_some_iff] at hat
    obtain ⟨c, hlookup, hat⟩ := hat
    exact hitems (_, c) ((Dict.mem_items_iff ⟨items, h⟩ _ c).mpr hlookup) place below hat
  · cases hat

theorem wellFormed_empty : (dict [] : Nested κ α).WellFormed :=
  wellFormed_dict List.nodup_nil (by simp)

theorem wellFormed_list
    (h : ∀ element ∈ elements, element.WellFormed) : (list elements).WellFormed := by
  intro place below hat
  rcases place with _ | ⟨_ | _, place⟩
  · cases hat
  · cases hat
  · rw [at?, Option.bind_eq_some_iff] at hat
    obtain ⟨c, hmem, hat⟩ := hat
    exact h c (List.mem_of_getElem? hmem) place below hat

theorem mem_scalars_iff (h : c.WellFormed) {place : List (Step κ)} {v : Option α} :
    (place, v) ∈ c.scalars ↔ c.at? place = some (scalar v) := by
  induction place generalizing c with
  | nil =>
    cases c with
    | scalar w => simp [scalars, at?, eq_comm]
    | dict items => simp [scalars, at?, mem_scalarsOfItems_iff]
    | list elements => simp [scalars, at?, mem_scalarsOfElements_iff]
  | cons step place ih =>
    cases c with
    | scalar w => simp [scalars]
    | dict items =>
      rw [scalars, mem_scalarsOfItems_iff]
      constructor
      · rintro ⟨k, c, below, hmem, hplace, hbelow⟩
        obtain ⟨rfl, rfl⟩ := List.cons.inj hplace
        have hlookup : items.lookup k = some c :=
          (Dict.mem_items_iff ⟨items, h.nodup⟩ k c).mp hmem
        rw [at?, hlookup]
        exact (ih (h.of_lookup hlookup)).mp hbelow
      · intro hat
        cases step with
        | index i => cases hat
        | key k =>
          rw [at?, Option.bind_eq_some_iff] at hat
          obtain ⟨c, hlookup, hat⟩ := hat
          exact ⟨k, c, place, (Dict.mem_items_iff ⟨items, h.nodup⟩ k c).mpr hlookup, rfl,
            (ih (h.of_lookup hlookup)).mpr hat⟩
    | list elements =>
      rw [scalars, mem_scalarsOfElements_iff]
      constructor
      · rintro ⟨j, c, below, hmem, hplace, hbelow⟩
        rw [Nat.zero_add] at hplace
        obtain ⟨rfl, rfl⟩ := List.cons.inj hplace
        rw [at?, hmem]
        exact (ih (h.of_getElem? hmem)).mp hbelow
      · intro hat
        cases step with
        | key k => cases hat
        | index i =>
          rw [at?, Option.bind_eq_some_iff] at hat
          obtain ⟨c, hmem, hat⟩ := hat
          exact ⟨i, c, place, hmem, by rw [Nat.zero_add], (ih (h.of_getElem? hmem)).mpr hat⟩

/-! ## Merging -/

section Equality

variable [DecidableEq α]

mutual

/-- Equality is decided node by node. -/
def decEq : (c d : Nested κ α) → Decidable (c = d)
  | .scalar v, .scalar w => decidable_of_iff (v = w) (by simp)
  | .dict l, .dict r =>
      have := decEqItems l r
      decidable_of_iff (l = r) (by simp)
  | .list l, .list r =>
      have := decEqElements l r
      decidable_of_iff (l = r) (by simp)
  | .scalar _, .dict _ | .scalar _, .list _ | .dict _, .scalar _ | .dict _, .list _
  | .list _, .scalar _ | .list _, .dict _ => isFalse (by simp)

def decEqItems : (l r : List (κ × Nested κ α)) → Decidable (l = r)
  | [], [] => isTrue rfl
  | [], _ :: _ | _ :: _, [] => isFalse (by simp)
  | (k, c) :: l, (k', d) :: r =>
      have := decEq c d
      have := decEqItems l r
      decidable_of_iff ((k = k' ∧ c = d) ∧ l = r) (by simp)

def decEqElements : (l r : List (Nested κ α)) → Decidable (l = r)
  | [], [] => isTrue rfl
  | [], _ :: _ | _ :: _, [] => isFalse (by simp)
  | c :: l, d :: r =>
      have := decEq c d
      have := decEqElements l r
      decidable_of_iff (c = d ∧ l = r) (by simp)

end

instance : DecidableEq (Nested κ α) := decEq

end Equality

/-- Write under a key: in place, or at the end. -/
def put (items : List (κ × Nested κ α)) (k : κ) (v : Nested κ α) : List (κ × Nested κ α) :=
  match items with
  | [] => [(k, v)]
  | (k', w) :: items => if k' = k then (k, v) :: items else (k', w) :: put items k v

mutual

/-- What a value of the patch makes of the old one. -/
def mergeValue (old : Option (Nested κ α)) : Nested κ α → Nested κ α
  | .dict patch =>
      match old with
      | some (.dict items) => .dict (merge items patch)
      | _ => .dict patch
  | .scalar v => .scalar v
  | .list elements => .list elements

def merge (items : List (κ × Nested κ α)) :
    List (κ × Nested κ α) → List (κ × Nested κ α)
  | [] => items
  | (k, v) :: patch => merge (put items k (mergeValue (items.lookup k) v)) patch

end

variable {patch : List (κ × Nested κ α)}

theorem lookup_item (k k' : κ) (v : Nested κ α) :
    ((k', v) :: items).lookup k = if k = k' then some v else items.lookup k := by
  rw [List.lookup_cons]
  by_cases hk : k = k'
  · simp [hk]
  · rw [if_neg hk, beq_false_of_ne hk]

theorem lookup_put (items : List (κ × Nested κ α)) (k k' : κ) (v : Nested κ α) :
    (put items k v).lookup k' = if k' = k then some v else items.lookup k' := by
  induction items with
  | nil => rw [put, lookup_item]
  | cons item items ih =>
      obtain ⟨head, w⟩ := item
      by_cases hhead : head = k
      · rw [put, if_pos hhead, lookup_item, lookup_item, hhead]
        split_ifs <;> rfl
      · rw [put, if_neg hhead, lookup_item, lookup_item, ih]
        by_cases hk : k' = head
        · rw [if_pos hk, if_pos hk, if_neg (hk ▸ hhead)]
        · rw [if_neg hk, if_neg hk]

/-- A merge takes no key away. -/
theorem isSome_lookup_merge {k : κ} (h : (items.lookup k).isSome) :
    ((merge items patch).lookup k).isSome := by
  induction patch generalizing items with
  | nil => rwa [merge]
  | cons entry patch ih =>
      rw [merge]
      apply ih
      rw [lookup_put]
      split_ifs
      · rfl
      · exact h

theorem lookup_merge (hpatch : (patch.map Prod.fst).Nodup) (k : κ) :
    (merge items patch).lookup k =
      match patch.lookup k with
      | none => items.lookup k
      | some v => some (mergeValue (items.lookup k) v) := by
  induction patch generalizing items with
  | nil => rfl
  | cons entry patch ih =>
      obtain ⟨k', v⟩ := entry
      rw [List.map_cons, List.nodup_cons] at hpatch
      rw [merge, ih hpatch.2, lookup_put, lookup_item]
      by_cases hk : k = k'
      · rw [hk, (Dict.lookup_eq_none_iff patch k').mpr hpatch.1, if_pos rfl, if_pos rfl]
      · rw [if_neg hk, if_neg hk]

end Nested

end Sentinel
