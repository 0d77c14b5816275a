import Mathlib.Data.Char
import Mathlib.Data.List.Lex
import Sentinel.Support.Nested
import Mathlib.Data.List.Dedup
import Mathlib.Data.List.Sort

/-!
# The difference of two configurations

The audit trail of a change of configuration is the list of the scalars that differ,
each under the dotted name of its place.  A name may belong to two places, and a null
entry or an empty container has no scalar to show.
-/

namespace Sentinel

/-! ## Dotted names -/

/-- `f"{prefix}.{k}" if prefix else str(k)`, and `f"{prefix}[{i}]"`. -/
def extendName (base : List Char) : Step (List Char) → List Char
  | .key k => if base = [] then k else base ++ '.' :: k
  | .index i => base ++ '[' :: (Nat.toDigits 10 i ++ [']'])

def nameFrom (base : List Char) (place : List (Step (List Char))) : List Char :=
  place.foldl extendName base

def dottedName (place : List (Step (List Char))) : List Char := nameFrom [] place

section

variable {α : Type}

mutual

/-- `flatten`: the scalars under their dotted names. -/
def flatten (base : List Char) : Nested (List Char) α → Dict (List Char) (Option α)
  | .scalar v => Dict.empty.set base v
  | .dict items => flattenItems base Dict.empty items
  | .list elements => flattenElements base 0 Dict.empty elements

def flattenItems (base : List Char) (out : Dict (List Char) (Option α)) :
    List (List Char × Nested (List Char) α) → Dict (List Char) (Option α)
  | [] => out
  | (k, c) :: items =>
      flattenItems base (out.update (flatten (extendName base (.key k)) c)) items

def flattenElements (base : List Char) (i : ℕ) (out : Dict (List Char) (Option α)) :
    List (Nested (List Char) α) → Dict (List Char) (Option α)
  | [] => out
  | c :: elements =>
      flattenElements base (i + 1) (out.update (flatten (extendName base (.index i)) c)) elements

end

def named (base : List Char) (entries : List (List (Step (List Char)) × Option α)) :
    List (List Char × Option α) :=
  entries.map fun e => (nameFrom base e.1, e.2)

theorem named_append (base : List Char)
    (entries entries' : List (List (Step (List Char)) × Option α)) :
    named base (entries ++ entries') = named base entries ++ named base entries' :=
  List.map_append

theorem named_below (base : List Char) (step : Step (List Char))
    (entries : List (List (Step (List Char)) × Option α)) :
    named base (entries.map fun e => (step :: e.1, e.2)) =
      named (extendName base step) entries := by
  rw [named, List.map_map]
  rfl

mutual

theorem get?_flatten (base n : List Char) :
    ∀ c : Nested (List Char) α,
      (flatten base c).get? n = (Dict.ofEntries (named base c.scalars)).get? n
  | .scalar v => rfl
  | .dict items => by
      rw [flatten, get?_flattenItems base n items, Dict.get?_empty, Option.or_none,
        Nested.scalars]
  | .list elements => by
      rw [flatten, get?_flattenElements base n elements, Dict.get?_empty, Option.or_none,
        Nested.scalars]

theorem get?_flattenItems (base n : List Char) :
    ∀ (items : List (List Char × Nested (List Char) α)) {out : Dict (List Char) (Option α)},
      (flattenItems base out items).get? n =
        ((Dict.ofEntries (named base (Nested.scalarsOfItems items))).get? n).or (out.get? n)
  | [], out => by
      rw [flattenItems, Nested.scalarsOfItems, named, List.map_nil, Dict.ofEntries_nil,
        Dict.get?_empty, Option.none_or]
  | (k, c) :: items, out => by
      rw [flattenItems, get?_flattenItems base n items, Dict.get?_update,
        get?_flatten (extendName base (.key k)) n c, Nested.scalarsOfItems, named_append,
        named_below, Dict.get?_ofEntries_append, Option.or_assoc]

theorem get?_flattenElements (base n : List Char) :
    ∀ (elements : List (Nested (List Char) α)) {i : ℕ} {out : Dict (List Char) (Option α)},
      (flattenElements base i out elements).get? n =
        ((Dict.ofEntries (named base (Nested.scalarsOfElements i elements))).get? n).or
          (out.get? n)
  | [], i, out => by
      rw [flattenElements, Nested.scalarsOfElements, named, List.map_nil, Dict.ofEntries_nil,
        Dict.get?_empty, Option.none_or]
  | c :: elements, i, out => by
      rw [flattenElements, get?_flattenElements base n elements, Dict.get?_update,
        get?_flatten (extendName base (.index i)) n c, Nested.scalarsOfElements, named_append,
        named_below, Dict.get?_ofEntries_append, Option.or_assoc]

end

/-! ## Configurations and their difference -/

def ignoredNames : List (List Char) :=
  ["version".toList, "updated_at_ns".toList, "updated_by".toList]

variable (α)

structure ConfigTree where
  version : α
  updatedAtNs : α
  updatedBy : α
  sections : List (List Char × Nested (List Char) α)
  wellFormed : (Nested.dict sections).WellFormed
  notIgnored : ∀ item ∈ sections, item.1 ∉ ignoredNames

structure ConfigChange where
  path : List Char
  old : Option α
  new : Option α
  deriving DecidableEq

variable {α}

namespace ConfigTree

variable (c a b : ConfigTree α)

def body : Nested (List Char) α := .dict c.sections

/-- `model_dump(mode="json")`. -/
def dump : Nested (List Char) α :=
  .dict (("version".toList, .scalar (some c.version)) ::
    ("updated_at_ns".toList, .scalar (some c.updatedAtNs)) ::
    ("updated_by".toList, .scalar (some c.updatedBy)) :: c.sections)

def diffConfigs [DecidableEq α] : List (ConfigChange α) :=
  let fa := flatten [] a.dump
  let fb := flatten [] b.dump
  (((fa.keys ++ fb.keys).dedup.insertionSort fun k k' => k ≤ k').filter
    fun key => key ∉ ignoredNames).filterMap fun key =>
      if (fa.get? key).join = (fb.get? key).join then none
      else some ⟨key, (fa.get? key).join, (fb.get? key).join⟩

/-- Equal apart from the metadata. -/
def Same : Prop := a.body.Agrees b.body

/-! ## What a configuration shows under a name -/

def LastAt (place : List (Step (List Char))) (v : Option α) : Prop :=
  ∃ before after, c.dump.scalars = before ++ (place, v) :: after ∧
    ∀ e ∈ after, dottedName e.1 ≠ dottedName place

def Shows (name : List Char) (v : α) : Prop :=
  ∃ place, dottedName place = name ∧ c.LastAt place (some v)

/-- Two places share a name, and each is the last of it in one of the two, with a value
of its own. -/
def Reordered : Prop :=
  ∃ p q v w, p ≠ q ∧ dottedName p = dottedName q ∧ dottedName p ∉ ignoredNames ∧
    a.LastAt p v ∧ b.LastAt q w ∧ v ≠ w

def Unseen : Prop := ∀ name, name ∉ ignoredNames → ∀ v, a.Shows name v ↔ b.Shows name v

def HasScalar (place : List (Step (List Char))) : Prop :=
  ∃ v, c.dump.at? place = some (.scalar v)

def NamesApart : Prop :=
  ∀ p q, a.HasScalar p ∨ b.HasScalar p → a.HasScalar q ∨ b.HasScalar q →
    dottedName p = dottedName q → p = q

def SameValues : Prop :=
  ∀ place v, a.body.at? place = some (.scalar (some v)) ↔
    b.body.at? place = some (.scalar (some v))

/-! ## What the difference leaves out -/

variable {c a b}

theorem get?_flatten_dump {name : List Char} {v : Option α} :
    (flatten [] c.dump).get? name = some v ↔
      ∃ place, dottedName place = name ∧ c.LastAt place v := by
  rw [get?_flatten, Dict.get?_ofEntries_eq_some_last]
  constructor
  · rintro ⟨before, after, hentries, hafter⟩
    obtain ⟨first, rest, hscalars, -, hrest⟩ := List.map_eq_append_iff.mp hentries
    obtain ⟨⟨place, w⟩, later, rfl, hplace, hlater⟩ := List.map_eq_cons_iff.mp hrest
    obtain ⟨hname, rfl⟩ := Prod.mk.inj hplace
    refine ⟨place, hname, first, later, hscalars, ?_⟩
    intro e he hsame
    refine hafter (List.mem_map.mpr ⟨(nameFrom [] e.1, e.2), ?_, hsame.trans hname⟩)
    rw [← hlater]
    exact List.mem_map.mpr ⟨e, he, rfl⟩
  · rintro ⟨place, rfl, before, after, hscalars, hafter⟩
    refine ⟨named [] before, named [] after, ?_, ?_⟩
    · rw [hscalars, named_append]
      rfl
    · intro hmem
      obtain ⟨⟨name, w⟩, he, hname⟩ := List.mem_map.mp hmem
      obtain ⟨e, he, heq⟩ := List.mem_map.mp he
      refine hafter e he ?_
      rw [← hname, ← heq]
      rfl

theorem shows_iff {name : List Char} {v : α} :
    c.Shows name v ↔ ((flatten [] c.dump).get? name).join = some v := by
  rw [Option.join_eq_some_iff, get?_flatten_dump, Shows]

theorem diffConfigs_eq_nil_iff [DecidableEq α] : a.diffConfigs b = [] ↔ a.Unseen b := by
  have hvalues : ∀ x y : Option (Option α), x.join = y.join ↔
      ∀ v, x.join = some v ↔ y.join = some v := by
    intro x y
    exact ⟨fun h v => by rw [h], fun h => Option.ext h⟩
  rw [diffConfigs, List.filterMap_eq_nil_iff]
  constructor
  · intro h name hname v
    rw [shows_iff, shows_iff]
    by_cases hkey : name ∈ (flatten [] a.dump).keys ++ (flatten [] b.dump).keys
    · have hsorted : name ∈
          ((flatten [] a.dump).keys ++ (flatten [] b.dump).keys).dedup.insertionSort
            fun k k' => k ≤ k' := by
        rw [List.mem_insertionSort, List.mem_dedup]
        exact hkey
      have hsame := h name (List.mem_filter.mpr ⟨hsorted, by simpa using hname⟩)
      split_ifs at hsame with heq
      rw [heq]
    · rw [List.mem_append, not_or] at hkey
      rw [((flatten [] a.dump).get?_eq_none_iff name).mpr hkey.1,
        ((flatten [] b.dump).get?_eq_none_iff name).mpr hkey.2]
  · intro h name hmem
    have hname : name ∉ ignoredNames := by
      simpa using (List.mem_filter.mp hmem).2
    rw [if_pos]
    rw [hvalues]
    intro v
    rw [← shows_iff, ← shows_iff]
    exact h name hname v

/-! ## Places of a configuration -/

theorem at?_dump {k : List Char} (place : List (Step (List Char))) :
    (k ∈ ignoredNames ∧ ∃ v, c.dump.at? (.key k :: place) =
      (Nested.scalar (some v)).at? place) ∨
    (k ∉ ignoredNames ∧ c.dump.at? (.key k :: place) = c.body.at? (.key k :: place)) := by
  by_cases hk : k ∈ ignoredNames
  · refine Or.inl ⟨hk, ?_⟩
    simp only [ignoredNames, List.mem_cons, List.not_mem_nil, or_false] at hk
    rcases hk with rfl | rfl | rfl
    · exact ⟨c.version, rfl⟩
    · exact ⟨c.updatedAtNs, rfl⟩
    · exact ⟨c.updatedBy, rfl⟩
  · refine Or.inr ⟨hk, ?_⟩
    simp only [ignoredNames, List.mem_cons, List.not_mem_nil, or_false, not_or] at hk
    rw [dump, body, Nested.at?_dict_cons_of_ne hk.1, Nested.at?_dict_cons_of_ne hk.2.1,
      Nested.at?_dict_cons_of_ne hk.2.2]

theorem notMem_ignoredNames_of_at? {k : List Char} {place : List (Step (List Char))}
    {node : Nested (List Char) α} (h : c.body.at? (.key k :: place) = some node) :
    k ∉ ignoredNames := by
  rw [body, Nested.at?, Option.bind_eq_some_iff] at h
  obtain ⟨below, hlookup, -⟩ := h
  exact c.notIgnored (k, below)
    ((Dict.mem_items_iff ⟨c.sections, c.wellFormed.nodup⟩ k below).mpr hlookup)

theorem wellFormed_dump : c.dump.WellFormed := by
  intro place items h
  rcases place with _ | ⟨step, place⟩
  · obtain rfl := Nested.dict.inj (Option.some.inj h)
    have hnew : ∀ name ∈ ignoredNames, name ∉ c.sections.map Prod.fst := by
      intro name hname hmem
      obtain ⟨item, hitem, rfl⟩ := List.mem_map.mp hmem
      exact c.notIgnored item hitem hname
    have hsections := c.wellFormed.nodup
    have hdistinct : ignoredNames.Nodup := by
      decide
    have happend : (ignoredNames ++ c.sections.map Prod.fst).Nodup :=
      List.nodup_append'.mpr ⟨hdistinct, hsections, hnew⟩
    exact happend
  · cases step with
    | index i => cases h
    | key k =>
      rcases c.at?_dump place with ⟨-, v, hscalar⟩ | ⟨-, hsection⟩
      · rw [hscalar] at h
        cases place with
        | nil => cases h
        | cons step place =>
          rw [Nested.at?_scalar_cons] at h
          cases h
      · rw [hsection] at h
        exact c.wellFormed _ items h

variable {place : List (Step (List Char))} {v : Option α}

theorem at?_body_eq_scalar_iff :
    c.body.at? place = some (.scalar v) ↔
      c.dump.at? place = some (.scalar v) ∧ ∀ k ∈ ignoredNames, place ≠ [.key k] := by
  rcases place with _ | ⟨step, place⟩
  · constructor
    · intro h
      cases h
    · rintro ⟨h, -⟩
      cases h
  · cases step with
    | index i =>
      constructor
      · intro h
        cases h
      · rintro ⟨h, -⟩
        cases h
    | key k =>
      rcases c.at?_dump place with ⟨hk, w, hscalar⟩ | ⟨hk, hsection⟩
      · constructor
        · intro h
          exact absurd hk (notMem_ignoredNames_of_at? h)
        · rintro ⟨h, hplace⟩
          rw [hscalar] at h
          cases place with
          | nil => exact absurd rfl (hplace k hk)
          | cons step place =>
            rw [Nested.at?_scalar_cons] at h
            cases h
      · rw [hsection]
        refine ⟨fun h => ⟨h, ?_⟩, And.left⟩
        intro k' hk' heq
        rw [List.cons.injEq, Step.key.injEq] at heq
        rw [heq.1] at hk
        exact hk hk'

theorem LastAt.at? (h : c.LastAt place v) : c.dump.at? place = some (.scalar v) := by
  obtain ⟨before, after, hscalars, -⟩ := h
  rw [← Nested.mem_scalars_iff c.wellFormed_dump, hscalars]
  simp

theorem exists_lastAt (h : c.dump.at? place = some (.scalar v)) :
    ∃ q w, dottedName q = dottedName place ∧ c.LastAt q w := by
  rw [← Nested.mem_scalars_iff c.wellFormed_dump] at h
  rcases hget : (flatten [] c.dump).get? (dottedName place) with _ | w
  · rw [get?_flatten, Dict.get?_ofEntries_eq_none_iff] at hget
    refine absurd ?_ hget
    exact List.mem_map.mpr ⟨(dottedName place, v), List.mem_map.mpr ⟨(place, v), h, rfl⟩, rfl⟩
  · obtain ⟨q, hname, hlast⟩ := get?_flatten_dump.mp hget
    exact ⟨q, w, hname, hlast⟩

/-! ## When the difference is complete -/

theorem at?_body_of_at?_dump
    (h : c.dump.at? place = some (.scalar v)) (hname : dottedName place ∉ ignoredNames) :
    c.body.at? place = some (.scalar v) := by
  refine at?_body_eq_scalar_iff.mpr ⟨h, ?_⟩
  rintro k hk rfl
  exact hname hk

theorem at?_dump_of_at?_body
    (h : c.body.at? place = some (.scalar v)) : c.dump.at? place = some (.scalar v) :=
  (at?_body_eq_scalar_iff.mp h).1

theorem Reordered.symm (h : a.Reordered b) : b.Reordered a := by
  obtain ⟨p, q, v, w, hne, hname, hkept, hp, hq, hvw⟩ := h
  exact ⟨q, p, w, v, hne.symm, hname.symm, hname ▸ hkept, hq, hp, hvw.symm⟩

theorem Same.shows (h : a.Same b) (hreordered : ¬a.Reordered b) {name : List Char}
    (hname : name ∉ ignoredNames) {v : α} (hshows : a.Shows name v) : b.Shows name v := by
  obtain ⟨p, rfl, hp⟩ := hshows
  have hbody := h.at?_eq_scalar_iff.mp (at?_body_of_at?_dump hp.at? hname)
  obtain ⟨q, w, hq, hlast⟩ := exists_lastAt (at?_dump_of_at?_body hbody)
  by_cases hw : w = some v
  · exact ⟨q, hq, hw ▸ hlast⟩
  · refine absurd ⟨p, q, some v, w, ?_, hq.symm, hname, hp, hlast, Ne.symm hw⟩ hreordered
    rintro rfl
    have hsame := (at?_dump_of_at?_body hbody).symm.trans hlast.at?
    exact hw (Nested.scalar.inj (Option.some.inj hsame)).symm

theorem Same.unseen_iff (h : a.Same b) : a.Unseen b ↔ ¬a.Reordered b := by
  constructor
  · rintro hunseen ⟨p, q, v, w, -, hname, hkept, hp, hq, hvw⟩
    have hget := get?_flatten_dump.mpr ⟨p, rfl, hp⟩
    have hget' := get?_flatten_dump.mpr ⟨q, hname.symm, hq⟩
    apply hvw
    apply Option.ext
    intro x
    have hshows := hunseen _ hkept x
    rw [shows_iff, shows_iff, hget, hget'] at hshows
    exact hshows
  · intro hreordered name hname v
    have hsym : b.Same a := fun place => (h place).symm
    exact ⟨h.shows hreordered hname,
      hsym.shows (fun hre => hreordered hre.symm) hname⟩

theorem NamesApart.not_reordered (h : a.NamesApart b) : ¬a.Reordered b := by
  rintro ⟨p, q, v, w, hne, hname, -, hp, hq, -⟩
  exact hne (h p q (Or.inl ⟨v, hp.at?⟩) (Or.inr ⟨w, hq.at?⟩) hname)

theorem NamesApart.symm (h : a.NamesApart b) : b.NamesApart a :=
  fun p q hp hq => h p q hp.symm hq.symm

theorem NamesApart.lastAt (h : a.NamesApart b) {place : List (Step (List Char))} {v : Option α}
    (hat : a.dump.at? place = some (.scalar v)) : a.LastAt place v := by
  obtain ⟨q, w, hname, hlast⟩ := exists_lastAt hat
  obtain rfl := h q place (Or.inl ⟨w, hlast.at?⟩) (Or.inl ⟨v, hat⟩) hname
  have hsame := hlast.at?.symm.trans hat
  rwa [← Nested.scalar.inj (Option.some.inj hsame)]

theorem NamesApart.notMem_ignoredNames (h : a.NamesApart b) {place : List (Step (List Char))}
    {v : Option α} (hat : a.body.at? place = some (.scalar v)) :
    dottedName place ∉ ignoredNames := by
  intro hmem
  have hmeta : a.HasScalar [.key (dottedName place)] := by
    rcases a.at?_dump (k := dottedName place) [] with ⟨-, w, hw⟩ | ⟨hk, -⟩
    · exact ⟨some w, hw⟩
    · exact absurd hmem hk
  have hplace := h place [.key (dottedName place)] (Or.inl ⟨v, at?_dump_of_at?_body hat⟩)
    (Or.inl hmeta) rfl
  exact (at?_body_eq_scalar_iff.mp hat).2 _ hmem hplace

theorem NamesApart.unseen_iff (h : a.NamesApart b) : a.Unseen b ↔ a.SameValues b := by
  have hseen : ∀ {c d : ConfigTree α}, c.NamesApart d → c.Unseen d →
      ∀ place v, c.body.at? place = some (.scalar (some v)) →
        d.body.at? place = some (.scalar (some v)) := by
    intro c d h hunseen place v hat
    have hname := h.notMem_ignoredNames hat
    have hdump := at?_dump_of_at?_body hat
    obtain ⟨q, hq, hlast⟩ := (hunseen _ hname v).mp ⟨place, rfl, h.lastAt hdump⟩
    obtain rfl := h q place (Or.inr ⟨_, hlast.at?⟩) (Or.inl ⟨_, hdump⟩) hq
    exact at?_body_of_at?_dump hlast.at? hname
  have hshown : ∀ {c d : ConfigTree α}, d.NamesApart c → c.SameValues d →
      ∀ name, name ∉ ignoredNames → ∀ v, c.Shows name v → d.Shows name v := by
    rintro c d h hsame name hname v ⟨place, rfl, hlast⟩
    have hbody := at?_body_of_at?_dump hlast.at? hname
    exact ⟨place, rfl, h.lastAt (at?_dump_of_at?_body ((hsame place v).mp hbody))⟩
  constructor
  · intro hunseen place v
    exact ⟨hseen h hunseen place v,
      hseen h.symm (fun name hname v => (hunseen name hname v).symm) place v⟩
  · intro hsame name hname v
    exact ⟨hshown h.symm hsame name hname v,
      hshown h (fun place v => (hsame place v).symm) name hname v⟩

/-- The difference is empty for equal configurations alone, unless these hold places of
one name in another order, or others differ in nothing that shows; and where no two
places share a name, what does not show is null or empty. -/
theorem diffConfigs_exact [DecidableEq α] (a b : ConfigTree α) :
    ((a.diffConfigs b = [] ↔ a.Same b) ↔
      ¬(a.Same b ∧ a.Reordered b) ∧ ¬(¬a.Same b ∧ a.Unseen b)) ∧
    (a.NamesApart b → ¬a.Reordered b ∧ (a.Unseen b ↔ a.SameValues b)) := by
  refine ⟨?_, fun h => ⟨h.not_reordered, h.unseen_iff⟩⟩
  rw [diffConfigs_eq_nil_iff]
  by_cases hsame : a.Same b
  · simpa only [hsame, iff_true, true_and, not_true_eq_false, false_and, not_false_eq_true,
      and_true] using hsame.unseen_iff
  · simp only [hsame, iff_false, false_and, not_false_eq_true, true_and]

def ofParams (params : List (List Char × Nested (List Char) String))
    (h : (Nested.dict params).WellFormed) : ConfigTree String where
  version := "1"
  updatedAtNs := "0"
  updatedBy := "system"
  sections := [("strategies".toList, .list [.dict [("params".toList, .dict params)]])]
  wellFormed := by
    refine Nested.wellFormed_dict (by simp) ?_
    simp only [List.mem_singleton, forall_eq]
    refine Nested.wellFormed_list ?_
    simp only [List.mem_singleton, forall_eq]
    refine Nested.wellFormed_dict (by simp) ?_
    simpa only [List.mem_singleton, forall_eq] using h
  notIgnored := by
    simp only [List.mem_singleton, forall_eq]
    decide

def noParams : ConfigTree String :=
  ofParams [] Nested.wellFormed_empty

def emptyFilters : ConfigTree String :=
  ofParams [("filters".toList, .dict [])]
    (Nested.wellFormed_dict (by simp) (by simpa using Nested.wellFormed_empty))

/-- An empty mapping among the parameters of a strategy is not reported. -/
theorem emptyFilters_unreported :
    noParams.diffConfigs emptyFilters = [] ∧ ¬noParams.Same emptyFilters := by
  refine ⟨by decide +kernel, ?_⟩
  intro h
  have hplace := h [.key "strategies".toList, .index 0, .key "params".toList,
    .key "filters".toList]
  revert hplace
  decide

end ConfigTree

end

end Sentinel
