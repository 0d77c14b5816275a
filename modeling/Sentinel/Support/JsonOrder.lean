import Sentinel.Support.JsonScan

/-!
# The order of the members of an object

A value read back has no key twice, and sorting the members of every object
gives each such value one normal form.
-/

namespace Sentinel

namespace Point

theorem code_injective : Function.Injective code := by
  intro p q h
  cases p with
  | scalar c =>
      cases q with
      | scalar c' =>
          have hchar : c = c' := by
            rw [← Char.ofNat_toNat c, ← Char.ofNat_toNat c']
            exact congrArg Char.ofNat h
          rw [hchar]
      | surrogate n =>
          exfalso
          have hn := n.isLt
          have hcode : c.val.toNat = 0xd800 + n.val := h
          rcases c.valid with hsmall | ⟨hlarge, -⟩ <;> omega
  | surrogate n =>
      cases q with
      | scalar c =>
          exfalso
          have hn := n.isLt
          have hcode : 0xd800 + n.val = c.val.toNat := h
          rcases c.valid with hsmall | ⟨hlarge, -⟩ <;> omega
      | surrogate n' =>
          have hn : n.val = n'.val := Nat.add_left_cancel h
          rw [Fin.ext hn]

end Point

namespace Text

theorem codes_injective : Function.Injective codes :=
  List.map_injective_iff.2 Point.code_injective

theorem lt_irrefl (s : Text) : ¬ lt s s := List.lt_irrefl s.codes

theorem eq_of_not_lt {s t : Text} (h : ¬ lt s t) (h' : ¬ lt t s) : s = t :=
  codes_injective (List.le_antisymm h' h)

theorem not_lt_trans {s t u : Text} (h : ¬ lt t s) (h' : ¬ lt u t) : ¬ lt u s :=
  List.not_lt.2 (List.le_trans (List.not_lt.1 h) (List.not_lt.1 h'))

end Text

namespace Json

variable {F α : Type}

/-! ## Sorting members -/

variable (members : List (Text × α))

def Increasing : Prop :=
  (members.map Prod.fst).Pairwise Text.lt

def sortMembers : List (Text × α) :=
  members.insertionSort fun a b => ¬ Text.lt b.1 a.1

theorem sortMembers_perm : (sortMembers members).Perm members :=
  List.perm_insertionSort _ members

theorem Increasing.nodup {members : List (Text × α)} (h : Increasing members) :
    (members.map Prod.fst).Nodup := by
  apply List.Pairwise.imp _ h
  rintro s t hst rfl
  exact Text.lt_irrefl s hst

instance : Std.Total fun a b : Text × α => ¬ Text.lt b.1 a.1 where
  total a b := by
    by_cases h : Text.lt b.1 a.1
    · exact Or.inr (List.lt_asymm h)
    · exact Or.inl h

instance : IsTrans (Text × α) fun a b => ¬ Text.lt b.1 a.1 where
  trans _ _ _ h h' := Text.not_lt_trans h h'

theorem sortMembers_pairwise : (sortMembers members).Pairwise fun a b => ¬ Text.lt b.1 a.1 :=
  List.pairwise_insertionSort _ members

theorem Increasing.eq_sortMembers {members members' : List (Text × α)}
    (h : Increasing members) (hperm : members.Perm members') :
    sortMembers members' = members := by
  have hsame : (sortMembers members').Perm members := (sortMembers_perm members').trans hperm.symm
  have hordered : members.Pairwise fun a b => ¬ Text.lt b.1 a.1 := by
    have hpairwise := List.pairwise_map.1 h
    exact hpairwise.imp fun hab => List.lt_asymm hab
  apply List.Perm.eq_of_pairwise _ (sortMembers_pairwise members') hordered hsame
  intro a b ha hb hab hba
  have hkeys : a.1 = b.1 := (Text.eq_of_not_lt hab hba).symm
  exact List.inj_on_of_nodup_map h.nodup (hsame.mem_iff.1 ha) hb hkeys

theorem sortMembers_increasing {members : List (Text × α)}
    (h : (members.map Prod.fst).Nodup) : Increasing (sortMembers members) := by
  have hnodup : ((sortMembers members).map Prod.fst).Nodup :=
    ((sortMembers_perm members).map Prod.fst).nodup_iff.2 h
  have hordered : ((sortMembers members).map Prod.fst).Pairwise fun s t => ¬ Text.lt t s :=
    List.pairwise_map.2 (sortMembers_pairwise members)
  exact (hordered.and hnodup).imp fun ⟨hle, hne⟩ =>
    Classical.byContradiction fun hlt => hne (Text.eq_of_not_lt hlt hle)

mutual

/-- `json.dumps(json.loads(text), sort_keys=True)` orders every object. -/
def sortKeys : Json F → Json F
  | arr elements => arr (sortElements elements)
  | obj members => obj (sortMembers (sortValues members))
  | j => j

def sortElements : List (Json F) → List (Json F)
  | [] => []
  | e :: es => sortKeys e :: sortElements es

def sortValues : List (Text × Json F) → List (Text × Json F)
  | [] => []
  | (k, v) :: ms => (k, sortKeys v) :: sortValues ms

end

mutual

/-- No object has a key twice. -/
def WellFormed : Json F → Prop
  | arr elements => WellFormedElements elements
  | obj members => (members.map Prod.fst).Nodup ∧ WellFormedMembers members
  | _ => True

def WellFormedElements : List (Json F) → Prop
  | [] => True
  | e :: es => WellFormed e ∧ WellFormedElements es

def WellFormedMembers : List (Text × Json F) → Prop
  | [] => True
  | (_, v) :: ms => WellFormed v ∧ WellFormedMembers ms

end

mutual

def Sorted : Json F → Prop
  | arr elements => SortedElements elements
  | obj members => Increasing members ∧ SortedValues members
  | _ => True

def SortedElements : List (Json F) → Prop
  | [] => True
  | e :: es => Sorted e ∧ SortedElements es

def SortedValues : List (Text × Json F) → Prop
  | [] => True
  | (_, v) :: ms => Sorted v ∧ SortedValues ms

end

variable (members : List (Text × Json F))

theorem wellFormedMembers_iff : WellFormedMembers members ↔ ∀ m ∈ members, WellFormed m.2 := by
  induction members with
  | nil => simp [WellFormedMembers]
  | cons m ms ih =>
      obtain ⟨k, v⟩ := m
      simp [WellFormedMembers, ih]

theorem sortedValues_iff : SortedValues members ↔ ∀ m ∈ members, Sorted m.2 := by
  induction members with
  | nil => simp [SortedValues]
  | cons m ms ih =>
      obtain ⟨k, v⟩ := m
      simp [SortedValues, ih]

theorem sortValues_eq_map : sortValues members = members.map fun m => (m.1, sortKeys m.2) := by
  induction members with
  | nil => rfl
  | cons m ms ih =>
      obtain ⟨k, v⟩ := m
      simp [sortValues, ih]

@[simp] theorem keys_sortValues : (sortValues members).map Prod.fst = members.map Prod.fst := by
  rw [sortValues_eq_map, List.map_map]
  rfl

/-! ## Reading gives well-formed values -/

theorem collect_nodup : ((collect members).map Prod.fst).Nodup := by
  rw [collect]
  exact Dict.nodup _

variable {members : List (Text × Json F)}

theorem mem_of_mem_collect {m : Text × Json F} (h : m ∈ collect members) : m ∈ members := by
  have hfold : ∀ (ms : List (Text × Json F)) (d : Dict Text (Json F)),
      m ∈ (ms.foldl (fun d kv => d.set kv.1 kv.2) d).items → m ∈ d.items ∨ m ∈ ms := by
    intro ms
    induction ms with
    | nil =>
        intro d hm
        exact Or.inl hm
    | cons kv ms ih =>
        intro d hm
        rcases ih (d.set kv.1 kv.2) hm with hset | hms
        · rcases Dict.mem_items_set hset with rfl | hd
          · exact Or.inr List.mem_cons_self
          · exact Or.inl hd
        · exact Or.inr (List.mem_cons_of_mem _ hms)
  rcases hfold members Dict.empty h with hempty | hmem
  · cases hempty
  · exact hmem

theorem collect_of_nodup (h : (members.map Prod.fst).Nodup) : collect members = members := by
  have hfold : ∀ (ms : List (Text × Json F)) (d : Dict Text (Json F)),
      ((d.items ++ ms).map Prod.fst).Nodup →
        (ms.foldl (fun d kv => d.set kv.1 kv.2) d).items = d.items ++ ms := by
    intro ms
    induction ms with
    | nil =>
        intro d _
        simp
    | cons kv ms ih =>
        intro d hnodup
        have hnew : kv.1 ∉ d.keys := by
          intro hmem
          rw [List.map_append, List.nodup_append] at hnodup
          exact hnodup.2.2 kv.1 hmem kv.1 (by simp) rfl
        have hitems := Dict.items_set_of_notMem hnew kv.2
        rw [List.foldl_cons, ih (d.set kv.1 kv.2), hitems]
        · simp
        · rw [hitems]
          simpa using hnodup
  exact hfold members Dict.empty h

mutual

theorem reload_of_wellFormed : ∀ j : Json F, WellFormed j → reload j = j
  | null, _ => rfl
  | bool _, _ => rfl
  | int _, _ => rfl
  | float _, _ => rfl
  | str _, _ => rfl
  | arr es, h => by
      simp only [WellFormed] at h
      rw [reload, reloadElements_of_wellFormed es h]
  | obj ms, h => by
      simp only [WellFormed] at h
      rw [reload, reloadMembers_of_wellFormed ms h.2, collect_of_nodup h.1]

theorem reloadElements_of_wellFormed :
    ∀ es : List (Json F), WellFormedElements es → reloadElements es = es
  | [], _ => rfl
  | e :: es, h => by
      simp only [WellFormedElements] at h
      rw [reloadElements, reload_of_wellFormed e h.1, reloadElements_of_wellFormed es h.2]

theorem reloadMembers_of_wellFormed :
    ∀ ms : List (Text × Json F), WellFormedMembers ms → reloadMembers ms = ms
  | [], _ => rfl
  | (k, v) :: ms, h => by
      simp only [WellFormedMembers] at h
      rw [reloadMembers, reload_of_wellFormed v h.1, reloadMembers_of_wellFormed ms h.2]

end

theorem wellFormed_obj_collect (h : WellFormedMembers members) :
    WellFormed (obj (collect members)) := by
  refine ⟨collect_nodup members, ?_⟩
  rw [wellFormedMembers_iff] at h ⊢
  intro m hm
  exact h m (mem_of_mem_collect hm)

mutual

theorem reload_wellFormed : ∀ j : Json F, WellFormed (reload j)
  | null => trivial
  | bool _ => trivial
  | int _ => trivial
  | float _ => trivial
  | str _ => trivial
  | arr es => reloadElements_wellFormed es
  | obj ms => wellFormed_obj_collect (reloadMembers_wellFormed ms)

theorem reloadElements_wellFormed :
    ∀ es : List (Json F), WellFormedElements (reloadElements es)
  | [] => trivial
  | e :: es => ⟨reload_wellFormed e, reloadElements_wellFormed es⟩

theorem reloadMembers_wellFormed :
    ∀ ms : List (Text × Json F), WellFormedMembers (reloadMembers ms)
  | [] => trivial
  | (_, v) :: ms => ⟨reload_wellFormed v, reloadMembers_wellFormed ms⟩

end

/-! ## The normal form -/

mutual

theorem sortKeys_sorted : ∀ j : Json F, WellFormed j → Sorted (sortKeys j)
  | null, _ => trivial
  | bool _, _ => trivial
  | int _, _ => trivial
  | float _, _ => trivial
  | str _, _ => trivial
  | arr es, h => sortElements_sorted es h
  | obj ms, h => by
      refine ⟨sortMembers_increasing (by rw [keys_sortValues]; exact h.1), ?_⟩
      rw [sortedValues_iff]
      intro m hm
      exact (sortedValues_iff _).1 (sortValues_sorted ms h.2) m
        ((sortMembers_perm _).mem_iff.1 hm)

theorem sortElements_sorted :
    ∀ es : List (Json F), WellFormedElements es → SortedElements (sortElements es)
  | [], _ => trivial
  | e :: es, h => ⟨sortKeys_sorted e h.1, sortElements_sorted es h.2⟩

theorem sortValues_sorted :
    ∀ ms : List (Text × Json F), WellFormedMembers ms → SortedValues (sortValues ms)
  | [], _ => trivial
  | (_, v) :: ms, h => ⟨sortKeys_sorted v h.1, sortValues_sorted ms h.2⟩

end

end Json
end Sentinel
