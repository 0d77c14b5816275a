import Sentinel.Support.JsonOrder

/-!
# Python values as JSON

What `json.dumps(value, default=str)` makes of a Python value, with and without
`sort_keys`.  Keys of mappings are sorted as the Python objects they are, and
only then turned into text, so a mapping read back may sort another way:
`sortKeys_reload_image_iff` says exactly when it does not.
-/

namespace Sentinel

inductive PyKey (F : Type) where
  | null
  | bool (b : Bool)
  | int (n : ℤ)
  | float (x : F)
  | str (s : Text)
  | other

/-- A Python value, by what the encoder makes of it: members of string and
integer enumerations are strings and integers, and what the encoder does not
know is `other` with its `str`. -/
inductive PyVal (F : Type) where
  | null
  | bool (b : Bool)
  | int (n : ℤ)
  | float (x : F)
  | str (s : Text)
  | list (elements : List (PyVal F))
  | dict (items : List (PyKey F × PyVal F))
  | other (text : Text)
  deriving Inhabited

/-- `<` on numbers: nothing is below or above a NaN. -/
def FloatValue.lt : FloatValue → FloatValue → Bool
  | nan, _ => false
  | _, nan => false
  | negInfinity, negInfinity => false
  | negInfinity, _ => true
  | _, negInfinity => false
  | finite p, finite q => p < q
  | finite _, infinity => true
  | infinity, _ => false

namespace PyKey

variable {F : Type} (ops : FloatOps F)

def text : PyKey F → Option Text
  | null => some (Text.ofChars ['n', 'u', 'l', 'l'])
  | bool true => some (Text.ofChars ['t', 'r', 'u', 'e'])
  | bool false => some (Text.ofChars ['f', 'a', 'l', 's', 'e'])
  | int n => some (Json.renderInt n)
  | float x => some (Json.renderFloat (ops.text x))
  | str s => some s
  | other => none

def value? : PyKey F → Option FloatValue
  | bool b => some (.finite (if b then 1 else 0))
  | int n => some (.finite n)
  | float x => some (ops.value x)
  | _ => none

/-- `a < b`, which raises unless both are strings or both are numbers. -/
def less? (a b : PyKey F) : Option Bool :=
  match a, b with
  | str s, str t => some (Text.lt s t)
  | a, b => do
      let x ← value? ops a
      let y ← value? ops b
      pure (x.lt y)

/-- `sorted` on what has a key: stable, and raising when two keys do not
compare. -/
def sort? {β : Type} (key : β → PyKey F) (l : List β) : Option (List β) :=
  if l.Pairwise fun a b => (less? ops (key a) (key b)).isSome then
    some (l.insertionSort fun a b => less? ops (key b) (key a) ≠ some true)
  else none

def texts? : List (PyKey F) → Option (List Text)
  | [] => some []
  | k :: ks => do
      let name ← text ops k
      let names ← texts? ks
      pure (name :: names)

end PyKey

namespace PyVal

variable {F : Type} (ops : FloatOps F)

def nameItems : List (PyKey F × Json F) → Option (List (Text × Json F))
  | [] => some []
  | (k, v) :: ms => do
      let name ← k.text ops
      let ms ← nameItems ms
      pure ((name, v) :: ms)

mutual

/-- The JSON value a Python value is encoded as, or nothing where the encoder
raises `TypeError`. -/
def image (sortKeys : Bool) : PyVal F → Option (Json F)
  | null => some .null
  | bool b => some (.bool b)
  | int n => some (.int n)
  | float x => some (.float x)
  | str s => some (.str s)
  | list elements => (imageElements sortKeys elements).map .arr
  | dict items => do
      let encoded ← imageItems sortKeys items
      let ordered ← if sortKeys then PyKey.sort? ops Prod.fst encoded else some encoded
      let named ← nameItems ops ordered
      pure (.obj named)
  | other text => some (.str text)

def imageElements (sortKeys : Bool) : List (PyVal F) → Option (List (Json F))
  | [] => some []
  | e :: es => do
      let e ← image sortKeys e
      let es ← imageElements sortKeys es
      pure (e :: es)

def imageItems (sortKeys : Bool) :
    List (PyKey F × PyVal F) → Option (List (PyKey F × Json F))
  | [] => some []
  | (k, v) :: items => do
      let v ← image sortKeys v
      let items ← imageItems sortKeys items
      pure ((k, v) :: items)

end

def NamesIncrease (keys : List (PyKey F)) : Prop :=
  ∃ sorted names, PyKey.sort? ops id keys = some sorted ∧
    PyKey.texts? ops sorted = some names ∧ names.Pairwise Text.lt

mutual

def KeysInOrder : PyVal F → Prop
  | list elements => KeysInOrderElements elements
  | dict items => NamesIncrease ops (items.map Prod.fst) ∧ KeysInOrderItems items
  | _ => True

def KeysInOrderElements : List (PyVal F) → Prop
  | [] => True
  | e :: es => KeysInOrder e ∧ KeysInOrderElements es

def KeysInOrderItems : List (PyKey F × PyVal F) → Prop
  | [] => True
  | (_, v) :: items => KeysInOrder v ∧ KeysInOrderItems items

end

mutual

def ofJson : Json F → PyVal F
  | .null => null
  | .bool b => bool b
  | .int n => int n
  | .float x => float x
  | .str s => str s
  | .arr elements => list (ofElements elements)
  | .obj members => dict (ofMembers members)

def ofElements : List (Json F) → List (PyVal F)
  | [] => []
  | e :: es => ofJson e :: ofElements es

def ofMembers : List (Text × Json F) → List (PyKey F × PyVal F)
  | [] => []
  | (k, v) :: ms => (.str k, ofJson v) :: ofMembers ms

end

end PyVal

/-! ## Sorting -/

namespace PyKey

variable {F β : Type} (ops : FloatOps F)

theorem sort?_perm {key : β → PyKey F} {l sorted : List β} (h : sort? ops key l = some sorted) :
    sorted.Perm l := by
  rw [sort?] at h
  split_ifs at h
  cases h
  exact List.perm_insertionSort _ l

theorem sort?_map {γ : Type} (key : γ → PyKey F) (f : β → γ) (l : List β) :
    sort? ops key (l.map f) = (sort? ops (fun b => key (f b)) l).map (List.map f) := by
  unfold sort?
  by_cases h : l.Pairwise fun a b => (less? ops (key (f a)) (key (f b))).isSome
  · rw [if_pos (List.pairwise_map.2 h), if_pos h, Option.map_some, List.map_insertionSort
      (fun a b => less? ops (key (f b)) (key (f a)) ≠ some true)
      (fun a b => less? ops (key b) (key a) ≠ some true)]
    intro a _ b _
    exact Iff.rfl
  · rw [if_neg (fun hmap => h (List.pairwise_map.1 hmap)), if_neg h]
    rfl

theorem texts?_eq_some_iff {keys : List (PyKey F)} {names : List Text} :
    texts? ops keys = some names ↔ keys.map (text ops) = names.map some := by
  induction keys generalizing names with
  | nil => cases names <;> simp [texts?]
  | cons k ks ih =>
      cases hk : text ops k with
      | none =>
          simp only [texts?, hk, Option.bind_eq_bind, Option.bind_none, List.map_cons]
          cases names <;> simp
      | some name =>
          cases names with
          | nil => simp [texts?, hk, Option.bind_eq_some_iff]
          | cons n ns => simp [texts?, hk, Option.bind_eq_some_iff, ih, and_comm]

end PyKey

namespace PyVal

variable {F : Type} (ops : FloatOps F)

/-! ## Naming -/

theorem nameItems_eq_some_iff {items : List (PyKey F × Json F)}
    {members : List (Text × Json F)} :
    nameItems ops items = some members ↔
      items.map (fun m => (m.1.text ops, m.2)) = members.map fun m => (some m.1, m.2) := by
  induction items generalizing members with
  | nil => cases members <;> simp [nameItems]
  | cons m ms ih =>
      obtain ⟨k, v⟩ := m
      cases hk : k.text ops with
      | none =>
          simp only [nameItems, hk, Option.bind_eq_bind, Option.bind_none, List.map_cons]
          cases members <;> simp
      | some name =>
          cases members with
          | nil => simp [nameItems, hk, Option.bind_eq_some_iff]
          | cons n ns =>
              obtain ⟨n, w⟩ := n
              simp [nameItems, hk, Option.bind_eq_some_iff, ih, and_comm]

theorem values_nameItems {items : List (PyKey F × Json F)} {members : List (Text × Json F)}
    (h : nameItems ops items = some members) :
    members.map Prod.snd = items.map Prod.snd := by
  have hvalues := congrArg (List.map Prod.snd) ((nameItems_eq_some_iff ops).1 h)
  simpa [Function.comp_def] using hvalues.symm

theorem isSome_nameItems_iff (items : List (PyKey F × Json F)) :
    (nameItems ops items).isSome ↔ ∀ k ∈ items.map Prod.fst, (k.text ops).isSome := by
  induction items with
  | nil => simp [nameItems]
  | cons m ms ih =>
      obtain ⟨k, v⟩ := m
      rw [List.map_cons, List.forall_mem_cons, ← ih]
      cases hk : k.text ops with
      | none => simp [nameItems, hk]
      | some name => cases hms : nameItems ops ms <;> simp [nameItems, hk, hms]

theorem nameItems_map (f : Json F → Json F) {items : List (PyKey F × Json F)}
    {members : List (Text × Json F)} (h : nameItems ops items = some members) :
    nameItems ops (items.map fun m => (m.1, f m.2)) =
      some (members.map fun m => (m.1, f m.2)) := by
  have hmap := (nameItems_eq_some_iff ops).1 h
  rw [nameItems_eq_some_iff]
  simpa [Function.comp_def] using congrArg (List.map fun m => (m.1, f m.2)) hmap

theorem nameItems_perm {items items' : List (PyKey F × Json F)}
    {members : List (Text × Json F)} (hperm : items.Perm items')
    (h : nameItems ops items = some members) :
    ∃ members', nameItems ops items' = some members' ∧ members.Perm members' := by
  have hmap := (nameItems_eq_some_iff ops).1 h
  have hnamed : ∀ m ∈ items', m.1.text ops = some ((m.1.text ops).getD []) := by
    intro m hm
    have hmem : (m.1.text ops, m.2) ∈ members.map fun m => (some m.1, m.2) := by
      rw [← hmap]
      exact List.mem_map_of_mem (f := fun m => (m.1.text ops, m.2)) (hperm.mem_iff.2 hm)
    obtain ⟨n, -, hn⟩ := List.mem_map.1 hmem
    have hname : some n.1 = m.1.text ops := congrArg Prod.fst hn
    rw [← hname]
    rfl
  have hmembers : members = items.map fun m => ((m.1.text ops).getD [], m.2) := by
    have hback := congrArg (List.map fun m => (m.1.getD [], m.2)) hmap
    simpa [Function.comp_def] using hback.symm
  refine ⟨items'.map fun m => ((m.1.text ops).getD [], m.2), ?_, ?_⟩
  · rw [nameItems_eq_some_iff, List.map_map]
    apply List.map_congr_left
    intro m hm
    exact Prod.ext (hnamed m hm) rfl
  · rw [hmembers]
    exact hperm.map _

theorem keys_imageItems {sortKeys : Bool} {items : List (PyKey F × PyVal F)}
    {encoded : List (PyKey F × Json F)} (h : imageItems ops sortKeys items = some encoded) :
    encoded.map Prod.fst = items.map Prod.fst := by
  induction items generalizing encoded with
  | nil =>
      cases h
      rfl
  | cons item items ih =>
      obtain ⟨k, v⟩ := item
      simp only [imageItems, Option.bind_eq_bind, Option.pure_def,
        Option.bind_eq_some_iff] at h
      obtain ⟨j, -, encoded', hitems, heq⟩ := h
      cases heq
      simp [ih hitems]

theorem names_eq {encoded ordered : List (PyKey F × Json F)} {members : List (Text × Json F)}
    (hsort : PyKey.sort? ops Prod.fst encoded = some ordered)
    (hname : nameItems ops ordered = some members) :
    NamesIncrease ops (encoded.map Prod.fst) ↔ Json.Increasing members := by
  have hkeys : PyKey.sort? ops id (encoded.map Prod.fst) = some (ordered.map Prod.fst) := by
    rw [PyKey.sort?_map]
    exact congrArg (Option.map (List.map Prod.fst)) hsort
  have hmap := (nameItems_eq_some_iff ops).1 hname
  have htexts : PyKey.texts? ops (ordered.map Prod.fst) = some (members.map Prod.fst) := by
    rw [PyKey.texts?_eq_some_iff, List.map_map, List.map_map]
    simpa [Function.comp_def] using congrArg (List.map Prod.fst) hmap
  rw [NamesIncrease, Json.Increasing]
  constructor
  · rintro ⟨sorted, names, hsorted, hnames, hincrease⟩
    rw [hkeys] at hsorted
    cases hsorted
    rw [htexts] at hnames
    cases hnames
    exact hincrease
  · intro hincrease
    exact ⟨_, _, hkeys, htexts, hincrease⟩

/-! ## Sorting before writing and after reading -/

theorem forall_sorted_iff {κ : Type} (items : List (κ × Json F)) :
    (∀ j ∈ items.map Prod.snd, j.Sorted) ↔ ∀ m ∈ items, m.2.Sorted := by
  simp only [List.forall_mem_map]

mutual

theorem sorted_image_iff : ∀ (v : PyVal F) (j : Json F), image ops true v = some j →
    (j.Sorted ↔ KeysInOrder ops v)
  | null, j, h => by cases h; exact Iff.rfl
  | bool _, j, h => by cases h; exact Iff.rfl
  | int _, j, h => by cases h; exact Iff.rfl
  | float _, j, h => by cases h; exact Iff.rfl
  | str _, j, h => by cases h; exact Iff.rfl
  | other _, j, h => by cases h; exact Iff.rfl
  | list es, j, h => by
      obtain ⟨js, helements, rfl⟩ := Option.map_eq_some_iff.1 h
      exact sorted_imageElements_iff es js helements
  | dict items, j, h => by
      simp only [image, Option.bind_eq_bind, Option.pure_def, Option.bind_eq_some_iff,
        if_true] at h
      obtain ⟨encoded, hitems, ordered, hsort, members, hname, heq⟩ := h
      cases heq
      have hvalues := sorted_imageItems_iff items encoded hitems
      have hnames := names_eq ops hsort hname
      rw [keys_imageItems ops hitems] at hnames
      refine and_congr hnames.symm (Iff.trans ?_ hvalues)
      rw [Json.sortedValues_iff, ← forall_sorted_iff, ← forall_sorted_iff,
        values_nameItems ops hname]
      exact forall_congr' fun j => imp_congr_left
        (((PyKey.sort?_perm ops hsort).map Prod.snd).mem_iff)

theorem sorted_imageElements_iff : ∀ (es : List (PyVal F)) (js : List (Json F)),
    imageElements ops true es = some js →
      (Json.SortedElements js ↔ KeysInOrderElements ops es)
  | [], js, h => by cases h; exact Iff.rfl
  | e :: es, js, h => by
      simp only [imageElements, Option.bind_eq_bind, Option.pure_def,
        Option.bind_eq_some_iff] at h
      obtain ⟨j, helement, js', helements, heq⟩ := h
      cases heq
      exact and_congr (sorted_image_iff e j helement) (sorted_imageElements_iff es js' helements)

theorem sorted_imageItems_iff : ∀ (items : List (PyKey F × PyVal F))
    (encoded : List (PyKey F × Json F)), imageItems ops true items = some encoded →
      ((∀ m ∈ encoded, m.2.Sorted) ↔ KeysInOrderItems ops items)
  | [], encoded, h => by
      cases h
      simp [KeysInOrderItems]
  | (k, v) :: items, encoded, h => by
      simp only [imageItems, Option.bind_eq_bind, Option.pure_def,
        Option.bind_eq_some_iff] at h
      obtain ⟨j, hvalue, encoded', hitems, heq⟩ := h
      cases heq
      rw [List.forall_mem_cons, KeysInOrderItems]
      exact and_congr (sorted_image_iff v j hvalue) (sorted_imageItems_iff items encoded' hitems)

end

mutual

theorem image_false_of_true : ∀ (v : PyVal F) (j : Json F), image ops true v = some j →
    ∃ u, image ops false v = some u ∧ (j.Sorted → u.WellFormed ∧ u.sortKeys = j)
  | null, j, h => by cases h; exact ⟨_, rfl, fun _ => ⟨trivial, rfl⟩⟩
  | bool _, j, h => by cases h; exact ⟨_, rfl, fun _ => ⟨trivial, rfl⟩⟩
  | int _, j, h => by cases h; exact ⟨_, rfl, fun _ => ⟨trivial, rfl⟩⟩
  | float _, j, h => by cases h; exact ⟨_, rfl, fun _ => ⟨trivial, rfl⟩⟩
  | str _, j, h => by cases h; exact ⟨_, rfl, fun _ => ⟨trivial, rfl⟩⟩
  | other _, j, h => by cases h; exact ⟨_, rfl, fun _ => ⟨trivial, rfl⟩⟩
  | list es, j, h => by
      obtain ⟨js, helements, rfl⟩ := Option.map_eq_some_iff.1 h
      obtain ⟨us, hus, hsame⟩ := imageElements_false_of_true es js helements
      refine ⟨.arr us, by rw [image, hus]; rfl, ?_⟩
      intro hsorted
      obtain ⟨hwell, heq⟩ := hsame hsorted
      exact ⟨hwell, by rw [Json.sortKeys, heq]⟩
  | dict items, j, h => by
      simp only [image, Option.bind_eq_bind, Option.pure_def, Option.bind_eq_some_iff,
        if_true] at h
      obtain ⟨encoded, hitems, ordered, hsort, members, hname, heq⟩ := h
      cases heq
      obtain ⟨raw, hraw, hsame⟩ := imageItems_false_of_true items encoded hitems
      -- the names of the sorted items are those of the items as they stand
      have hperm := PyKey.sort?_perm ops hsort
      obtain ⟨unordered, hunordered, hmembers⟩ := nameItems_perm ops hperm hname
      have hkeys : raw.map Prod.fst = encoded.map Prod.fst := by
        rw [keys_imageItems ops hraw, keys_imageItems ops hitems]
      have hsome : (nameItems ops raw).isSome := by
        rw [isSome_nameItems_iff, hkeys, ← isSome_nameItems_iff, hunordered]
        rfl
      obtain ⟨rawMembers, hrawMembers⟩ := Option.isSome_iff_exists.1 hsome
      refine ⟨.obj rawMembers, ?_, ?_⟩
      · simp [image, hraw, hrawMembers]
      · rintro ⟨hincreasing, hvalues⟩
        have hsorted : ∀ m ∈ encoded, m.2.Sorted := by
          rw [← forall_sorted_iff]
          intro u hu
          rw [Json.sortedValues_iff, ← forall_sorted_iff, values_nameItems ops hname] at hvalues
          exact hvalues u ((hperm.map Prod.snd).mem_iff.2 hu)
        obtain ⟨hwell, heq⟩ := hsame hsorted
        have hvalued := nameItems_map ops Json.sortKeys hrawMembers
        rw [heq, hunordered, Option.some.injEq, ← Json.sortValues_eq_map] at hvalued
        subst hvalued
        refine ⟨⟨?_, ?_⟩, ?_⟩
        · have hnodup := (hmembers.map Prod.fst).nodup_iff.1 hincreasing.nodup
          rwa [Json.keys_sortValues] at hnodup
        · rw [Json.wellFormedMembers_iff]
          intro m hm
          have hmem : m.2 ∈ raw.map Prod.snd := by
            rw [← values_nameItems ops hrawMembers]
            exact List.mem_map_of_mem hm
          obtain ⟨n, hn, hnm⟩ := List.mem_map.1 hmem
          exact hnm ▸ hwell n hn
        · rw [Json.sortKeys, hincreasing.eq_sortMembers hmembers]

theorem imageElements_false_of_true : ∀ (es : List (PyVal F)) (js : List (Json F)),
    imageElements ops true es = some js →
      ∃ us, imageElements ops false es = some us ∧
        (Json.SortedElements js → Json.WellFormedElements us ∧ Json.sortElements us = js)
  | [], js, h => by cases h; exact ⟨_, rfl, fun _ => ⟨trivial, rfl⟩⟩
  | e :: es, js, h => by
      simp only [imageElements, Option.bind_eq_bind, Option.pure_def,
        Option.bind_eq_some_iff] at h
      obtain ⟨j, helement, js', helements, heq⟩ := h
      cases heq
      obtain ⟨u, hu, hsame⟩ := image_false_of_true e j helement
      obtain ⟨us, hus, hsame'⟩ := imageElements_false_of_true es js' helements
      refine ⟨u :: us, by simp [imageElements, hu, hus], ?_⟩
      rintro ⟨hsorted, hsorted'⟩
      obtain ⟨hwell, heq⟩ := hsame hsorted
      obtain ⟨hwell', heq'⟩ := hsame' hsorted'
      exact ⟨⟨hwell, hwell'⟩, by rw [Json.sortElements, heq, heq']⟩

theorem imageItems_false_of_true : ∀ (items : List (PyKey F × PyVal F))
    (encoded : List (PyKey F × Json F)), imageItems ops true items = some encoded →
      ∃ raw, imageItems ops false items = some raw ∧
        ((∀ m ∈ encoded, m.2.Sorted) →
          (∀ m ∈ raw, m.2.WellFormed) ∧ raw.map (fun m => (m.1, m.2.sortKeys)) = encoded)
  | [], encoded, h => by
      cases h
      exact ⟨_, rfl, fun _ => ⟨by simp, rfl⟩⟩
  | (k, v) :: items, encoded, h => by
      simp only [imageItems, Option.bind_eq_bind, Option.pure_def,
        Option.bind_eq_some_iff] at h
      obtain ⟨j, hvalue, encoded', hitems, heq⟩ := h
      cases heq
      obtain ⟨u, hu, hsame⟩ := image_false_of_true v j hvalue
      obtain ⟨raw, hraw, hsame'⟩ := imageItems_false_of_true items encoded' hitems
      refine ⟨(k, u) :: raw, by simp [imageItems, hu, hraw], ?_⟩
      intro hsorted
      rw [List.forall_mem_cons] at hsorted
      obtain ⟨hwell, heq⟩ := hsame hsorted.1
      obtain ⟨hwell', heq'⟩ := hsame' hsorted.2
      refine ⟨List.forall_mem_cons.2 ⟨hwell, hwell'⟩, ?_⟩
      rw [List.map_cons, heq, heq']

end

theorem sortKeys_reload_image_iff {v : PyVal F} {j u : Json F}
    (hj : image ops true v = some j) (hu : image ops false v = some u) :
    u.reload.sortKeys = j ↔ KeysInOrder ops v := by
  rw [← sorted_image_iff ops v j hj]
  obtain ⟨u', hu', hsame⟩ := image_false_of_true ops v j hj
  rw [hu] at hu'
  cases hu'
  constructor
  · intro h
    rw [← h]
    exact Json.sortKeys_sorted _ (Json.reload_wellFormed u)
  · intro hsorted
    obtain ⟨hwell, heq⟩ := hsame hsorted
    rw [Json.reload_of_wellFormed u hwell, heq]

/-! ## Values read from JSON -/

theorem sort?_str (members : List (Text × Json F)) :
    PyKey.sort? ops Prod.fst (members.map fun m => (PyKey.str m.1, m.2)) =
      some ((Json.sortMembers members).map fun m => (PyKey.str m.1, m.2)) := by
  have hcompares : members.Pairwise fun a b =>
      (PyKey.less? ops (PyKey.str a.1) (PyKey.str b.1)).isSome :=
    List.pairwise_of_forall fun _ _ => rfl
  rw [PyKey.sort?_map]
  rw [PyKey.sort?, Json.sortMembers]
  rw [if_pos hcompares]
  simp [PyKey.less?]

theorem nameItems_str (members : List (Text × Json F)) :
    nameItems ops (members.map fun m => (PyKey.str m.1, m.2)) = some members := by
  rw [nameItems_eq_some_iff, List.map_map]
  rfl

theorem namesIncrease_str {members : List (Text × Json F)}
    (h : (members.map Prod.fst).Nodup) :
    NamesIncrease ops (members.map fun m => PyKey.str m.1) := by
  have hkeys : members.map (fun m => (PyKey.str m.1 : PyKey F)) =
      (members.map fun m => ((PyKey.str m.1 : PyKey F), m.2)).map Prod.fst := by
    rw [List.map_map]
    rfl
  refine ⟨((Json.sortMembers members).map fun m => (PyKey.str m.1, m.2)).map Prod.fst,
    (Json.sortMembers members).map Prod.fst, ?_, ?_, Json.sortMembers_increasing h⟩
  · rw [hkeys, PyKey.sort?_map]
    simp only [id_eq]
    rw [sort?_str]
    rfl
  · rw [PyKey.texts?_eq_some_iff, List.map_map, List.map_map, List.map_map]
    rfl

mutual

theorem image_ofJson : ∀ j : Json F, image ops true (ofJson j) = some j.sortKeys
  | .null => rfl
  | .bool _ => rfl
  | .int _ => rfl
  | .float _ => rfl
  | .str _ => rfl
  | .arr es => by
      rw [ofJson, image, imageElements_ofElements es]
      rfl
  | .obj ms => by
      rw [ofJson, image, imageItems_ofMembers ms]
      simp only [Option.bind_eq_bind, Option.bind_some, if_true, sort?_str, nameItems_str]
      rfl

theorem imageElements_ofElements : ∀ es : List (Json F),
    imageElements ops true (ofElements es) = some (Json.sortElements es)
  | [] => rfl
  | e :: es => by
      rw [ofElements, imageElements, image_ofJson e, imageElements_ofElements es]
      rfl

theorem imageItems_ofMembers : ∀ ms : List (Text × Json F),
    imageItems ops true (ofMembers ms) =
      some ((Json.sortValues ms).map fun m => (PyKey.str m.1, m.2))
  | [] => rfl
  | (k, v) :: ms => by
      rw [ofMembers, imageItems, image_ofJson v, imageItems_ofMembers ms]
      rfl

end

end PyVal
end Sentinel
