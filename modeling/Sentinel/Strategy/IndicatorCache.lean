import Sentinel.Strategy.Series
import Sentinel.Support.Dict

/-!
# The cache of the indicators

A strategy keeps the indicators of a frame and takes a frame for the same one by its length,
its first and last stamp and its last close.  A frame corrected elsewhere is then read with
the indicators of the one before it.  That the indicators themselves raise is left out.
-/

namespace Sentinel

open Float64

variable {F X : Type} [Float64 F]

structure WideRow (F : Type) extends FrameRow F where
  extra : List (String × F) := []

abbrev WideFrame (F : Type) := List (WideRow F)

/-- `_frame_key`; an empty frame has no ends. -/
structure FrameKey (F : Type) where
  rows : ℕ
  ends : Option (ℤ × ℤ × F)

namespace FrameKey

def of (df : WideFrame F) : FrameKey F where
  rows := df.length
  ends := df.head?.bind fun first => df.getLast?.map fun last =>
    (first.tsNs, last.tsNs, last.close)

/-- `==` of two keys; one whose close is not a number equals none. -/
def same (k k' : FrameKey F) : Bool :=
  decide (k.rows = k'.rows) &&
    match k.ends, k'.ends with
    | none, none => true
    | some (first, last, close), some (first', last', close') =>
        decide (first = first') && decide (last = last') && eq close close'
    | _, _ => false

theorem rows_eq_of_same {k k' : FrameKey F} (h : same k k' = true) : k.rows = k'.rows :=
  of_decide_eq_true (Bool.and_eq_true_iff.mp h).1

theorem same_symm {k k' : FrameKey F} (h : same k k' = true) : same k' k = true := by
  obtain ⟨rows, _ | ⟨first, last, close⟩⟩ := k
  all_goals obtain ⟨rows', _ | ⟨first', last', close'⟩⟩ := k'
  all_goals simp only [same, eq, Bool.and_eq_true, decide_eq_true_eq, Bool.and_false] at h ⊢
  all_goals grind

theorem same_trans (htrans : ∀ a b c : F, eq a b = true → eq b c = true → eq a c = true)
    {k k' k'' : FrameKey F} (h : same k k' = true) (h' : same k' k'' = true) :
    same k k'' = true := by
  obtain ⟨rows, _ | ⟨first, last, close⟩⟩ := k
  all_goals obtain ⟨rows', _ | ⟨first', last', close'⟩⟩ := k'
  all_goals obtain ⟨rows'', _ | ⟨first'', last'', close''⟩⟩ := k''
  all_goals simp only [same, Bool.and_eq_true, decide_eq_true_eq, Bool.and_false] at h h' ⊢
  all_goals grind

end FrameKey

/-- `_pre` and `_pre_keys`. -/
structure IndicatorCache (F X : Type) where
  pre : Dict String (List X) := .empty
  keys : Dict String (FrameKey F) := .empty

namespace IndicatorCache

variable (indicators : WideFrame F → List X) (c : IndicatorCache F X)

def kept (keys : Dict String (FrameKey F)) (sym : String) (df : WideFrame F) : Option (List X) :=
  if (keys.get? sym).any fun k => k.same (FrameKey.of df) then c.pre.get? sym else none

variable (c acc : IndicatorCache F X)

def prepareOne (item : String × WideFrame F) : IndicatorCache F X :=
  match c.kept acc.keys item.1 item.2 with
  | some rows => { acc with pre := acc.pre.set item.1 rows }
  | none =>
      { pre := acc.pre.set item.1 (indicators item.2)
        keys := acc.keys.set item.1 (FrameKey.of item.2) }

def prepare (data : Dict String (WideFrame F)) : IndicatorCache F X :=
  data.items.foldl (c.prepareOne indicators) { c with pre := .empty }

/-- `features_at`: of the rows kept, or of a window of the frame. -/
def featuresAt (requiredHistory : ℕ) (c : IndicatorCache F X) (sym : String) (df : WideFrame F)
    (i : ℕ) : Option X :=
  let start := i - max requiredHistory 2 * 3
  let window := (indicators ((df.take (i + 1)).drop start)).getLast?
  match c.pre.get? sym with
  | none => window
  | some rows => if i < rows.length then rows[i]? else window

theorem prepareOne_of_ne {item : String × WideFrame F} {sym : String}
    (h : sym ≠ item.1) :
    (c.prepareOne indicators acc item).pre.get? sym = acc.pre.get? sym ∧
      (c.prepareOne indicators acc item).keys.get? sym = acc.keys.get? sym := by
  rw [prepareOne]
  rcases c.kept acc.keys item.1 item.2 with _ | rows
  · exact ⟨Dict.get?_set_of_ne _ h _, Dict.get?_set_of_ne _ h _⟩
  · exact ⟨Dict.get?_set_of_ne _ h _, rfl⟩

theorem foldl_of_notMem {items : List (String × WideFrame F)}
    {sym : String} (h : sym ∉ items.map Prod.fst) :
    (items.foldl (c.prepareOne indicators) acc).pre.get? sym = acc.pre.get? sym ∧
      (items.foldl (c.prepareOne indicators) acc).keys.get? sym = acc.keys.get? sym := by
  induction items generalizing acc with
  | nil => exact ⟨rfl, rfl⟩
  | cons item items ih =>
    rw [List.map_cons, List.mem_cons, not_or] at h
    obtain ⟨hpre, hkeys⟩ := ih (c.prepareOne indicators acc item) h.2
    obtain ⟨hpre', hkeys'⟩ := prepareOne_of_ne indicators c acc h.1
    exact ⟨hpre.trans hpre', hkeys.trans hkeys'⟩

theorem pre_prepare_of_none {data : Dict String (WideFrame F)}
    {sym : String} (h : data.get? sym = none) :
    (c.prepare indicators data).pre.get? sym = none :=
  (foldl_of_notMem indicators c _ ((Dict.get?_eq_none_iff data sym).mp h)).1

theorem prepare_of_some {data : Dict String (WideFrame F)}
    {sym : String} {df : WideFrame F} (h : data.get? sym = some df) :
    (c.prepare indicators data).pre.get? sym =
        some ((c.kept c.keys sym df).getD (indicators df)) ∧
      (c.prepare indicators data).keys.get? sym =
        if (c.kept c.keys sym df).isSome then c.keys.get? sym else some (FrameKey.of df) := by
  obtain ⟨before, after, hitems⟩ := List.append_of_mem ((Dict.mem_items_iff data sym df).mpr h)
  have hnodup := data.nodup
  rw [hitems, List.map_append, List.map_cons, List.nodup_append, List.nodup_cons] at hnodup
  have hbefore : sym ∉ before.map Prod.fst := fun hmem =>
    hnodup.2.2 sym hmem sym List.mem_cons_self rfl
  obtain ⟨-, hkeys⟩ := foldl_of_notMem indicators c { c with pre := .empty } hbefore
  rw [prepare, hitems, List.foldl_append, List.foldl_cons]
  obtain ⟨hpre', hkeys'⟩ := foldl_of_notMem indicators c (c.prepareOne indicators
    (before.foldl (c.prepareOne indicators) { c with pre := .empty }) (sym, df)) hnodup.2.1.1
  have hsame : c.kept
      (before.foldl (c.prepareOne indicators) { c with pre := .empty }).keys sym df =
        c.kept c.keys sym df := by
    simp only [kept, hkeys]
  rw [hpre', hkeys', prepareOne, hsame]
  rcases c.kept c.keys sym df with _ | rows
  · simp
  · simp [hkeys]

/-! ## A sequence of calls -/

variable (calls : ℕ → Dict String (WideFrame F))

def after : ℕ → IndicatorCache F X
  | 0 => {}
  | n + 1 => (after n).prepare indicators (calls n)

/-- After a call the features of its frames are their indicators. -/
def TransparentAt (requiredHistory n : ℕ) : Prop :=
  ∀ sym df, (calls n).get? sym = some df → ∀ i < df.length,
    featuresAt indicators requiredHistory (after indicators calls (n + 1)) sym df i =
      (indicators df)[i]?

/-- The frames of an instrument in a call and the next have one key but not the same
indicators. -/
def MistakenAt (n : ℕ) : Prop :=
  ∃ sym df df', (calls n).get? sym = some df ∧ (calls (n + 1)).get? sym = some df' ∧
    (FrameKey.of df).same (FrameKey.of df') = true ∧ indicators df ≠ indicators df'

section Aligned

variable {indicators calls} (haligned : ∀ df, (indicators df).length = df.length)
include haligned

theorem exists_key (n : ℕ) {sym : String} {df : WideFrame F}
    (h : (calls n).get? sym = some df) :
    ∃ k rows, (after indicators calls (n + 1)).keys.get? sym = some k ∧
      (k = FrameKey.of df ∨ k.same (FrameKey.of df) = true) ∧
      (after indicators calls (n + 1)).pre.get? sym = some rows ∧ rows.length = df.length := by
  induction n generalizing df with
  | zero =>
    obtain ⟨hpre, hkeys⟩ := prepare_of_some indicators (after indicators calls 0) h
    exact ⟨_, _, hkeys, Or.inl rfl, hpre, haligned df⟩
  | succ n ih =>
    obtain ⟨hpre, hkeys⟩ := prepare_of_some indicators (after indicators calls (n + 1)) h
    rcases hkept : (after indicators calls (n + 1)).kept (after indicators calls (n + 1)).keys sym
      df with _ | rows
    · rw [hkept] at hpre hkeys
      exact ⟨_, _, hkeys, Or.inl rfl, hpre, haligned df⟩
    · rw [hkept] at hpre hkeys
      rw [kept] at hkept
      split_ifs at hkept with hsame
      rcases hbefore : (calls n).get? sym with _ | df'
      · rw [after, pre_prepare_of_none indicators _ hbefore] at hkept
        cases hkept
      · obtain ⟨k, rows', hk, hk', hrows', hlength⟩ := ih hbefore
        rw [hk, Option.any_some] at hsame
        obtain rfl := Option.some.inj (hrows'.symm.trans hkept)
        refine ⟨k, rows', hkeys.trans hk, Or.inr hsame, hpre, hlength.trans ?_⟩
        have hrows := FrameKey.rows_eq_of_same hsame
        rcases hk' with rfl | hk'
        · exact hrows
        · exact (FrameKey.rows_eq_of_same hk').symm.trans hrows

theorem kept_eq (htrans : ∀ a b c : F, eq a b = true → eq b c = true → eq a c = true) (n : ℕ)
    {sym : String} {df : WideFrame F} (h : (calls n).get? sym = some df) (df' : WideFrame F) :
    (after indicators calls (n + 1)).kept (after indicators calls (n + 1)).keys sym df' =
      if (FrameKey.of df).same (FrameKey.of df') then
        (after indicators calls (n + 1)).pre.get? sym else none := by
  obtain ⟨k, rows, hk, hsame, -⟩ := exists_key haligned n h
  have hiff : k.same (FrameKey.of df') = (FrameKey.of df).same (FrameKey.of df') := by
    rcases hsame with rfl | hsame
    · rfl
    · rw [Bool.eq_iff_iff]
      exact ⟨FrameKey.same_trans htrans (FrameKey.same_symm hsame),
        FrameKey.same_trans htrans hsame⟩
  rw [kept, hk, Option.any_some, hiff]

theorem transparentAt_iff (requiredHistory n : ℕ) :
    TransparentAt indicators calls requiredHistory n ↔ ∀ sym df, (calls n).get? sym = some df →
      (after indicators calls (n + 1)).pre.get? sym = some (indicators df) := by
  refine forall₃_congr fun sym df h => ?_
  obtain ⟨k, rows, -, -, hpre, hlength⟩ := exists_key haligned n h
  simp only [featuresAt, hpre, Option.some.injEq]
  constructor
  · intro hall
    apply List.ext_getElem?
    intro i
    by_cases hi : i < df.length
    · have hrow := hall i hi
      rwa [if_pos (by omega)] at hrow
    · rw [List.getElem?_eq_none (by omega), List.getElem?_eq_none (by rw [haligned]; omega)]
  · rintro rfl i hi
    rw [if_pos (by omega)]

/-- The cache is transparent over so many calls exactly when, from each of them to the next,
no instrument has frames of one key and different indicators. -/
theorem cache_transparent_iff
    (htrans : ∀ a b c : F, eq a b = true → eq b c = true → eq a c = true)
    (requiredHistory count : ℕ) :
    (∀ n < count, TransparentAt indicators calls requiredHistory n) ↔
      ∀ n, n + 1 < count → ¬ MistakenAt indicators calls n := by
  simp only [transparentAt_iff haligned]
  constructor
  · rintro hall n hn ⟨sym, df, df', hdf, hdf', hsame, hne⟩
    have hbefore := hall n (by omega) sym df hdf
    have hafter := hall (n + 1) hn sym df' hdf'
    rw [after, (prepare_of_some indicators _ hdf').1, kept_eq haligned htrans n hdf, if_pos hsame,
      hbefore] at hafter
    exact hne (Option.some.inj hafter)
  · intro hno n
    induction n with
    | zero =>
      intro _ sym df hdf
      rw [after, (prepare_of_some indicators _ hdf).1]
      rfl
    | succ n ih =>
      intro hn sym df' hdf'
      rw [after, (prepare_of_some indicators _ hdf').1]
      rcases hdf : (calls n).get? sym with _ | df
      · rw [kept, after, pre_prepare_of_none indicators _ hdf, ite_self]
        rfl
      · rw [kept_eq haligned htrans n hdf]
        split_ifs with hsame
        · rw [ih (by omega) sym df hdf]
          by_contra hne
          exact hno n hn ⟨sym, df, df', hdf, hdf', hsame, fun h => hne (congrArg some h)⟩
        · rfl

end Aligned

/-! ## A corrected bar -/

def twoBars (high : ℚ) : WideFrame (Option ℚ) :=
  [{ openPrice := some 100, high := some high, low := some 99, close := some 100, tsNs := 0,
     volume := some 1 },
    { openPrice := some 100, high := some 101, low := some 99, close := some 100,
      tsNs := 900000000000, volume := some 1 }]

def correctedCalls (n : ℕ) : Dict String (WideFrame (Option ℚ)) :=
  Dict.empty.set "EUR_USD" (twoBars (if n = 0 then 101 else 103))

def highs (df : WideFrame (Option ℚ)) : List (Option ℚ) := df.map fun r => r.high

theorem eq_trans_rat : ∀ a b c : Option ℚ, eq a b = true → eq b c = true → eq a c = true := by
  intro a b c
  rcases a with _ | a
  all_goals rcases b with _ | b
  all_goals rcases c with _ | c
  all_goals simp only [eq, le, Option.any_some, Option.any_none, Bool.and_eq_true,
    decide_eq_true_eq, Bool.and_false]
  all_goals grind

def laterBar : WideRow (Option ℚ) :=
  { openPrice := some 100, high := some 104, low := some 99, close := some 103
    tsNs := 1800000000000, volume := some 1 }

def growingCalls (n : ℕ) : Dict String (WideFrame (Option ℚ)) :=
  Dict.empty.set "EUR_USD" (twoBars 101 ++ if n < 2 then [] else [laterBar])

theorem cache_transparent_iff_growing :
    TransparentAt highs growingCalls 2 0 ∧ TransparentAt highs growingCalls 2 1 ∧
      TransparentAt highs growingCalls 2 2 := by
  have hall : ∀ n < 3, TransparentAt highs growingCalls 2 n := by
    refine (cache_transparent_iff (fun _ => List.length_map _) eq_trans_rat 2 3).mpr ?_
    rintro n hn ⟨sym, df, df', hdf, hdf', hsame, hne⟩
    have hsym : ∀ m, ∀ rows, (growingCalls m).get? sym = some rows →
        rows = twoBars 101 ++ if m < 2 then [] else [laterBar] := by
      intro m rows hrows
      rw [growingCalls, Dict.get?_set] at hrows
      by_cases hname : sym = "EUR_USD"
      · rw [if_pos hname] at hrows
        exact (Option.some.inj hrows).symm
      · rw [if_neg hname] at hrows
        cases hrows
    rw [hsym n df hdf, hsym (n + 1) df' hdf'] at hsame hne
    obtain rfl | rfl : n = 0 ∨ n = 1 := by omega
    · exact hne rfl
    · exact absurd hsame (by decide +kernel)
  exact ⟨hall 0 (by decide), hall 1 (by decide), hall 2 (by decide)⟩

/-- The corrected bar is read with the indicators of the old one. -/
theorem not_transparent_corrected :
    ¬ ∀ (indicators : WideFrame (Option ℚ) → List (Option ℚ))
      (calls : ℕ → Dict String (WideFrame (Option ℚ))) (requiredHistory n : ℕ),
      (∀ df, (indicators df).length = df.length) →
        TransparentAt indicators calls requiredHistory n := by
  intro hall
  have hrow := hall highs correctedCalls 2 1 (fun _ => List.length_map _) "EUR_USD" (twoBars 103)
    rfl 0 (by decide)
  exact absurd hrow (by decide +kernel)

end IndicatorCache

end Sentinel
