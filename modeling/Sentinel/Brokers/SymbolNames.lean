import Sentinel.Support.Dict
import Mathlib.Data.List.Sort
import Mathlib.Order.Lex
import Mathlib.Data.Prod.Lex
import Mathlib.Data.List.Lex
import Mathlib.Data.Char

/-!
# Instrument names and the broker's spelling of them

A profile says how its broker spells the canonical names; where it says nothing,
the suffix is inferred from the symbols the terminal lists.
-/

namespace Sentinel

/-- The letters of the interpreter: `str.upper` and `str.isalpha`, character by
character. -/
structure Letters where
  upper : Char → List Char
  isAlpha : Char → Bool
  upper_separator : upper '_' = ['_']
  not_alpha : ∀ c ∈ ['_', '.', '-'], isAlpha c = false

namespace Letters

variable (l : Letters)

def upperText (s : List Char) : List Char := s.flatMap l.upper

def ascii : Letters where
  upper c := [c.toUpper]
  isAlpha := Char.isAlpha
  upper_separator := by decide
  not_alpha := by
    simp only [List.forall_mem_cons]
    exact ⟨rfl, rfl, rfl, by simp⟩

end Letters

/-- `SymbolMap`: how a broker spells instrument names. -/
structure SymbolMap where
  suffix : List Char := []
  namePrefix : List Char := []
  overrides : Dict (List Char) (List Char) := .empty
  stripSeparator : Bool := true

namespace SymbolMap

variable (m : SymbolMap)

def toVenue (canonical : List Char) : List Char :=
  match m.overrides.get? canonical with
  | some venue => venue
  | none =>
      m.namePrefix ++
        (if m.stripSeparator then canonical.filter (· ≠ '_') else canonical) ++ m.suffix

def declared (venueSymbol : List Char) : Option (List Char) :=
  (m.overrides.items.find? fun kv => kv.2 = venueSymbol).map Prod.fst

def core (venueSymbol : List Char) : List Char :=
  let core :=
    if m.namePrefix ≠ [] ∧ m.namePrefix.isPrefixOf venueSymbol then
      venueSymbol.drop m.namePrefix.length
    else venueSymbol
  if m.suffix ≠ [] ∧ m.suffix.isSuffixOf core then core.take (core.length - m.suffix.length)
  else core

variable (l : Letters)

def spell (core : List Char) : List Char :=
  if core.length = 6 ∧ core.all l.isAlpha then
    l.upperText (core.take 3) ++ '_' :: l.upperText (core.drop 3)
  else l.upperText core

def toCanonical (venueSymbol : List Char) : List Char :=
  match m.declared venueSymbol with
  | some canonical => canonical
  | none => spell l (m.core venueSymbol)

def punctuated (name : List Char) : Bool := name.any fun c => c = '.' || c = '-'

/-- `_canon_raw`: the rule, and the symbol itself where the rule does not
apply. -/
def canonRaw (venueSymbol : List Char) : List Char :=
  let derived := m.toCanonical l venueSymbol
  if derived ≠ venueSymbol ∧ punctuated derived then venueSymbol else derived

/-! ## Inference -/

def majors : List (List Char) :=
  ["EURUSD", "GBPUSD", "USDJPY", "AUDUSD", "USDCHF", "USDCAD", "NZDUSD", "EURJPY", "EURGBP",
    "GBPJPY"].map String.toList

def vote (symbol major : List Char) : Option (List Char) :=
  if l.upperText symbol = major then some []
  else if major.isPrefixOf (l.upperText symbol) ∧ major.length < symbol.length then
    some (symbol.drop major.length)
  else none

variable (venueSymbols : List (List Char))

def suffixVotes : Dict (List Char) ℕ :=
  Dict.totals ((venueSymbols.flatMap fun symbol => majors.filterMap (vote l symbol)).map
    fun found => (found, 1))

def ranksBefore (a b : List Char × ℕ) : Prop := b.2 < a.2 ∨ (a.2 = b.2 ∧ a.1 ≤ b.1)

instance : DecidableRel ranksBefore := fun _ _ => inferInstanceAs (Decidable (_ ∨ _))

/-- `infer_symbol_map`: the suffix with most votes, and none on a tie. -/
def inferSymbolMap : SymbolMap :=
  match (suffixVotes l venueSymbols).items.insertionSort ranksBefore with
  | [] => {}
  | [(best, _)] => { suffix := best }
  | (best, votes) :: (_, second) :: _ => if second = votes then {} else { suffix := best }

def inForce : SymbolMap :=
  if m.suffix = [] ∧ m.namePrefix = [] ∧ m.overrides.isEmpty then
    if (inferSymbolMap l venueSymbols).suffix ≠ [] then inferSymbolMap l venueSymbols else m
  else m

/-! ## The rule and its inverse -/

theorem core_spelled (core : List Char) : m.core (m.namePrefix ++ core ++ m.suffix) = core := by
  have hinitial : (if m.namePrefix ≠ [] ∧ m.namePrefix.isPrefixOf (m.namePrefix ++ core ++ m.suffix)
      then (m.namePrefix ++ core ++ m.suffix).drop m.namePrefix.length
      else m.namePrefix ++ core ++ m.suffix) = core ++ m.suffix := by
    by_cases hempty : m.namePrefix = []
    · simp [hempty]
    · have hlead : m.namePrefix.isPrefixOf (m.namePrefix ++ (core ++ m.suffix)) = true :=
        List.isPrefixOf_iff_prefix.2 (List.prefix_append _ _)
      rw [List.append_assoc, if_pos ⟨hempty, hlead⟩, List.drop_left]
  rw [SymbolMap.core]
  simp only [hinitial]
  by_cases hempty : m.suffix = []
  · simp [hempty]
  · have htail : m.suffix.isSuffixOf (core ++ m.suffix) = true :=
      List.isSuffixOf_iff_suffix.2 (List.suffix_append _ _)
    rw [if_pos ⟨hempty, htail⟩, List.length_append, Nat.add_sub_cancel, List.take_left]

def Capital (s : List Char) : Prop := ∀ c ∈ s, l.isAlpha c = true ∧ l.upper c = [c]

inductive IsCanonical : List Char → Prop
  | pair (base quote : List Char) (hbase : Capital l base) (hquote : Capital l quote)
      (lbase : base.length = 3) (lquote : quote.length = 3) :
      IsCanonical (base ++ '_' :: quote)
  | plain (name : List Char) (hupper : l.upperText name = name)
      (hplain : ∀ c ∈ name, c ∉ ['_', '.', '-'])
      (hletters : ¬ (name.length = 6 ∧ name.all l.isAlpha = true)) : IsCanonical name

variable {l}

variable {s : List Char}

theorem Capital.upperText (h : Capital l s) : l.upperText s = s := by
  induction s with
  | nil => rfl
  | cons c s ih =>
      obtain ⟨⟨-, hc⟩, hs⟩ := List.forall_mem_cons.1 h
      rw [Letters.upperText, List.flatMap_cons, hc]
      exact congrArg (c :: ·) (ih hs)

theorem Capital.not_mem (h : Capital l s) {c : Char} (hc : c ∈ ['_', '.', '-']) : c ∉ s := by
  intro hmem
  have halpha := (h c hmem).1
  rw [l.not_alpha c hc] at halpha
  cases halpha

theorem Capital.all (h : Capital l s) : s.all l.isAlpha = true :=
  List.all_eq_true.2 fun c hc => (h c hc).1

theorem Capital.filter (h : Capital l s) : s.filter (· ≠ '_') = s := by
  apply List.filter_eq_self.2
  intro c hc
  apply decide_eq_true
  rintro rfl
  exact h.not_mem (by simp) hc

theorem IsCanonical.not_punctuated {name : List Char} (h : IsCanonical l name) :
    punctuated name = false := by
  apply Bool.eq_false_of_not_eq_true
  intro hpunctuated
  obtain ⟨c, hc, hmark⟩ := List.any_eq_true.1 hpunctuated
  have hmarks : c = '.' ∨ c = '-' := by simpa using hmark
  have hforbidden : c ∈ ['_', '.', '-'] := by
    rcases hmarks with rfl | rfl
    · simp
    · simp
  cases h with
  | pair base quote hbase hquote lbase lquote =>
      rcases List.mem_append.1 hc with hc | hc
      · exact hbase.not_mem hforbidden hc
      · rcases List.mem_cons.1 hc with rfl | hc
        · simp at hmarks
        · exact hquote.not_mem hforbidden hc
  | plain _ _ hplain _ => exact hplain c hc hforbidden

theorem IsCanonical.spell {name : List Char} (h : IsCanonical l name) (strip : Bool) :
    spell l (if strip then name.filter (· ≠ '_') else name) = name := by
  cases h with
  | pair base quote hbase hquote lbase lquote =>
      cases strip with
      | true =>
          have hstripped : (base ++ '_' :: quote).filter (· ≠ '_') = base ++ quote := by
            rw [List.filter_append, hbase.filter, List.filter_cons_of_neg (by simp), hquote.filter]
          have hsix : (base ++ quote).length = 6 ∧ (base ++ quote).all l.isAlpha = true := by
            rw [List.length_append, lbase, lquote, List.all_append, hbase.all, hquote.all]
            exact ⟨rfl, rfl⟩
          rw [if_pos rfl, hstripped, SymbolMap.spell, if_pos hsix, ← lbase, List.take_left,
            List.drop_left, hbase.upperText, hquote.upperText]
      | false =>
          have hseven : ¬ ((base ++ '_' :: quote).length = 6 ∧
              (base ++ '_' :: quote).all l.isAlpha = true) := by
            rw [List.length_append, List.length_cons, lbase, lquote]
            simp
          have hupper := hquote.upperText
          rw [if_neg Bool.false_ne_true, SymbolMap.spell, if_neg hseven, Letters.upperText,
            List.flatMap_append, List.flatMap_cons, l.upper_separator]
          exact congrArg₂ (· ++ '_' :: ·) hbase.upperText hquote.upperText
  | plain _ hupper hplain hletters =>
      have hstripped : name.filter (· ≠ '_') = name := by
        apply List.filter_eq_self.2
        intro c hc
        apply decide_eq_true
        rintro rfl
        exact hplain '_' hc (by simp)
      rw [hstripped, ite_self, SymbolMap.spell, if_neg hletters, hupper]

variable {m}

theorem declared_isSome_of_get? {venueSymbol canonical : List Char}
    (h : m.overrides.get? canonical = some venueSymbol) :
    ∃ canonical', m.declared venueSymbol = some canonical' := by
  have hmem := (m.overrides.mem_items_iff canonical venueSymbol).2 h
  cases hfind : m.overrides.items.find? fun kv => kv.2 = venueSymbol with
  | some kv => exact ⟨kv.1, by rw [declared, hfind]; rfl⟩
  | none =>
      have hnone := List.find?_eq_none.1 hfind _ hmem
      simp at hnone

theorem canonRaw_toVenue_iff {canonical : List Char} (h : IsCanonical l canonical) :
    m.canonRaw l (m.toVenue canonical) = canonical ↔
      ∀ other, m.declared (m.toVenue canonical) = some other →
        other = canonical ∨ (m.toVenue canonical = canonical ∧ punctuated other = true) := by
  have hnone := h.not_punctuated
  cases hdeclared : m.declared (m.toVenue canonical) with
  | none =>
      refine iff_of_true ?_ (by simp)
      have hrule : m.overrides.get? canonical = none := by
        cases hget : m.overrides.get? canonical with
        | none => rfl
        | some venue =>
            obtain ⟨other, hother⟩ := declared_isSome_of_get? hget
            have hvenue : m.toVenue canonical = venue := by rw [toVenue, hget]
            rw [hvenue, hother] at hdeclared
            cases hdeclared
      have hderived : m.toCanonical l (m.toVenue canonical) = canonical := by
        rw [toCanonical, hdeclared]
        simp only [toVenue, hrule, core_spelled]
        exact h.spell m.stripSeparator
      rw [canonRaw, hderived]
      simp [hnone]
  | some other =>
      have hderived : m.toCanonical l (m.toVenue canonical) = other := by
        rw [toCanonical, hdeclared]
      rw [canonRaw, hderived]
      simp only [Option.some.injEq, forall_eq']
      by_cases hsame : other = canonical
      · simp [hsame, hnone]
      · by_cases hpunctuated : punctuated other = true
        · by_cases hvenue : other = m.toVenue canonical
          · simp [← hvenue, hsame]
          · simp [hsame, hpunctuated, hvenue]
        · simp [hsame, hpunctuated]

/-! ## The order of the list -/

variable {names names' : List (List Char)}

theorem suffixVotes_perm (h : names.Perm names') :
    (suffixVotes l names).items.Perm (suffixVotes l names').items := by
  apply Dict.items_perm
  intro found
  exact Dict.get?_totals_perm ((h.flatMap_right _).map _) found

instance : Std.Antisymm ranksBefore where
  antisymm a b hab hba := by
    obtain ⟨found, votes⟩ := a
    obtain ⟨found', votes'⟩ := b
    rcases hab with hmore | ⟨hsame, hle⟩
    · rcases hba with hmore' | ⟨hsame', -⟩
      · exact absurd hmore (lt_asymm hmore')
      · exact absurd hsame' (ne_of_lt hmore)
    · rcases hba with hmore' | ⟨-, hle'⟩
      · exact absurd hsame (ne_of_gt hmore').symm
      · exact Prod.ext (le_antisymm hle hle') hsame

instance : Std.Total ranksBefore where
  total a b := by
    rcases lt_trichotomy a.2 b.2 with hless | hsame | hmore
    · exact Or.inr (Or.inl hless)
    · rcases le_total a.1 b.1 with hle | hle
      · exact Or.inl (Or.inr ⟨hsame, hle⟩)
      · exact Or.inr (Or.inr ⟨hsame.symm, hle⟩)
    · exact Or.inl (Or.inl hmore)

instance : IsTrans _ ranksBefore where
  trans a b c hab hbc := by
    rcases hab with hmore | ⟨hsame, hle⟩
    · rcases hbc with hmore' | ⟨hsame', -⟩
      · exact Or.inl (hmore'.trans hmore)
      · exact Or.inl (hsame' ▸ hmore)
    · rcases hbc with hmore' | ⟨hsame', hle'⟩
      · exact Or.inl (hsame ▸ hmore')
      · exact Or.inr ⟨hsame.trans hsame', hle.trans hle'⟩

theorem inferSymbolMap_perm (h : names.Perm names') :
    inferSymbolMap l names = inferSymbolMap l names' := by
  have hsorted : (suffixVotes l names).items.insertionSort ranksBefore =
      (suffixVotes l names').items.insertionSort ranksBefore := by
    apply List.Perm.eq_of_pairwise' (List.pairwise_insertionSort ranksBefore _)
      (List.pairwise_insertionSort ranksBefore _)
    exact (List.perm_insertionSort _ _).trans
      ((suffixVotes_perm h).trans (List.perm_insertionSort _ _).symm)
  rw [inferSymbolMap, inferSymbolMap, hsorted]

theorem inForce_perm (h : names.Perm names') : m.inForce l names = m.inForce l names' := by
  rw [inForce, inForce, inferSymbolMap_perm h]

end SymbolMap
end Sentinel
