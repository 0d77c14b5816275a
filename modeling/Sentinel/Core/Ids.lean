import Mathlib.Data.Char
import Mathlib.Data.List.Lex
import Sentinel.Support.Dict
import Sentinel.Support.Substring
import Sentinel.Support.Utf8
import Mathlib.Data.List.Sort
import Mathlib.Tactic.Ring

/-!
# Identifiers of orders

The identifier of an order is a digest of the fields that make one intent, joined
into a text by labels and bars.  A name may have bars of its own, so the text may be
that of another intent: it is where the names of one run on into the labels of the
other.
-/

namespace Sentinel

/-! ## The text of a payload -/

def intText (n : ℤ) : List Char :=
  if n < 0 then '-' :: Nat.toDigits 10 n.natAbs else Nat.toDigits 10 n.natAbs

inductive KeyValue (F : Type) where
  | text (s : List Char)
  | int (n : ℤ)
  | float (x : F)

variable {F : Type} (fixed : F → List Char)

/-- The text of a value; that of a float, to ten places, is `fixed`. -/
def KeyValue.format : KeyValue F → List Char
  | .text s => s
  | .int n => intText n
  | .float x => fixed x

/-- `_canonical`: the values under their keys, in the order of the keys. -/
def canonical (payload : Dict (List Char) (KeyValue F)) : List Char :=
  ['|'].intercalate
    ((payload.items.insertionSort fun p q => p.1 ≤ q.1).map fun p =>
      p.1 ++ '=' :: p.2.format fixed)

structure OrderKey where
  strategy : List Char
  instrument : List Char
  side : List Char
  decisionNs : ℤ
  seq : ℤ := 0
  account : List Char := []
  attempt : ℤ := 0
  deriving DecidableEq

inductive IdError where
  /-- `side must be BUY or SELL, got …` -/
  | side (got : List Char)
  deriving DecidableEq

def buyText : List Char := ['B', 'U', 'Y']

def sellText : List Char := ['S', 'E', 'L', 'L']

def safeChar (c : Char) : Bool := c.isAlphanum || c == '_' || c == '-'

def maxClientId : ℕ := 32

namespace OrderKey

variable (k : OrderKey)

def payload : Dict (List Char) (KeyValue F) where
  items := [
    (['a', 'c', 'c', 't'], .text k.account),
    (['s', 't', 'r', 'a', 't'], .text k.strategy),
    (['i', 'n', 's', 't'], .text k.instrument),
    (['s', 'i', 'd', 'e'], .text k.side),
    (['t'], .int k.decisionNs),
    (['s', 'e', 'q'], .int k.seq),
    (['a', 't', 't'], .int k.attempt)]
  nodup := by
    simp only [List.map_cons, List.map_nil]
    decide

def Sided : Prop := k.side = buyText ∨ k.side = sellText

instance : Decidable k.Sided := inferInstanceAs (Decidable (_ ∨ _))

def hashed : List UInt8 := Utf8.encode (canonical (fun x : Empty => nomatch x) k.payload)

end OrderKey

/-- `client_order_id`; the hexadecimal digest of twelve bytes is a parameter. -/
def clientOrderId (digest : List UInt8 → List Char) (k : OrderKey) :
    Except IdError (List Char) :=
  if k.Sided then
    .ok ((('S' :: 'F' :: 'X' :: digest k.hashed).filter safeChar).take maxClientId)
  else .error (.side k.side)

/-- What twelve bytes in hexadecimal are. -/
def IsHexDigest (s : List Char) : Prop :=
  s.length = 24 ∧ ∀ c ∈ s, c ∈ ['0', '1', '2', '3', '4', '5', '6', '7', '8', '9',
    'a', 'b', 'c', 'd', 'e', 'f']

instance (s : List Char) : Decidable (IsHexDigest s) :=
  @instDecidableAnd _ _ _ (List.decidableBAll _ s)

namespace OrderKey

variable (k : OrderKey)

def opening : List Char :=
  barred '|' [['a', 't', 't', '='] ++ intText k.attempt, ['i', 'n', 's', 't', '=']]

def between : List Char :=
  barred '|' [['s', 'e', 'q', '='] ++ intText k.seq, ['s', 'i', 'd', 'e', '='] ++ k.side,
    ['s', 't', 'r', 'a', 't', '=']]

theorem canonical_payload :
    canonical fixed k.payload =
      (['a', 'c', 'c', 't', '='] ++ (k.account ++ (k.opening ++
        (k.instrument ++ (k.between ++ k.strategy))))) ++
        '|' :: (['t', '='] ++ intText k.decisionNs) := by
  have hsort : ((k.payload (F := F)).items.insertionSort fun p q => p.1 ≤ q.1) = [
      (['a', 'c', 'c', 't'], .text k.account),
      (['a', 't', 't'], .int k.attempt),
      (['i', 'n', 's', 't'], .text k.instrument),
      (['s', 'e', 'q'], .int k.seq),
      (['s', 'i', 'd', 'e'], .text k.side),
      (['s', 't', 'r', 'a', 't'], .text k.strategy),
      (['t'], .int k.decisionNs)] := rfl
  rw [canonical, hsort]
  simp [List.intercalate, List.intersperse, opening, between, KeyValue.format]

/-! ## Where the names of one intent run into the labels of another -/

/-- Instrument `i'` runs on from `i` through the labels of `k` into its strategy,
which ends in the labels and the strategy of `k'`. -/
def Slides (i : List Char) (k : OrderKey) (i' : List Char) (k' : OrderKey) : Prop :=
  ∃ u, i' = i ++ (k.between ++ u) ∧ k.strategy = u ++ (k'.between ++ k'.strategy)

/-- From instruments `i` and `i'` on, the same text. -/
def TailsMeet (i : List Char) (k : OrderKey) (i' : List Char) (k' : OrderKey) : Prop :=
  (i = i' ∧ k.seq = k'.seq ∧ k.side = k'.side ∧ k.strategy = k'.strategy) ∨
    Slides i k i' k' ∨ Slides i' k' i k

/-- The account of `k'` runs on from that of `k` through its labels, into its
instrument or into its strategy. -/
def AccountSlides (k k' : OrderKey) : Prop :=
  (∃ u v, k'.account = k.account ++ (k.opening ++ u) ∧ k.instrument = u ++ (k'.opening ++ v) ∧
    TailsMeet v k k'.instrument k') ∨
  ∃ u, k'.account = k.account ++ (k.opening ++ (k.instrument ++ (k.between ++ u))) ∧
    k.strategy = u ++ (k'.opening ++ (k'.instrument ++ (k'.between ++ k'.strategy)))

def RunsInto (k k' : OrderKey) : Prop :=
  k.decisionNs = k'.decisionNs ∧
    ((k.account = k'.account ∧ k.attempt = k'.attempt ∧
      (Slides k.instrument k k'.instrument k' ∨ Slides k'.instrument k' k.instrument k)) ∨
    AccountSlides k k' ∨ AccountSlides k' k)

end OrderKey

theorem bar_notMem_intText (n : ℤ) : '|' ∉ intText n := by
  have hdigits : '|' ∉ Nat.toDigits 10 n.natAbs := by
    intro hmem
    have hdigit := Nat.isDigit_of_mem_toDigits (by norm_num) (by norm_num) hmem
    exact absurd hdigit (by decide)
  rw [intText]
  split_ifs
  · intro hmem
    rcases List.mem_cons.mp hmem with heq | hmem
    · exact absurd heq (by decide)
    · exact hdigits hmem
  · exact hdigits

theorem intText_injective : Function.Injective intText := by
  have hnat : ∀ m n : ℕ, Nat.toDigits 10 m = Nat.toDigits 10 n → m = n := by
    intro m n h
    have hread := congrArg (fun ds => Nat.ofDigitChars 10 ds 0) h
    simpa only [Nat.ofDigitChars_toDigits (b := 10) (by norm_num) (by norm_num)] using hread
  have hminus : ∀ (m n : ℕ), '-' :: Nat.toDigits 10 m ≠ Nat.toDigits 10 n := by
    intro m n h
    have hdigit := Nat.isDigit_of_mem_toDigits (by norm_num) (by norm_num)
      (h ▸ List.mem_cons_self : '-' ∈ Nat.toDigits 10 n)
    exact absurd hdigit (by decide)
  intro m n h
  rw [intText, intText] at h
  split_ifs at h with hm hn hn
  · have habs := hnat _ _ (List.cons.inj h).2
    omega
  · exact absurd h (hminus _ _)
  · exact absurd h.symm (hminus _ _)
  · have habs := hnat _ _ h
    omega

namespace OrderKey

variable {k k' : OrderKey}

theorem bar_notMem_side (h : k.Sided) : '|' ∉ k.side := by
  rcases h with hbuy | hsell
  · rw [hbuy]
    decide
  · rw [hsell]
    decide

theorem number_cut {label rest rest' : List Char} {m n : ℤ}
    (h : (label ++ intText m) ++ '|' :: rest = (label ++ intText n) ++ '|' :: rest') :
    m = n ∧ rest = rest' := by
  rw [List.append_assoc, List.append_assoc, List.append_cancel_left_eq] at h
  obtain ⟨htext, hrest⟩ :=
    append_first_separator_inj (bar_notMem_intText m) (bar_notMem_intText n) h
  exact ⟨intText_injective htext, hrest⟩

theorem opening_append (rest : List Char) :
    k.opening ++ rest =
      '|' :: ((['a', 't', 't', '='] ++ intText k.attempt) ++
        '|' :: (['i', 'n', 's', 't', '='] ++ rest)) := by
  simp [opening]

theorem between_append (rest : List Char) :
    k.between ++ rest =
      '|' :: ((['s', 'e', 'q', '='] ++ intText k.seq) ++
        '|' :: ((['s', 'i', 'd', 'e', '='] ++ k.side) ++
          '|' :: (['s', 't', 'r', 'a', 't', '='] ++ rest))) := by
  simp [between]

theorem opening_parts : ∀ part ∈
    [['a', 't', 't', '='] ++ intText k.attempt, ['i', 'n', 's', 't', '=']], '|' ∉ part := by
  simp [bar_notMem_intText]

theorem between_parts (h : k.Sided) : ∀ part ∈
    [['s', 'e', 'q', '='] ++ intText k.seq, ['s', 'i', 'd', 'e', '='] ++ k.side,
      ['s', 't', 'r', 'a', 't', '=']], '|' ∉ part := by
  simp [bar_notMem_intText, bar_notMem_side h]

theorem opening_cut {rest w t : List Char}
    (h : k.opening ++ rest = w ++ (k'.opening ++ t)) :
    (w = [] ∧ k.attempt = k'.attempt ∧ rest = t) ∨
      ∃ u, w = k.opening ++ u ∧ rest = u ++ (k'.opening ++ t) := by
  rw [opening_append (k := k')] at h
  rcases barred_cut opening_parts h with ⟨before, part, after, hparts, rfl, ht⟩ | ⟨u, hw, hu⟩
  · rcases before with _ | ⟨first, _ | ⟨second, before⟩⟩
    · obtain ⟨rfl, rfl⟩ := List.cons.inj hparts
      obtain ⟨hattempt, hrest⟩ := number_cut ht
      exact Or.inl ⟨rfl, hattempt.symm, by simpa using hrest.symm⟩
    · simp at hparts
      obtain ⟨-, rfl, rfl⟩ := hparts
      simp at ht
    · simp at hparts
  · exact Or.inr ⟨u, hw, by rw [opening_append, hu]⟩

theorem between_cut (hk : k.Sided) (hk' : k'.Sided) {rest w t : List Char}
    (h : k.between ++ rest = w ++ (k'.between ++ t)) :
    (w = [] ∧ k.seq = k'.seq ∧ k.side = k'.side ∧ rest = t) ∨
      ∃ u, w = k.between ++ u ∧ rest = u ++ (k'.between ++ t) := by
  rw [between_append (k := k')] at h
  rcases barred_cut (between_parts hk) h with ⟨before, part, after, hparts, rfl, ht⟩ | ⟨u, hw, hu⟩
  · rcases before with _ | ⟨first, _ | ⟨second, _ | ⟨third, before⟩⟩⟩
    · obtain ⟨rfl, rfl⟩ := List.cons.inj hparts
      have hfields : _ = (['s', 'e', 'q', '='] ++ intText k.seq) ++
          '|' :: ((['s', 'i', 'd', 'e', '='] ++ k.side) ++
            '|' :: (['s', 't', 'r', 'a', 't', '='] ++ rest)) := ht.trans (by simp)
      obtain ⟨hseq, hrest⟩ := number_cut hfields
      rw [List.append_assoc, List.append_assoc, List.append_cancel_left_eq] at hrest
      obtain ⟨hside, hrest⟩ :=
        append_first_separator_inj (bar_notMem_side hk') (bar_notMem_side hk) hrest
      exact Or.inl ⟨rfl, hseq.symm, hside.symm, by simpa using hrest.symm⟩
    · simp at hparts
      obtain ⟨-, rfl, rfl⟩ := hparts
      simp at ht
    · simp at hparts
      obtain ⟨-, -, rfl, rfl⟩ := hparts
      simp at ht
    · simp at hparts
  · exact Or.inr ⟨u, hw, by rw [between_append, hu]⟩

theorem between_cut_opening (hk : k.Sided) {rest w t : List Char}
    (h : k.between ++ rest = w ++ (k'.opening ++ t)) :
    ∃ u, w = k.between ++ u ∧ rest = u ++ (k'.opening ++ t) := by
  rw [opening_append (k := k')] at h
  rcases barred_cut (between_parts hk) h with ⟨before, part, after, hparts, rfl, ht⟩ | ⟨u, hw, hu⟩
  · rcases before with _ | ⟨first, _ | ⟨second, _ | ⟨third, before⟩⟩⟩
    · obtain ⟨rfl, rfl⟩ := List.cons.inj hparts
      simp at ht
    · simp at hparts
      obtain ⟨-, rfl, rfl⟩ := hparts
      simp at ht
    · simp at hparts
      obtain ⟨-, -, rfl, rfl⟩ := hparts
      simp at ht
    · simp at hparts
  · exact ⟨u, hw, by rw [opening_append, hu]⟩

theorem opening_cut_between {rest w t : List Char}
    (h : k.opening ++ rest = w ++ (k'.between ++ t)) :
    ∃ u, w = k.opening ++ u ∧ rest = u ++ (k'.between ++ t) := by
  rw [between_append (k := k')] at h
  rcases barred_cut opening_parts h with ⟨before, part, after, hparts, rfl, ht⟩ | ⟨u, hw, hu⟩
  · rcases before with _ | ⟨first, _ | ⟨second, before⟩⟩
    · obtain ⟨rfl, rfl⟩ := List.cons.inj hparts
      simp at ht
    · simp at hparts
      obtain ⟨-, rfl, rfl⟩ := hparts
      simp at ht
    · simp at hparts
  · exact ⟨u, hw, by rw [between_append, hu]⟩

/-! ## When two texts are the same -/

theorem tailsMeet_iff (hk : k.Sided) (hk' : k'.Sided) (i i' : List Char) :
    i ++ (k.between ++ k.strategy) = i' ++ (k'.between ++ k'.strategy) ↔
      TailsMeet i k i' k' := by
  constructor
  · intro h
    rcases List.append_eq_append_iff.mp h with ⟨w, rfl, hw⟩ | ⟨w, rfl, hw⟩
    · rcases between_cut hk hk' hw with ⟨rfl, hsame⟩ | hslides
      · exact Or.inl ⟨(List.append_nil i).symm, hsame⟩
      · obtain ⟨u, rfl, hu⟩ := hslides
        exact Or.inr (Or.inl ⟨u, rfl, hu⟩)
    · rcases between_cut hk' hk hw with ⟨rfl, hseq, hside, hstrategy⟩ | hslides
      · exact Or.inl ⟨List.append_nil i', hseq.symm, hside.symm, hstrategy.symm⟩
      · obtain ⟨u, rfl, hu⟩ := hslides
        exact Or.inr (Or.inr ⟨u, rfl, hu⟩)
  · rintro (⟨rfl, hseq, hside, hstrategy⟩ | ⟨u, rfl, hu⟩ | ⟨u, rfl, hu⟩)
    · rw [between, between, hseq, hside, hstrategy]
    · rw [hu]
      simp only [List.append_assoc]
    · rw [hu]
      simp only [List.append_assoc]

theorem accountSlides_iff (hk : k.Sided) (hk' : k'.Sided) :
    (∃ u, k'.account = k.account ++ (k.opening ++ u) ∧
      k.instrument ++ (k.between ++ k.strategy) =
        u ++ (k'.opening ++ (k'.instrument ++ (k'.between ++ k'.strategy)))) ↔
      AccountSlides k k' := by
  constructor
  · rintro ⟨u, haccount, h⟩
    rcases List.append_eq_append_iff.mp h with ⟨w, rfl, hw⟩ | ⟨w, hi, hw⟩
    · -- past the instrument: in the strategy
      obtain ⟨u, rfl, hu⟩ := between_cut_opening hk hw
      exact Or.inr ⟨u, haccount, hu⟩
    · obtain ⟨v, rfl, hv⟩ := opening_cut_between hw
      exact Or.inl ⟨u, v, haccount, hi, (tailsMeet_iff hk hk' v k'.instrument).mp hv.symm⟩
  · rintro (⟨u, v, haccount, hi, htails⟩ | ⟨u, haccount, hu⟩)
    · refine ⟨u, haccount, ?_⟩
      rw [hi, ← (tailsMeet_iff hk hk' v k'.instrument).mpr htails]
      simp only [List.append_assoc]
    · refine ⟨k.instrument ++ (k.between ++ u), haccount, ?_⟩
      rw [hu]
      simp only [List.append_assoc]

theorem hashed_eq_iff_canonical :
    k.hashed = k'.hashed ↔
      k.account ++ (k.opening ++ (k.instrument ++ (k.between ++ k.strategy))) =
        k'.account ++ (k'.opening ++ (k'.instrument ++ (k'.between ++ k'.strategy))) ∧
      k.decisionNs = k'.decisionNs := by
  have hbars : ∀ n, '|' ∉ ['t', '='] ++ intText n := by
    simp [bar_notMem_intText]
  rw [hashed, hashed, Utf8.encode_injective.eq_iff, canonical_payload, canonical_payload]
  constructor
  · intro h
    obtain ⟨hnames, htime⟩ := append_separator_inj (hbars _) (hbars _) h
    exact ⟨List.append_cancel_left hnames, intText_injective (List.append_cancel_left htime)⟩
  · rintro ⟨hnames, htime⟩
    rw [hnames, htime]

theorem hashed_eq_iff (hk : k.Sided) (hk' : k'.Sided) :
    k.hashed = k'.hashed ↔ k = k' ∨ RunsInto k k' := by
  rw [hashed_eq_iff_canonical]
  constructor
  · rintro ⟨h, htime⟩
    rcases List.append_eq_append_iff.mp h with ⟨w, haccount, hw⟩ | ⟨w, haccount, hw⟩
    · rcases opening_cut hw with ⟨rfl, hattempt, htail⟩ | ⟨u, rfl, hu⟩
      · rw [List.append_nil] at haccount
        rcases (tailsMeet_iff hk hk' _ _).mp htail with
          ⟨hinstrument, hseq, hside, hstrategy⟩ | hslides
        · left
          obtain ⟨⟩ := k
          obtain ⟨⟩ := k'
          simp_all
        · exact Or.inr ⟨htime, Or.inl ⟨haccount.symm, hattempt, hslides⟩⟩
      · exact Or.inr ⟨htime, Or.inr (Or.inl ((accountSlides_iff hk hk').mp ⟨u, haccount, hu⟩))⟩
    · rcases opening_cut hw with ⟨rfl, hattempt, htail⟩ | ⟨u, rfl, hu⟩
      · rw [List.append_nil] at haccount
        rcases (tailsMeet_iff hk' hk _ _).mp htail with
          ⟨hinstrument, hseq, hside, hstrategy⟩ | hslides
        · left
          obtain ⟨⟩ := k
          obtain ⟨⟩ := k'
          simp_all
        · exact Or.inr ⟨htime, Or.inl ⟨haccount, hattempt.symm, hslides.symm⟩⟩
      · exact Or.inr ⟨htime, Or.inr (Or.inr ((accountSlides_iff hk' hk).mp ⟨u, haccount, hu⟩))⟩
  · rintro (rfl | ⟨htime, hruns⟩)
    · exact ⟨rfl, rfl⟩
    · refine ⟨?_, htime⟩
      rcases hruns with ⟨haccount, hattempt, hslides⟩ | hslides | hslides
      · rw [haccount, opening, opening, hattempt,
          (tailsMeet_iff hk hk' _ _).mpr (Or.inr hslides)]
      · obtain ⟨u, haccount, hu⟩ := (accountSlides_iff hk hk').mpr hslides
        rw [haccount, hu]
        simp only [List.append_assoc]
      · obtain ⟨u, haccount, hu⟩ := (accountSlides_iff hk' hk).mpr hslides
        rw [haccount, hu]
        simp only [List.append_assoc]

theorem opening_ne_nil : k.opening ≠ [] := by
  simp [opening]

theorem between_ne_nil : k.between ≠ [] := by
  simp [between]

theorem not_runsInto_self (k : OrderKey) : ¬RunsInto k k := by
  have haccount : ∀ u, k.account ≠ k.account ++ (k.opening ++ u) := by
    intro u h
    exact opening_ne_nil (List.append_eq_nil_iff.mp (List.self_eq_append_right.mp h)).1
  have hinstrument : ¬Slides k.instrument k k.instrument k := by
    rintro ⟨u, h, -⟩
    exact between_ne_nil (List.append_eq_nil_iff.mp (List.self_eq_append_right.mp h)).1
  have hslides : ¬AccountSlides k k := by
    rintro (⟨u, v, h, -⟩ | ⟨u, h, -⟩)
    · exact haccount _ h
    · exact haccount _ h
  rintro ⟨-, ⟨-, -, hslide | hslide⟩ | hslide | hslide⟩
  · exact hinstrument hslide
  · exact hinstrument hslide
  · exact hslides hslide
  · exact hslides hslide

end OrderKey

/-! ## Identifiers -/

theorem clientOrderId_eq {digest : List UInt8 → List Char} {k : OrderKey} (hk : k.Sided)
    (hhex : IsHexDigest (digest k.hashed)) :
    clientOrderId digest k = .ok ('S' :: 'F' :: 'X' :: digest k.hashed) := by
  have hsafe : ['0', '1', '2', '3', '4', '5', '6', '7', '8', '9', 'a', 'b', 'c', 'd', 'e',
      'f'].all safeChar = true := by
    decide
  have hkept : ('S' :: 'F' :: 'X' :: digest k.hashed).filter safeChar =
      'S' :: 'F' :: 'X' :: digest k.hashed := by
    rw [List.filter_eq_self]
    intro c hc
    simp only [List.mem_cons] at hc
    rcases hc with rfl | rfl | rfl | hc
    · decide
    · decide
    · decide
    · exact List.all_eq_true.mp hsafe c (hhex.2 c hc)
  have hshort : ('S' :: 'F' :: 'X' :: digest k.hashed).length ≤ maxClientId := by
    simp [hhex.1, maxClientId]
  rw [clientOrderId, if_pos hk, hkept, List.take_of_length_le hshort]

theorem sided_of_clientOrderId {digest : List UInt8 → List Char} {k : OrderKey} {id : List Char}
    (h : clientOrderId digest k = .ok id) : k.Sided := by
  by_contra hk
  rw [clientOrderId, if_neg hk] at h
  cases h

structure WrittenDecimal where
  digits : ℤ
  exponent : ℤ

def WrittenDecimal.value (d : WrittenDecimal) : ℚ := d.digits * 10 ^ d.exponent

/-- What a strategy asks for: the intent, and the prices that go with it. -/
structure WrittenSignal where
  key : OrderKey
  entryHint : Option WrittenDecimal
  stopPrice : Option WrittenDecimal
  targetPrice : Option WrittenDecimal

namespace WrittenSignal

def clientOrderId (digest : List UInt8 → List Char) (s : WrittenSignal) :
    Except IdError (List Char) :=
  Sentinel.clientOrderId digest s.key

def SameIntent (s s' : WrittenSignal) : Prop :=
  s.key = s'.key ∧ s.entryHint.map WrittenDecimal.value = s'.entryHint.map WrittenDecimal.value ∧
    s.stopPrice.map WrittenDecimal.value = s'.stopPrice.map WrittenDecimal.value ∧
    s.targetPrice.map WrittenDecimal.value = s'.targetPrice.map WrittenDecimal.value

/-- An identifier belongs to one intent, and the intent has one identifier. -/
def IdBinds (digest : List UInt8 → List Char) (s s' : WrittenSignal) : Prop :=
  (∀ id, s.clientOrderId digest = .ok id → s'.clientOrderId digest = .ok id → s.key = s'.key) ∧
    (s.SameIntent s' → s.clientOrderId digest = s'.clientOrderId digest)

end WrittenSignal

/-- Two intents are kept apart unless the names of one run into the labels of the
other. -/
theorem idBinds_iff (digest : List UInt8 → List Char) (s s' : WrittenSignal)
    (hhex : ∀ bytes, IsHexDigest (digest bytes))
    (hsound : digest s.key.hashed = digest s'.key.hashed → s.key.hashed = s'.key.hashed) :
    WrittenSignal.IdBinds digest s s' ↔
      ¬(s.key.Sided ∧ s'.key.Sided ∧ s.key.RunsInto s'.key) := by
  constructor
  · rintro ⟨hbinds, -⟩ ⟨hs, hs', hruns⟩
    have hhashed := (OrderKey.hashed_eq_iff hs hs').mpr (Or.inr hruns)
    have hid := clientOrderId_eq hs (hhex s.key.hashed)
    have hid' := clientOrderId_eq hs' (hhex s'.key.hashed)
    rw [← hhashed] at hid'
    have hkey := hbinds _ hid hid'
    rw [← hkey] at hruns
    exact OrderKey.not_runsInto_self s.key hruns
  · intro hruns
    refine ⟨?_, fun hsame => ?_⟩
    · intro id hid hid'
      have hs := sided_of_clientOrderId hid
      have hs' := sided_of_clientOrderId hid'
      rw [WrittenSignal.clientOrderId, clientOrderId_eq hs (hhex _), Except.ok.injEq] at hid
      rw [WrittenSignal.clientOrderId, clientOrderId_eq hs' (hhex _), Except.ok.injEq,
        ← hid] at hid'
      have hdigest : digest s'.key.hashed = digest s.key.hashed := by
        simpa only [List.cons.injEq, true_and] using hid'
      rcases (OrderKey.hashed_eq_iff hs hs').mp (hsound hdigest.symm) with hkey | hinto
      · exact hkey
      · exact absurd ⟨hs, hs', hinto⟩ hruns
    · rw [WrittenSignal.clientOrderId, WrittenSignal.clientOrderId, hsame.1]

def donchian (side : List Char) : WrittenSignal where
  key := ⟨"don".toList, "EUR_USD".toList, side, 1, 0, [], 0⟩
  entryHint := none
  stopPrice := some ⟨109, -2⟩
  targetPrice := none

def sidesDigest (bytes : List UInt8) : List Char :=
  if bytes = (donchian buyText).key.hashed then "5163fc1bc637962cc6a61f9d".toList
  else if bytes = (donchian sellText).key.hashed then "37601b403d6bc8d20f688e70".toList
  else List.replicate 24 '0'

theorem idBinds_iff_twoSides :
    WrittenSignal.IdBinds sidesDigest (donchian buyText) (donchian sellText) ↔
      ¬((donchian buyText).key.Sided ∧ (donchian sellText).key.Sided ∧
        (donchian buyText).key.RunsInto (donchian sellText).key) := by
  refine idBinds_iff sidesDigest (donchian buyText) (donchian sellText) ?_ ?_
  · intro bytes
    rw [sidesDigest]
    split_ifs
    · decide
    · decide
    · decide
  · decide +kernel

/-- A strategy with bars in its name, and an instrument with bars in its name. -/
theorem barredNames_share :
    let strategy : OrderKey :=
      ⟨"don|seq=0|side=BUY|strat=b".toList, "EUR_USD".toList, buyText, 1, 0, [], 0⟩
    let instrument : OrderKey :=
      ⟨"b".toList, "EUR_USD|seq=0|side=BUY|strat=don".toList, buyText, 1, 0, [], 0⟩
    strategy ≠ instrument ∧
      ∀ digest, clientOrderId digest strategy = clientOrderId digest instrument := by
  intro strategy instrument
  have hhashed : strategy.hashed = instrument.hashed := by
    decide +kernel
  refine ⟨by decide, fun digest => ?_⟩
  rw [clientOrderId, clientOrderId, hhashed, if_pos (by decide), if_pos (by decide)]

end Sentinel
