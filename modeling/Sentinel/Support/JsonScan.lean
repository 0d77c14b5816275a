import Sentinel.Support.JsonRoundTrip

/-!
# A value is decided by its own text

`scanOnce_append`: reading a value does not look past the code point that ends
it, and its length is fuel enough.  So no proper prefix of a rendered object
loads, and `loads` misses nothing for want of fuel.
-/

namespace Sentinel
namespace Json

variable {F : Type} (ops : FloatOps F)

/-! ## Pieces -/

theorem length_skipSpace_le (cs : Text) : (skipSpace cs).length ≤ cs.length :=
  (List.dropWhile_sublist isSpace).length_le

variable {cs rest : Text}

theorem skipSpace_append (h : skipSpace cs ≠ []) (t : Text) :
    skipSpace (cs ++ t) = skipSpace cs ++ t := by
  induction cs with
  | nil => exact absurd rfl h
  | cons q cs ih =>
      unfold skipSpace at h ih ⊢
      rw [List.cons_append, List.dropWhile_cons] at *
      by_cases hq : isSpace q
      · rw [if_pos hq] at h ⊢
        rw [List.dropWhile_cons, if_pos hq]
        exact ih h
      · rw [if_neg hq, List.dropWhile_cons, if_neg hq]
        rfl

theorem skipSpace_append_cons {p : Point} (h : skipSpace cs = p :: rest)
    (t : Text) : skipSpace (cs ++ t) = p :: (rest ++ t) := by
  rw [skipSpace_append (by simp [h]), h]
  rfl

theorem two_le_of_scanString {source s rest : Text} {p : Point}
    (h : scanString source = some (p :: s, rest)) : ∃ q r cs, source = q :: r :: cs := by
  match source, h with
  | q :: r :: cs, _ => exact ⟨q, r, cs, rfl⟩
  | [.surrogate n], h => cases h
  | [.scalar c], h =>
      exfalso
      by_cases hquote : c = '"'
      · subst hquote
        cases h
      · rw [scanString.eq_6 c [] hquote (by simp) (by simp)] at h
        split_ifs at h
        cases h
  | [], h => cases h

theorem consEscaped_append (code : ℕ) {source s rest : Text}
    (h : scanString source = some (s, rest)) (t : Text) :
    consEscaped code (source ++ t) s = consEscaped code source s := by
  cases s with
  | nil => rfl
  | cons p s =>
      obtain ⟨q, r, cs, rfl⟩ := two_le_of_scanString h
      rfl

theorem scanString_append {cs s rest : Text} (h : scanString cs = some (s, rest)) (t : Text) :
    scanString (cs ++ t) = some (s, rest ++ t) ∧ rest.length < cs.length := by
  induction cs using scanString.induct generalizing s rest with
  | case1 => cases h
  | case2 n cs ih =>
      rw [scanString] at h
      obtain ⟨⟨s', rest'⟩, hscan, heq⟩ := Option.map_eq_some_iff.1 h
      cases heq
      obtain ⟨hext, hlength⟩ := ih hscan
      refine ⟨?_, by simp only [List.length_cons]; omega⟩
      rw [List.cons_append, scanString, hext]
      rfl
  | case3 cs =>
      cases h
      exact ⟨rfl, by simp⟩
  | case4 a b c d cs ih =>
      rw [scanString] at h
      obtain ⟨code, hcode, h⟩ := Option.bind_eq_some_iff.1 h
      obtain ⟨⟨s', rest'⟩, hscan, heq⟩ := Option.map_eq_some_iff.1 h
      cases heq
      obtain ⟨hext, hlength⟩ := ih hscan
      refine ⟨?_, by simp only [List.length_cons]; omega⟩
      simp only [List.cons_append]
      rw [scanString, hcode, hext]
      simp only [Option.bind_some, Option.map_some, consEscaped_append code hscan t]
  | case5 c cs hnot ih =>
      rw [scanString.eq_5 c cs hnot] at h
      obtain ⟨c', hc, h⟩ := Option.bind_eq_some_iff.1 h
      obtain ⟨⟨s', rest'⟩, hscan, heq⟩ := Option.map_eq_some_iff.1 h
      cases heq
      obtain ⟨hext, hlength⟩ := ih hscan
      refine ⟨?_, by simp only [List.length_cons]; omega⟩
      have hu : c ≠ 'u' := by
        rintro rfl
        cases hc
      simp only [List.cons_append]
      rw [scanString.eq_5 c (cs ++ t) fun _ _ _ _ _ _ h => hu h, hc, hext]
      rfl
  | case6 c cs hquote hescape hletter hbad =>
      rw [scanString.eq_6 c cs hquote hescape hletter, if_pos hbad] at h
      cases h
  | case7 c cs hquote hescape hletter hgood ih =>
      rw [scanString.eq_6 c cs hquote hescape hletter, if_neg hgood] at h
      obtain ⟨⟨s', rest'⟩, hscan, heq⟩ := Option.map_eq_some_iff.1 h
      cases heq
      obtain ⟨hext, hlength⟩ := ih hscan
      refine ⟨?_, by simp only [List.length_cons]; omega⟩
      have hbackslash : c ≠ '\\' := fun h => hgood (Or.inl h)
      rw [List.cons_append, scanString.eq_6 c (cs ++ t) hquote
        (fun _ _ _ _ _ _ h => hbackslash h) (fun _ _ _ h => hbackslash h), if_neg hgood, hext]
      rfl

/-! ## Numbers -/

def Stops (rest : Text) : Prop := rest ≠ [] ∧ EndsNumber rest

theorem spanDigits_append {ds : List (Fin 10)}
    (h : spanDigits cs = (ds, rest)) (hrest : rest ≠ []) (t : Text) :
    spanDigits (cs ++ t) = (ds, rest ++ t) := by
  induction cs generalizing ds with
  | nil =>
      cases h
      exact absurd rfl hrest
  | cons p cs ih =>
      simp only [List.cons_append, spanDigits] at h ⊢
      cases hp : digit? p with
      | none =>
          rw [hp] at h
          cases h
          rfl
      | some d =>
          rw [hp] at h
          cases h
          rw [ih rfl]

theorem length_spanDigits_le (cs : Text) : (spanDigits cs).2.length ≤ cs.length := by
  induction cs with
  | nil => exact le_rfl
  | cons p cs ih =>
      unfold spanDigits
      cases digit? p with
      | none => exact le_rfl
      | some d => exact ih.trans (by simp)

theorem scanWhole_append {n : ℕ} (h : scanWhole cs = some (n, rest))
    (hrest : rest ≠ []) (t : Text) :
    scanWhole (cs ++ t) = some (n, rest ++ t) ∧ rest.length < cs.length := by
  cases cs with
  | nil => cases h
  | cons p cs =>
      have hlength := length_spanDigits_le cs
      unfold scanWhole at h ⊢
      simp only [List.cons_append, spanDigits] at h ⊢
      cases hp : digit? p with
      | none =>
          rw [hp] at h
          cases h
      | some d =>
          rw [hp] at h
          simp only [List.tail_cons] at h ⊢
          split_ifs at h ⊢ with hd
          · cases h
            exact ⟨rfl, by simp⟩
          · obtain ⟨rfl, rfl⟩ : ofDecimal (d :: (spanDigits cs).1) = n ∧
                (spanDigits cs).2 = rest := by simpa using h
            rw [spanDigits_append rfl hrest t]
            exact ⟨rfl, by simp only [List.length_cons]; omega⟩

theorem scanFraction_append {ds : List (Fin 10)}
    (h : scanFraction cs = (ds, rest)) (hrest : rest ≠ [])
    (hpoint : ∀ p ∈ rest.head?, p ≠ .scalar '.') (t : Text) :
    scanFraction (cs ++ t) = (ds, rest ++ t) ∧ rest.length ≤ cs.length := by
  unfold scanFraction at h
  split at h
  · next cs =>
      cases hspan : spanDigits cs with
      | mk digits after =>
          have hlength := length_spanDigits_le cs
          rw [hspan] at h hlength
          cases digits with
          | nil =>
              cases h
              exact absurd rfl (hpoint _ (by simp))
          | cons d digits =>
              cases h
              refine ⟨?_, by simp only [List.length_cons]; exact hlength.trans (by simp)⟩
              simp only [List.cons_append, scanFraction]
              rw [spanDigits_append hspan hrest t]
  · next hnot =>
      cases h
      refine ⟨?_, le_rfl⟩
      cases cs with
      | nil => exact absurd rfl hrest
      | cons p cs =>
          apply scanFraction_of_ne
          intro q hq
          have hqp : q = p := by simpa using hq.symm
          rw [hqp]
          rintro rfl
          exact hnot cs rfl

theorem scanSign_append (h : cs ≠ []) (t : Text) :
    scanSign (cs ++ t) = ((scanSign cs).1, (scanSign cs).2 ++ t) := by
  cases cs with
  | nil => exact absurd rfl h
  | cons p cs =>
      rw [List.cons_append]
      by_cases hminus : p = .scalar '-'
      · subst hminus
        rfl
      · by_cases hplus : p = .scalar '+'
        · subst hplus
          rfl
        · rw [scanSign.eq_3 _ (fun _ h => hminus (by cases h; rfl))
              (fun _ h => hplus (by cases h; rfl)),
            scanSign.eq_3 _ (fun _ h => hminus (by cases h; rfl))
              (fun _ h => hplus (by cases h; rfl))]
          rfl

theorem length_scanSign_le (cs : Text) : (scanSign cs).2.length ≤ cs.length := by
  unfold scanSign
  split <;> simp

theorem scanExponent_append {e : Option Exponent}
    (h : scanExponent cs = (e, rest)) (hrest : Stops rest) (t : Text) :
    scanExponent (cs ++ t) = (e, rest ++ t) ∧ rest.length ≤ cs.length ∧
      (∀ p ∈ cs.head?, p ≠ .scalar '.') := by
  obtain ⟨hne, hends⟩ := hrest
  unfold scanExponent at h
  split at h
  · next c cs =>
      split_ifs at h with hc
      · have hpoint : c ≠ '.' := by
          rintro rfl
          revert hc
          decide
        cases hspan : spanDigits (scanSign cs).2 with
        | mk digits after =>
            have hlength := (length_spanDigits_le (scanSign cs).2).trans (length_scanSign_le cs)
            rw [hspan] at h hlength
            cases digits with
            | nil =>
                cases h
                obtain ⟨-, -, hlower, hupper⟩ := hends (.scalar c) (by simp)
                rcases hc with rfl | rfl
                · exact absurd rfl hlower
                · exact absurd rfl hupper
            | cons d digits =>
                cases h
                have hcs : cs ≠ [] := by
                  rintro rfl
                  cases hspan
                refine ⟨?_, by simp only [List.length_cons]; exact hlength.trans (by simp), ?_⟩
                · simp only [List.cons_append, scanExponent]
                  rw [if_pos hc, scanSign_append hcs]
                  simp only [spanDigits_append hspan hne t]
                · intro p hp
                  have hpc : p = .scalar c := by simpa using hp.symm
                  rw [hpc]
                  simpa using hpoint
      · cases h
        refine ⟨?_, le_rfl, fun p hp => (hends p hp).2.1⟩
        simp only [List.cons_append, scanExponent]
        rw [if_neg hc]
  · next hnot =>
      cases h
      refine ⟨?_, le_rfl, fun p hp => (hends p hp).2.1⟩
      cases cs with
      | nil => exact absurd rfl hne
      | cons p cs =>
          cases p with
          | scalar c => exact absurd rfl (hnot c cs)
          | surrogate n => rfl

theorem scanFraction_rest (h : scanFraction cs = ([], rest)) : rest = cs := by
  unfold scanFraction at h
  split at h
  · split at h
    · cases h
      rfl
    · next hnot _ =>
        cases h
        exact absurd rfl hnot
  · cases h
    rfl

theorem scanExponent_rest (h : scanExponent cs = (none, rest)) : rest = cs := by
  unfold scanExponent at h
  split at h
  · split_ifs at h
    · split at h
      · cases h
        rfl
      · cases h
    · cases h
      rfl
  · cases h
    rfl

variable {j : Json F}

theorem scanUnsigned_append {negative : Bool}
    (h : scanUnsigned ops negative cs = some (j, rest)) (hrest : Stops rest) (t : Text) :
    scanUnsigned ops negative (cs ++ t) = some (j, rest ++ t) ∧ rest.length < cs.length := by
  unfold scanUnsigned at h
  obtain ⟨⟨whole, afterWhole⟩, hwhole, h⟩ := Option.map_eq_some_iff.1 h
  cases hfraction : scanFraction afterWhole with
  | mk fraction afterFraction =>
  cases hexponent : scanExponent afterFraction with
  | mk exponent afterExponent =>
  simp only [hfraction, hexponent] at h
  -- whether or not the number is a float, what follows the exponent is the rest
  have hafter : afterExponent = rest := by
    by_cases hfloat : fraction ≠ [] ∨ exponent.isSome
    · rw [dif_pos hfloat] at h
      exact congrArg Prod.snd h
    · rw [dif_neg hfloat] at h
      simp only [not_or, not_not, Option.not_isSome_iff_eq_none] at hfloat
      obtain ⟨rfl, rfl⟩ := hfloat
      rw [scanExponent_rest hexponent, scanFraction_rest hfraction]
      exact congrArg Prod.snd h
  subst hafter
  obtain ⟨hexponent', hexponentLength, hpoint⟩ := scanExponent_append hexponent hrest t
  have hafterFraction : afterFraction ≠ [] := by
    rintro rfl
    have hnil := List.length_eq_zero_iff.1 (Nat.le_zero.1 hexponentLength)
    exact hrest.1 hnil
  obtain ⟨hfraction', hfractionLength⟩ :=
    scanFraction_append hfraction hafterFraction hpoint t
  have hafterWhole : afterWhole ≠ [] := by
    rintro rfl
    have hnil := List.length_eq_zero_iff.1 (Nat.le_zero.1 hfractionLength)
    exact hafterFraction hnil
  obtain ⟨hwhole', hwholeLength⟩ := scanWhole_append hwhole hafterWhole t
  refine ⟨?_, by omega⟩
  unfold scanUnsigned
  rw [hwhole']
  simp only [Option.map_some, hfraction', hexponent', Option.some.injEq]
  by_cases hfloat : fraction ≠ [] ∨ exponent.isSome
  · rw [dif_pos hfloat] at h ⊢
    cases h
    rfl
  · rw [dif_neg hfloat] at h ⊢
    cases h
    rfl

theorem scanNumber_append (h : scanNumber ops cs = some (j, rest))
    (hrest : Stops rest) (t : Text) :
    scanNumber ops (cs ++ t) = some (j, rest ++ t) ∧ rest.length < cs.length := by
  unfold scanNumber at h
  split at h
  · obtain ⟨hext, hlength⟩ := scanUnsigned_append ops h hrest t
    exact ⟨hext, by simp only [List.length_cons]; omega⟩
  · next hnot =>
      obtain ⟨hext, hlength⟩ := scanUnsigned_append ops h hrest t
      refine ⟨?_, hlength⟩
      cases cs with
      | nil => cases hlength
      | cons p cs =>
          rw [List.cons_append, scanNumber.eq_2]
          · exact hext
          · intro rest' heq
            cases heq
            exact hnot cs rfl

/-! ## Words -/

theorem eq_of_digit? {p : Point} {d : Fin 10} (h : digit? p = some d) :
    p = .scalar (digitChar d) := by
  cases p with
  | surrogate n => cases h
  | scalar c =>
      simp only [digit?] at h
      split_ifs at h with hc
      cases h
      have hcode : 48 + (c.toNat - 48) = c.toNat := by omega
      simp [digitChar, hcode, Char.ofNat_toNat]

theorem startsNumber_of_scanUnsigned {negative : Bool}
    (h : scanUnsigned ops negative cs = some (j, rest)) :
    ∃ d cs', cs = .scalar (digitChar d) :: cs' := by
  unfold scanUnsigned at h
  obtain ⟨_, hwhole, -⟩ := Option.map_eq_some_iff.1 h
  cases cs with
  | nil => cases hwhole
  | cons p cs =>
      cases hp : digit? p with
      | none =>
          unfold scanWhole at hwhole
          simp only [spanDigits, hp] at hwhole
          cases hwhole
      | some d => exact ⟨d, cs, by rw [eq_of_digit? hp]⟩

theorem startsNumber_of_scanNumber (h : scanNumber ops cs = some (j, rest)) :
    ∃ negative d cs', cs = sign negative ++ .scalar (digitChar d) :: cs' := by
  unfold scanNumber at h
  split at h
  · obtain ⟨d, cs', rfl⟩ := startsNumber_of_scanUnsigned ops h
    exact ⟨true, d, cs', rfl⟩
  · obtain ⟨d, cs', rfl⟩ := startsNumber_of_scanUnsigned ops h
    exact ⟨false, d, cs', rfl⟩

theorem scanPlain_append (h : scanPlain ops cs = some (j, rest))
    (hrest : Stops rest) (t : Text) :
    scanPlain ops (cs ++ t) = some (j, rest ++ t) ∧ rest.length < cs.length := by
  unfold scanPlain at h
  split at h
  · next word value hfind =>
      cases h
      have hinitial : word <+: cs := by
        have hfound := List.find?_some hfind
        exact List.isPrefixOf_iff_prefix.1 hfound
      obtain ⟨rest, rfl⟩ := hinitial
      have hmem := List.mem_of_find?_eq_some hfind
      simp only [words, List.mem_cons, Prod.mk.injEq, List.not_mem_nil, or_false] at hmem
      -- the six words
      rcases hmem with ⟨rfl, rfl⟩ | ⟨rfl, rfl⟩ | ⟨rfl, rfl⟩ | ⟨rfl, rfl⟩ | ⟨rfl, rfl⟩ |
          ⟨rfl, rfl⟩ <;>
        refine ⟨rfl, ?_⟩ <;>
        rw [List.drop_left, List.length_append] <;>
        simp [Text.ofChars]
  · obtain ⟨negative, d, cs', rfl⟩ := startsNumber_of_scanNumber ops h
    obtain ⟨hext, hlength⟩ := scanNumber_append ops h hrest t
    refine ⟨?_, hlength⟩
    rw [List.append_assoc, List.cons_append] at hext ⊢
    rw [scanPlain_digit, hext]

/-! ## Values -/

def Opens (cs : Text) : Prop :=
  ∃ c cs', cs = .scalar c :: cs' ∧ (c = '"' ∨ c = '{' ∨ c = '[')

theorem endsNumber_of_isSpace {p : Point} (h : isSpace p = true) (rest : Text) :
    EndsNumber (p :: rest) := by
  simp only [isSpace, Bool.or_eq_true, decide_eq_true_eq] at h
  rcases h with ((rfl | rfl) | rfl) | rfl <;>
    exact endsNumber_cons rest rfl (by decide) (by decide) (by decide)

theorem stops_of_skipSpace {rest cs : Text} {c : Char} (h : skipSpace rest = .scalar c :: cs)
    (hc : c = ']' ∨ c = '}' ∨ c = ',') : Stops rest ∧ cs.length < rest.length := by
  have hlength := length_skipSpace_le rest
  rw [h, List.length_cons] at hlength
  refine ⟨?_, by omega⟩
  cases rest with
  | nil => cases h
  | cons p rest =>
      refine ⟨by simp, ?_⟩
      by_cases hp : isSpace p
      · exact endsNumber_of_isSpace hp rest
      · unfold skipSpace at h
        rw [List.dropWhile_cons, if_neg hp] at h
        cases h
        rcases hc with rfl | rfl | rfl <;>
          exact endsNumber_cons _ rfl (by decide) (by decide) (by decide)

structure Reads (fuel : ℕ) : Prop where
  value : ∀ {cs rest : Text} {j : Json F}, scanOnce ops fuel cs = some (j, rest) →
    Opens cs ∨ Stops rest →
    rest.length < cs.length ∧ ∀ t m, cs.length < m + rest.length →
      scanOnce ops m (cs ++ t) = some (j, rest ++ t)
  elements : ∀ {cs rest : Text} {es : List (Json F)},
    scanElements ops fuel cs = some (es, rest) →
    rest.length < cs.length ∧ ∀ t m, cs.length < m + rest.length →
      scanElements ops m (cs ++ t) = some (es, rest ++ t)
  members : ∀ {cs rest : Text} {ms : List (Text × Json F)},
    scanMembers ops fuel cs = some (ms, rest) →
    rest.length < cs.length ∧ ∀ t m, cs.length < m + rest.length →
      scanMembers ops m (cs ++ t) = some (ms, rest ++ t)

theorem ne_nil_of_length_lt (h : rest.length < cs.length) : cs ≠ [] := by
  rintro rfl
  cases h

theorem Reads.elements_succ {fuel : ℕ} (h : Reads ops fuel) {cs rest : Text}
    {es : List (Json F)} (hscan : scanElements ops (fuel + 1) cs = some (es, rest)) :
    rest.length < cs.length ∧ ∀ t m, cs.length < m + rest.length →
      scanElements ops m (cs ++ t) = some (es, rest ++ t) := by
  rw [scanElements] at hscan
  obtain ⟨⟨e, after⟩, hvalue, hscan⟩ := Option.bind_eq_some_iff.1 hscan
  simp only at hscan
  split at hscan
  · next rest' hskip =>
      cases hscan
      obtain ⟨hstops, hlength⟩ := stops_of_skipSpace hskip (Or.inl rfl)
      obtain ⟨hshorter, hext⟩ := h.value hvalue (Or.inr hstops)
      refine ⟨by omega, ?_⟩
      intro t m hm
      obtain ⟨m, rfl⟩ : ∃ k, m = k + 1 := ⟨m - 1, by omega⟩
      rw [scanElements, hext t m (by omega)]
      simp only [Option.bind_some, skipSpace_append_cons hskip t]
  · next rest' hskip =>
      obtain ⟨⟨es', rest''⟩, helements, heq⟩ := Option.map_eq_some_iff.1 hscan
      obtain ⟨rfl, rfl⟩ : e :: es' = es ∧ rest'' = rest := by simpa using heq
      obtain ⟨hstops, hlength⟩ := stops_of_skipSpace hskip (Or.inr (Or.inr rfl))
      obtain ⟨hshorter, hext⟩ := h.value hvalue (Or.inr hstops)
      obtain ⟨hshorter', hext'⟩ := h.elements helements
      have hskipped := length_skipSpace_le rest'
      refine ⟨by omega, ?_⟩
      intro t m hm
      obtain ⟨m, rfl⟩ : ∃ k, m = k + 1 := ⟨m - 1, by omega⟩
      rw [scanElements, hext t m (by omega)]
      simp only [Option.bind_some, skipSpace_append_cons hskip t]
      rw [skipSpace_append (ne_nil_of_length_lt hshorter'), hext' t m (by omega)]
      rfl
  · cases hscan

theorem scanMembers_again {cs afterKey afterColon after k : Text} {v : Json F} {t : Text} {m : ℕ}
    (hkey : scanString cs = some (k, afterKey))
    (hcolon : skipSpace afterKey = .scalar ':' :: afterColon)
    (hext : ∀ t, scanOnce ops m (skipSpace afterColon ++ t) = some (v, after ++ t))
    (hne : skipSpace afterColon ≠ []) :
    scanMembers ops (m + 1) (.scalar '"' :: cs ++ t) =
      match skipSpace (after ++ t) with
      | .scalar '}' :: rest => some ([(k, v)], rest)
      | .scalar ',' :: rest =>
          (scanMembers ops m (skipSpace rest)).map fun (ms, rest) => ((k, v) :: ms, rest)
      | _ => none := by
  rw [List.cons_append, scanMembers]
  simp only [(scanString_append hkey t).1, Option.bind_some, skipSpace_append_cons hcolon t]
  rw [skipSpace_append hne, hext t]
  rfl

theorem Reads.members_succ {fuel : ℕ} (h : Reads ops fuel) {cs rest : Text}
    {ms : List (Text × Json F)} (hscan : scanMembers ops (fuel + 1) cs = some (ms, rest)) :
    rest.length < cs.length ∧ ∀ t m, cs.length < m + rest.length →
      scanMembers ops m (cs ++ t) = some (ms, rest ++ t) := by
  unfold scanMembers at hscan
  split at hscan
  case h_2 => cases hscan
  case h_1 cs =>
  obtain ⟨⟨k, afterKey⟩, hkey, hscan⟩ := Option.bind_eq_some_iff.1 hscan
  simp only at hscan
  split at hscan
  case h_2 => cases hscan
  case h_1 afterColon hcolon =>
  obtain ⟨⟨v, after⟩, hvalue, hscan⟩ := Option.bind_eq_some_iff.1 hscan
  simp only at hscan
  have hkeyLength := (scanString_append hkey []).2
  have hcolonLength := length_skipSpace_le afterKey
  rw [hcolon, List.length_cons] at hcolonLength
  have hvalueLength := length_skipSpace_le afterColon
  split at hscan
  · next rest' hskip =>
      cases hscan
      obtain ⟨hstops, hlength⟩ := stops_of_skipSpace hskip (Or.inr (Or.inl rfl))
      obtain ⟨hshorter, hext⟩ := h.value hvalue (Or.inr hstops)
      refine ⟨by simp only [List.length_cons]; omega, ?_⟩
      intro t m hm
      simp only [List.length_cons] at hm
      obtain ⟨m, rfl⟩ : ∃ k, m = k + 1 := ⟨m - 1, by omega⟩
      rw [scanMembers_again ops hkey hcolon (fun t => hext t m (by omega))
        (ne_nil_of_length_lt hshorter), skipSpace_append_cons hskip t]
      rfl
  · next rest' hskip =>
      obtain ⟨⟨ms', rest''⟩, hmembers, heq⟩ := Option.map_eq_some_iff.1 hscan
      obtain ⟨rfl, rfl⟩ : (k, v) :: ms' = ms ∧ rest'' = rest := by simpa using heq
      obtain ⟨hstops, hlength⟩ := stops_of_skipSpace hskip (Or.inr (Or.inr rfl))
      obtain ⟨hshorter, hext⟩ := h.value hvalue (Or.inr hstops)
      obtain ⟨hshorter', hext'⟩ := h.members hmembers
      have hskipped := length_skipSpace_le rest'
      refine ⟨by simp only [List.length_cons]; omega, ?_⟩
      intro t m hm
      simp only [List.length_cons] at hm
      obtain ⟨m, rfl⟩ : ∃ k, m = k + 1 := ⟨m - 1, by omega⟩
      rw [scanMembers_again ops hkey hcolon (fun t => hext t m (by omega))
        (ne_nil_of_length_lt hshorter), skipSpace_append_cons hskip t]
      simp only
      rw [skipSpace_append (ne_nil_of_length_lt hshorter'), hext' t m (by omega)]
      rfl
  · cases hscan

theorem Reads.value_succ {fuel : ℕ} (h : Reads ops fuel) {cs rest : Text} {j : Json F}
    (hscan : scanOnce ops (fuel + 1) cs = some (j, rest)) (hends : Opens cs ∨ Stops rest) :
    rest.length < cs.length ∧ ∀ t m, cs.length < m + rest.length →
      scanOnce ops m (cs ++ t) = some (j, rest ++ t) := by
  unfold scanOnce at hscan
  split at hscan
  · next cs =>
      obtain ⟨⟨s, rest'⟩, hstring, heq⟩ := Option.map_eq_some_iff.1 hscan
      cases heq
      have hlength := (scanString_append hstring []).2
      refine ⟨by simp only [List.length_cons]; omega, ?_⟩
      intro t m hm
      simp only [List.length_cons] at hm
      obtain ⟨m, rfl⟩ : ∃ k, m = k + 1 := ⟨m - 1, by omega⟩
      rw [List.cons_append, scanOnce, (scanString_append hstring t).1]
      rfl
  · next cs =>
      have hskipped := length_skipSpace_le cs
      split at hscan
      · next rest' hskip =>
          cases hscan
          rw [hskip, List.length_cons] at hskipped
          refine ⟨by simp only [List.length_cons]; omega, ?_⟩
          intro t m hm
          simp only [List.length_cons] at hm
          obtain ⟨m, rfl⟩ : ∃ k, m = k + 1 := ⟨m - 1, by omega⟩
          rw [List.cons_append, scanOnce, skipSpace_append_cons hskip t]
          rfl
      · next hclose =>
          obtain ⟨⟨ms, rest'⟩, hmembers, heq⟩ := Option.map_eq_some_iff.1 hscan
          cases heq
          obtain ⟨hshorter, hext⟩ := h.members hmembers
          refine ⟨by simp only [List.length_cons]; omega, ?_⟩
          intro t m hm
          simp only [List.length_cons] at hm
          obtain ⟨m, rfl⟩ : ∃ k, m = k + 1 := ⟨m - 1, by omega⟩
          rw [List.cons_append, scanOnce, skipSpace_append (ne_nil_of_length_lt hshorter)]
          split
          · next rest'' heq =>
              cases hskip : skipSpace cs with
              | nil => exact absurd hskip (ne_nil_of_length_lt hshorter)
              | cons p after =>
                  rw [hskip, List.cons_append] at heq
                  cases heq
                  exact absurd hskip (hclose after)
          · rw [hext t m (by omega)]
            rfl
  · next cs =>
      have hskipped := length_skipSpace_le cs
      split at hscan
      · next rest' hskip =>
          cases hscan
          rw [hskip, List.length_cons] at hskipped
          refine ⟨by simp only [List.length_cons]; omega, ?_⟩
          intro t m hm
          simp only [List.length_cons] at hm
          obtain ⟨m, rfl⟩ : ∃ k, m = k + 1 := ⟨m - 1, by omega⟩
          rw [List.cons_append, scanOnce, skipSpace_append_cons hskip t]
          rfl
      · next hclose =>
          obtain ⟨⟨es, rest'⟩, helements, heq⟩ := Option.map_eq_some_iff.1 hscan
          cases heq
          obtain ⟨hshorter, hext⟩ := h.elements helements
          refine ⟨by simp only [List.length_cons]; omega, ?_⟩
          intro t m hm
          simp only [List.length_cons] at hm
          obtain ⟨m, rfl⟩ : ∃ k, m = k + 1 := ⟨m - 1, by omega⟩
          rw [List.cons_append, scanOnce, skipSpace_append (ne_nil_of_length_lt hshorter)]
          split
          · next rest'' heq =>
              cases hskip : skipSpace cs with
              | nil => exact absurd hskip (ne_nil_of_length_lt hshorter)
              | cons p after =>
                  rw [hskip, List.cons_append] at heq
                  cases heq
                  exact absurd hskip (hclose after)
          · rw [hext t m (by omega)]
            rfl
  · next hquote hbrace hbracket =>
      have hplain : ∀ p ∈ cs.head?, p ≠ .scalar '"' ∧ p ≠ .scalar '{' ∧ p ≠ .scalar '[' := by
        intro p hp
        cases cs with
        | nil => cases hp
        | cons q cs =>
            have hpq : q = p := by simpa using hp
            subst hpq
            refine ⟨?_, ?_, ?_⟩
            · rintro rfl
              exact hquote cs rfl
            · rintro rfl
              exact hbrace cs rfl
            · rintro rfl
              exact hbracket cs rfl
      have hstops : Stops rest := by
        rcases hends with ⟨c, cs', rfl, hc⟩ | hstops
        · obtain ⟨h1, h2, h3⟩ := hplain (.scalar c) (by simp)
          rcases hc with rfl | rfl | rfl
          · exact absurd rfl h1
          · exact absurd rfl h2
          · exact absurd rfl h3
        · exact hstops
      obtain ⟨hext, hlength⟩ := scanPlain_append ops hscan hstops []
      refine ⟨hlength, ?_⟩
      intro t m hm
      obtain ⟨m, rfl⟩ : ∃ k, m = k + 1 := ⟨m - 1, by omega⟩
      rw [scanOnce_plain, (scanPlain_append ops hscan hstops t).1]
      intro p hp
      apply hplain p
      cases cs with
      | nil => cases hlength
      | cons q cs => exact hp

theorem reads (fuel : ℕ) : Reads ops fuel := by
  induction fuel with
  | zero =>
      constructor
      · intro cs rest j hscan
        cases hscan
      · intro cs rest es hscan
        cases hscan
      · intro cs rest ms hscan
        cases hscan
  | succ fuel ih =>
      exact ⟨Reads.value_succ ops ih, Reads.elements_succ ops ih, Reads.members_succ ops ih⟩

/-! ## Consequences for whole texts -/

theorem opens_render_obj (ms : List (Text × Json F)) :
    ∃ cs, render ops (obj ms) = .scalar '{' :: cs := by
  cases ms with
  | nil => exact ⟨_, rfl⟩
  | cons m ms => exact ⟨_, rfl⟩

theorem loads_prefix_eq_none (ms : List (Text × Json F)) {cs t : Text}
    (h : cs ++ t = render ops (obj ms)) (ht : t ≠ []) : loads ops cs = none := by
  obtain ⟨body, hbody⟩ := opens_render_obj ops ms
  cases cs with
  | nil => rfl
  | cons p cs =>
      have hp : p = .scalar '{' := by
        rw [hbody] at h
        cases h
        rfl
      subst hp
      unfold loads
      rw [skipSpace_cons _ rfl]
      cases hscan : scanOnce ops ((Point.scalar '{' :: cs).length + 1) (.scalar '{' :: cs) with
      | none => rfl
      | some found =>
          exfalso
          obtain ⟨j, rest⟩ := found
          have hopens : Opens (.scalar '{' :: cs) := ⟨_, _, rfl, Or.inr (Or.inl rfl)⟩
          obtain ⟨-, hext⟩ := (reads ops _).value hscan (Or.inl hopens)
          -- enough fuel for both readings of the whole object
          have hwhole := scanOnce_render ops (obj ms)
            (size (obj ms) + (cs.length + 2)) [] (by omega) endsNumber_nil
          have hagain := hext t (size (obj ms) + (cs.length + 2))
            (by simp only [List.length_cons]; omega)
          rw [List.append_nil, ← h, hagain] at hwhole
          have hrest : rest ++ t = [] := by
            simpa using congrArg (Option.map Prod.snd) hwhole
          exact ht (List.append_eq_nil_iff.1 hrest).2

end Json
end Sentinel
