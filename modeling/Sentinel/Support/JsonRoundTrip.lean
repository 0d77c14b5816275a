import Sentinel.Support.Json
import Mathlib.Data.Nat.Digits.Lemmas
import Mathlib.Tactic.FinCases

/-!
# What is written reads back

`scanOnce_render` reads a rendered value back from in front of any text that
does not continue a number; `loads_render` is the case of a whole text, and
makes rendering injective.
-/

namespace Sentinel

/-! ## Digits -/

theorem ofDecimal_decimal (n : ℕ) : ofDecimal (decimal n) = n := by
  have hfold : ∀ ds : List (Fin 10),
      ofDecimal ds = Nat.ofDigits 10 (ds.map Fin.val).reverse := by
    intro ds
    unfold ofDecimal
    induction ds using List.reverseRecOn with
    | nil => simp
    | append_singleton ds d ih =>
        rw [List.foldl_append, List.map_append, List.reverse_append]
        simp only [List.foldl_cons, List.foldl_nil, List.map_cons, List.map_nil,
          List.reverse_singleton, List.singleton_append, Nat.ofDigits_cons, ih]
        ring
  rw [hfold]
  unfold decimal
  split_ifs with hn
  · simp [hn]
  · have hval : ((Nat.digits 10 n).reverse.map (Fin.ofNat 10)).map Fin.val =
        (Nat.digits 10 n).reverse := by
      rw [List.map_map]
      conv_rhs => rw [← List.map_id (Nat.digits 10 n).reverse]
      apply List.map_congr_left
      intro d hd
      have hlt := Nat.digits_lt_base (by norm_num : 1 < 10) (List.mem_reverse.1 hd)
      simp [Fin.ofNat, Nat.mod_eq_of_lt hlt]
    rw [hval, List.reverse_reverse, Nat.ofDigits_digits]

theorem decimal_ne_nil (n : ℕ) : decimal n ≠ [] := by
  unfold decimal
  split_ifs with hn
  · simp
  · simpa using Nat.digits_ne_nil_iff_ne_zero.2 hn

theorem decimal_eq_zero_cons {n : ℕ} {ds : List (Fin 10)} (h : decimal n = 0 :: ds) :
    n = 0 ∧ ds = [] := by
  unfold decimal at h
  split_ifs at h with hn
  · exact ⟨hn, by simpa using h.symm⟩
  · exfalso
    have hdigits := (Nat.digits_ne_nil_iff_ne_zero (b := 10)).2 hn
    have hlast := Nat.getLast_digit_ne_zero 10 hn
    have hhead := congrArg List.head? h
    rw [List.head?_map, List.head?_reverse, List.getLast?_eq_getLast_of_ne_nil hdigits] at hhead
    simp only [Option.map_some, List.head?_cons, Option.some.injEq] at hhead
    have hval := congrArg Fin.val hhead
    have hlt := Nat.digits_lt_base (by norm_num : 1 < 10) (List.getLast_mem hdigits)
    simp only [Fin.ofNat, Fin.val_zero, Nat.mod_eq_of_lt hlt] at hval
    exact hlast hval

@[simp] theorem digit?_digitChar (d : Fin 10) : digit? (.scalar (digitChar d)) = some d := by
  fin_cases d <;> rfl

namespace Json

variable {F : Type} (ops : FloatOps F)

def NoDigit (rest : Text) : Prop := ∀ p ∈ rest.head?, digit? p = none

def EndsNumber (rest : Text) : Prop :=
  ∀ p ∈ rest.head?, digit? p = none ∧ p ≠ .scalar '.' ∧ p ≠ .scalar 'e' ∧ p ≠ .scalar 'E'

variable (ds : List (Fin 10)) {rest : Text}

theorem EndsNumber.noDigit (h : EndsNumber rest) : NoDigit rest :=
  fun p hp => (h p hp).1

theorem spanDigits_digitText (h : NoDigit rest) :
    spanDigits (digitText ds ++ rest) = (ds, rest) := by
  induction ds with
  | nil =>
      cases rest with
      | nil => rfl
      | cons p rest =>
          have hp : digit? p = none := h p (by simp)
          simp [digitText, spanDigits, hp]
  | cons d ds ih =>
      simp only [digitText, List.map_cons, List.cons_append, spanDigits, digit?_digitChar] at ih ⊢
      rw [ih]

/-! ## Numbers -/

theorem scanWhole_decimal (n : ℕ) {rest : Text} (h : NoDigit rest) :
    scanWhole (digitText (decimal n) ++ rest) = some (n, rest) := by
  have hspan := spanDigits_digitText (decimal n) h
  have hvalue := ofDecimal_decimal n
  unfold scanWhole
  rw [hspan]
  cases hd : decimal n with
  | nil => exact absurd hd (decimal_ne_nil n)
  | cons d ds =>
      rw [hd] at hvalue
      by_cases hzero : d = 0
      · subst hzero
        obtain ⟨rfl, rfl⟩ := decimal_eq_zero_cons hd
        simp [digitText]
      · simp [hzero, hvalue]

theorem scanFraction_of_ne (h : ∀ p ∈ rest.head?, p ≠ .scalar '.') :
    scanFraction rest = ([], rest) := by
  unfold scanFraction
  split
  · exact absurd rfl (h _ (by simp))
  · rfl

theorem scanFraction_render (h : NoDigit rest)
    (hpoint : ∀ p ∈ rest.head?, p ≠ .scalar '.') :
    scanFraction (renderFraction ds ++ rest) = (ds, rest) := by
  unfold renderFraction
  split_ifs with hds
  · rw [hds]
    exact scanFraction_of_ne hpoint
  · simp only [List.cons_append, scanFraction]
    rw [spanDigits_digitText ds h]
    cases ds with
    | nil => exact absurd rfl hds
    | cons d ds => rfl

theorem scanExponent_of_ends (h : EndsNumber rest) : scanExponent rest = (none, rest) := by
  unfold scanExponent
  split
  · next c rest =>
      obtain ⟨-, -, hlower, hupper⟩ := h (.scalar c) (by simp)
      rw [if_neg]
      rintro (rfl | rfl)
      · exact hlower rfl
      · exact hupper rfl
  · rfl

theorem scanSign_digit (d : Fin 10) (cs : Text) :
    scanSign (.scalar (digitChar d) :: cs) = (none, .scalar (digitChar d) :: cs) := by
  fin_cases d <;> rfl

theorem scanSign_render (negative : Option Bool) (d : Fin 10) (ds : List (Fin 10))
    (rest : Text) :
    scanSign (exponentSign negative ++ digitText (d :: ds) ++ rest) =
      (negative, digitText (d :: ds) ++ rest) := by
  cases negative with
  | none => exact scanSign_digit d _
  | some b => cases b <;> rfl

theorem scanExponent_render (e : Option Exponent) {rest : Text} (h : EndsNumber rest) :
    scanExponent (renderExponent e ++ rest) = (e, rest) := by
  cases e with
  | none => exact scanExponent_of_ends h
  | some e =>
      have hspan := spanDigits_digitText (e.digit :: e.digits) h.noDigit
      simp only [renderExponent, List.cons_append, scanExponent, true_or, if_true]
      rw [scanSign_render]
      simp only [hspan]

theorem head?_renderExponent (e : Option Exponent) {rest : Text} (h : EndsNumber rest) :
    ∀ p ∈ (renderExponent e ++ rest).head?, digit? p = none ∧ p ≠ .scalar '.' := by
  cases e with
  | none =>
      intro p hp
      obtain ⟨hdigit, hpoint, -, -⟩ := h p hp
      exact ⟨hdigit, hpoint⟩
  | some e =>
      intro p hp
      have hpe : p = .scalar 'e' := by simpa [renderExponent] using hp.symm
      rw [hpe]
      exact ⟨rfl, by decide⟩

theorem noDigit_renderFraction (h : NoDigit rest) : NoDigit (renderFraction ds ++ rest) := by
  unfold renderFraction
  split_ifs with hds
  · exact h
  · intro p hp
    have hpe : p = .scalar '.' := by simpa using hp.symm
    rw [hpe]
    rfl

variable (negative : Bool)

theorem scanUnsigned_int (n : ℕ) {rest : Text} (h : EndsNumber rest) :
    scanUnsigned ops negative (digitText (decimal n) ++ rest) =
      some (int (if negative then -n else n), rest) := by
  unfold scanUnsigned
  rw [scanWhole_decimal n h.noDigit]
  simp [scanFraction_of_ne fun p hp => (h p hp).2.1, scanExponent_of_ends h]

theorem scanNumber_digitText (n : ℕ) (cs : Text) :
    scanNumber ops (digitText (decimal n) ++ cs) =
      scanUnsigned ops false (digitText (decimal n) ++ cs) := by
  cases hd : decimal n with
  | nil => exact absurd hd (decimal_ne_nil n)
  | cons d ds =>
      simp only [digitText, List.map_cons, List.cons_append]
      fin_cases d <;> rfl

theorem scanNumber_sign (n : ℕ) (cs : Text) :
    scanNumber ops (sign negative ++ (digitText (decimal n) ++ cs)) =
      scanUnsigned ops negative (digitText (decimal n) ++ cs) := by
  cases negative with
  | true => rfl
  | false => exact scanNumber_digitText ops n cs

theorem scanNumber_renderInt (n : ℤ) {rest : Text} (h : EndsNumber rest) :
    scanNumber ops (renderInt n ++ rest) = some (int n, rest) := by
  unfold renderInt
  rw [List.append_assoc, scanNumber_sign, scanUnsigned_int ops _ _ h]
  congr 3
  by_cases hn : n < 0
  · simp only [hn, decide_true, if_true]
    omega
  · simp only [hn, decide_false, Bool.false_eq_true, if_false]
    omega

theorem scanNumber_renderFloat (l : FloatLiteral) {rest : Text} (h : EndsNumber rest) :
    scanNumber ops (renderFloat (.finite l) ++ rest) =
      some (float (ops.read (.finite l)), rest) := by
  obtain ⟨negative, whole, fraction, exponent, hproper⟩ := l
  have hhead := head?_renderExponent exponent h
  have hnodigit : NoDigit (renderExponent exponent ++ rest) := fun p hp => (hhead p hp).1
  have hfraction := scanFraction_render fraction hnodigit fun p hp => (hhead p hp).2
  have hwhole := scanWhole_decimal whole (noDigit_renderFraction fraction hnodigit)
  have hexponent := scanExponent_render exponent h
  simp only [renderFloat, List.append_assoc]
  rw [scanNumber_sign]
  unfold scanUnsigned
  rw [hwhole]
  simp only [Option.map_some, hfraction, hexponent]
  rw [dif_pos hproper]

/-! ## Words -/

theorem scanPlain_digit (d : Fin 10) (cs : Text) :
    scanPlain ops (sign negative ++ .scalar (digitChar d) :: cs) =
      scanNumber ops (sign negative ++ .scalar (digitChar d) :: cs) := by
  have hnone : (words ops).find? (fun w =>
      w.1.isPrefixOf (sign negative ++ .scalar (digitChar d) :: cs)) = none := by
    cases negative <;> fin_cases d <;> rfl
  unfold scanPlain
  rw [hnone]

theorem scanPlain_number (n : ℕ) (cs : Text) :
    scanPlain ops (sign negative ++ (digitText (decimal n) ++ cs)) =
      scanNumber ops (sign negative ++ (digitText (decimal n) ++ cs)) := by
  cases hd : decimal n with
  | nil => exact absurd hd (decimal_ne_nil n)
  | cons d ds => exact scanPlain_digit ops negative d (digitText ds ++ cs)

theorem scanPlain_renderInt (n : ℤ) {rest : Text} (h : EndsNumber rest) :
    scanPlain ops (renderInt n ++ rest) = some (int n, rest) := by
  have hnumber := scanNumber_renderInt ops n h
  unfold renderInt at hnumber ⊢
  rw [List.append_assoc] at hnumber ⊢
  rw [scanPlain_number, hnumber]

theorem scanPlain_renderFloat (x : F) {rest : Text} (h : EndsNumber rest) :
    scanPlain ops (renderFloat (ops.text x) ++ rest) = some (float x, rest) := by
  have hread := ops.read_text x
  cases htext : ops.text x with
  | finite l =>
      have hnumber := scanNumber_renderFloat ops l h
      rw [htext] at hread
      simp only [renderFloat, List.append_assoc] at hnumber ⊢
      rw [scanPlain_number, hnumber, hread]
  | nan =>
      rw [htext] at hread
      rw [← hread]
      rfl
  | infinity =>
      rw [htext] at hread
      rw [← hread]
      rfl
  | negInfinity =>
      rw [htext] at hread
      rw [← hread]
      rfl

theorem scanOnce_plain (fuel : ℕ) {cs : Text}
    (h : ∀ p ∈ cs.head?, p ≠ .scalar '"' ∧ p ≠ .scalar '{' ∧ p ≠ .scalar '[') :
    scanOnce ops (fuel + 1) cs = scanPlain ops cs := by
  apply scanOnce.eq_5
  · rintro rest rfl
    exact (h _ (by simp)).1 rfl
  · rintro rest rfl
    exact (h _ (by simp)).2.1 rfl
  · rintro rest rfl
    exact (h _ (by simp)).2.2 rfl

/-! ## Strings -/

theorem hexValue?_hexDigit {n : ℕ} (h : n < 16) : hexValue? (.scalar (hexDigit n)) = some n := by
  interval_cases n <;> rfl

theorem consEscaped_of_lt {code : ℕ} (h : code < 0xd800) (source tail : Text) :
    consEscaped code source tail = Point.ofCode code :: tail := by
  unfold consEscaped
  split
  · rw [if_neg]
    omega
  · rfl

theorem ofCode_toNat (c : Char) : Point.ofCode c.toNat = .scalar c := by
  unfold Point.ofCode
  have hvalid := c.valid
  rw [dif_neg, Char.ofNat_toNat]
  rintro ⟨hlow, hhigh⟩
  have hcode : c.val.toNat = c.toNat := rfl
  rcases hvalid with hsmall | ⟨hlarge, -⟩ <;> omega

theorem scanString_escapeChar (c : Char) (cs : Text) :
    scanString (Text.ofChars (escapeChar c) ++ cs) =
      (scanString cs).map fun (s, rest) => (.scalar c :: s, rest) := by
  unfold escapeChar
  split
  case h_8 hquote hbackslash _ _ _ _ _ =>
    split_ifs with hcontrol
    · have hcode : hex4? (.scalar '0') (.scalar '0') (.scalar (hexDigit (c.toNat / 16)))
          (.scalar (hexDigit (c.toNat % 16))) = some c.toNat := by
        unfold hex4?
        rw [hexValue?_hexDigit (by omega : c.toNat / 16 < 16),
          hexValue?_hexDigit (by omega : c.toNat % 16 < 16)]
        have hzero : hexValue? (.scalar '0') = some 0 := rfl
        rw [hzero]
        simp only [Option.bind_eq_bind, Option.bind_some, Option.pure_def, Option.some.injEq]
        omega
      simp only [Text.ofChars, List.map_cons, List.map_nil, List.cons_append, List.nil_append]
      rw [scanString, hcode]
      simp only [Option.bind_some, consEscaped_of_lt (by omega : c.toNat < 0xd800),
        ofCode_toNat]
    · simp only [Text.ofChars, List.map_cons, List.map_nil, List.cons_append, List.nil_append]
      rw [scanString.eq_6 c cs hquote (fun _ _ _ _ _ _ h => hbackslash h)
        fun _ _ _ h => hbackslash h, if_neg]
      rintro (h | h)
      · exact hbackslash h
      · exact hcontrol h
  all_goals rfl

theorem scanString_escape (p : Point) (cs : Text) :
    scanString (escape p ++ cs) = (scanString cs).map fun (s, rest) => (p :: s, rest) := by
  cases p with
  | scalar c => exact scanString_escapeChar c cs
  | surrogate n => rfl

theorem scanString_render (s rest : Text) :
    scanString (s.flatMap escape ++ .scalar '"' :: rest) = some (s, rest) := by
  induction s with
  | nil => rfl
  | cons p s ih =>
      rw [List.flatMap_cons, List.append_assoc, scanString_escape, ih]
      rfl

/-! ## Values -/

mutual

def size : Json F → ℕ
  | arr elements => 1 + sizeElements elements
  | obj members => 1 + sizeMembers members
  | _ => 1

def sizeElements : List (Json F) → ℕ
  | [] => 0
  | e :: es => 1 + size e + sizeElements es

def sizeMembers : List (Text × Json F) → ℕ
  | [] => 0
  | (_, v) :: ms => 1 + size v + sizeMembers ms

end

theorem endsNumber_cons {c : Char} (rest : Text) (h : digit? (.scalar c) = none)
    (hpoint : c ≠ '.') (hlower : c ≠ 'e') (hupper : c ≠ 'E') :
    EndsNumber (.scalar c :: rest) := by
  intro p hp
  have hpc : p = .scalar c := by simpa using hp.symm
  rw [hpc]
  exact ⟨h, by simpa using hpoint, by simpa using hlower, by simpa using hupper⟩

theorem endsNumber_renderElements (es : List (Json F)) (rest : Text) :
    EndsNumber (renderElements ops es ++ rest) := by
  cases es with
  | nil => exact endsNumber_cons _ rfl (by decide) (by decide) (by decide)
  | cons e es => exact endsNumber_cons _ rfl (by decide) (by decide) (by decide)

variable (ms : List (Text × Json F))

theorem endsNumber_renderMembers (rest : Text) : EndsNumber (renderMembers ops ms ++ rest) := by
  cases ms with
  | nil => exact endsNumber_cons _ rfl (by decide) (by decide) (by decide)
  | cons m ms => exact endsNumber_cons _ rfl (by decide) (by decide) (by decide)

theorem head?_number (n : ℕ) (cs : Text) :
    ∃ p, (sign negative ++ (digitText (decimal n) ++ cs)).head? = some p ∧
      (p = .scalar '-' ∨ ∃ d, p = .scalar (digitChar d)) := by
  cases hd : decimal n with
  | nil => exact absurd hd (decimal_ne_nil n)
  | cons d ds =>
      cases negative with
      | true => exact ⟨_, rfl, Or.inl rfl⟩
      | false => exact ⟨_, rfl, Or.inr ⟨d, rfl⟩⟩

def StartsValue (p : Point) : Prop := isSpace p = false ∧ p ≠ .scalar ']'

theorem startsValue_number {p : Point} (h : p = .scalar '-' ∨ ∃ d, p = .scalar (digitChar d)) :
    StartsValue p ∧ p ≠ .scalar '"' ∧ p ≠ .scalar '{' ∧ p ≠ .scalar '[' := by
  rcases h with rfl | ⟨d, rfl⟩
  · exact ⟨⟨rfl, by decide⟩, by decide, by decide, by decide⟩
  · fin_cases d <;> exact ⟨⟨rfl, by decide⟩, by decide, by decide, by decide⟩

theorem head?_renderFloat (t : FloatText) (cs : Text) :
    ∃ p, (renderFloat t ++ cs).head? = some p ∧ StartsValue p ∧
      p ≠ .scalar '"' ∧ p ≠ .scalar '{' ∧ p ≠ .scalar '[' := by
  cases t with
  | finite l =>
      simp only [renderFloat, List.append_assoc]
      obtain ⟨p, hp, hnumber⟩ := head?_number l.negative l.whole
        (renderFraction l.fraction ++ (renderExponent l.exponent ++ cs))
      exact ⟨p, hp, startsValue_number hnumber⟩
  | nan => exact ⟨_, rfl, ⟨rfl, by decide⟩, by decide, by decide, by decide⟩
  | infinity => exact ⟨_, rfl, ⟨rfl, by decide⟩, by decide, by decide, by decide⟩
  | negInfinity => exact ⟨_, rfl, ⟨rfl, by decide⟩, by decide, by decide, by decide⟩

theorem head?_renderInt (n : ℤ) (cs : Text) :
    ∃ p, (renderInt n ++ cs).head? = some p ∧ StartsValue p ∧
      p ≠ .scalar '"' ∧ p ≠ .scalar '{' ∧ p ≠ .scalar '[' := by
  obtain ⟨p, hp, hnumber⟩ := head?_number (n < 0) n.natAbs cs
  unfold renderInt
  rw [List.append_assoc]
  exact ⟨p, hp, startsValue_number hnumber⟩

variable (j : Json F)

theorem head?_render (cs : Text) : ∃ p, (render ops j ++ cs).head? = some p ∧ StartsValue p := by
  cases j with
  | null => exact ⟨_, by simp [render, Text.ofChars]; rfl, rfl, by decide⟩
  | bool b =>
      cases b with
      | true => exact ⟨_, by simp [render, Text.ofChars]; rfl, rfl, by decide⟩
      | false => exact ⟨_, by simp [render, Text.ofChars]; rfl, rfl, by decide⟩
  | int n =>
      obtain ⟨p, hp, hstarts, -⟩ := head?_renderInt n cs
      exact ⟨p, by simpa [render] using hp, hstarts⟩
  | float x =>
      obtain ⟨p, hp, hstarts, -⟩ := head?_renderFloat (ops.text x) cs
      exact ⟨p, by simpa [render] using hp, hstarts⟩
  | str s => exact ⟨_, by simp [render, renderString]; rfl, rfl, by decide⟩
  | arr es =>
      cases es with
      | nil => exact ⟨_, by simp [render, Text.ofChars]; rfl, rfl, by decide⟩
      | cons e es => exact ⟨_, by simp [render]; rfl, rfl, by decide⟩
  | obj ms =>
      cases ms with
      | nil => exact ⟨_, by simp [render, Text.ofChars]; rfl, rfl, by decide⟩
      | cons m ms => exact ⟨_, by simp [render]; rfl, rfl, by decide⟩

theorem skipSpace_of_head? {cs : Text} {p : Point} (hp : cs.head? = some p)
    (h : isSpace p = false) : skipSpace cs = cs := by
  cases cs with
  | nil => rfl
  | cons q cs =>
      have hpq : q = p := by simpa using hp
      simp [skipSpace, hpq, h]

theorem skipSpace_cons {p : Point} (cs : Text) (h : isSpace p = false) :
    skipSpace (p :: cs) = p :: cs :=
  skipSpace_of_head? rfl h

theorem skipSpace_render (cs : Text) : skipSpace (render ops j ++ cs) = render ops j ++ cs := by
  obtain ⟨p, hp, hspace, -⟩ := head?_render ops j cs
  exact skipSpace_of_head? hp hspace

theorem scanOnce_renderString (fuel : ℕ) (s rest : Text) :
    scanOnce ops (fuel + 1) (renderString s ++ rest) = some (str s, rest) := by
  have hscan := scanString_render s rest
  simp only [renderString, List.cons_append, List.append_assoc, List.nil_append, scanOnce]
  rw [hscan]
  rfl

theorem scanMembers_key (fuel : ℕ) (k cs : Text) :
    scanMembers ops (fuel + 1) (renderString k ++ .scalar ':' :: cs) =
      (scanOnce ops fuel (skipSpace cs)).bind fun (v, rest) =>
        match skipSpace rest with
        | .scalar '}' :: rest => some ([(k, v)], rest)
        | .scalar ',' :: rest =>
            (scanMembers ops fuel (skipSpace rest)).map fun (ms, rest) => ((k, v) :: ms, rest)
        | _ => none := by
  have hscan := scanString_render k (.scalar ':' :: cs)
  simp only [renderString, List.cons_append, List.append_assoc, List.nil_append]
  rw [scanMembers, hscan]
  rfl

mutual

theorem scanOnce_render : ∀ (j : Json F) (fuel : ℕ) (rest : Text), size j ≤ fuel →
    EndsNumber rest → scanOnce ops fuel (render ops j ++ rest) = some (reload j, rest)
  | null, fuel + 1, rest, _, _ => rfl
  | bool true, fuel + 1, rest, _, _ => rfl
  | bool false, fuel + 1, rest, _, _ => rfl
  | int n, fuel + 1, rest, _, hrest => by
      obtain ⟨p, hp, -, hplain⟩ := head?_renderInt n rest
      simp only [render, reload]
      rw [scanOnce_plain, scanPlain_renderInt ops n hrest]
      intro q hq
      rw [hp] at hq
      cases hq
      exact hplain
  | float x, fuel + 1, rest, _, hrest => by
      obtain ⟨p, hp, -, hplain⟩ := head?_renderFloat (ops.text x) rest
      simp only [render, reload]
      rw [scanOnce_plain, scanPlain_renderFloat ops x hrest]
      intro q hq
      rw [hp] at hq
      cases hq
      exact hplain
  | str s, fuel + 1, rest, _, _ => by
      simp only [render, reload]
      exact scanOnce_renderString ops fuel s rest
  | arr [], fuel + 1, rest, _, _ => rfl
  | arr (e :: es), fuel + 1, rest, hfuel, _ => by
      simp only [size, sizeElements] at hfuel
      obtain ⟨fuel, rfl⟩ : ∃ m, fuel = m + 1 := ⟨fuel - 1, by omega⟩
      have hvalue := scanOnce_render e fuel (renderElements ops es ++ rest) (by omega)
        (endsNumber_renderElements ops es rest)
      have helements := scanElements_render es e fuel rest hvalue (by omega)
      obtain ⟨p, hp, hspace, hclose⟩ := head?_render ops e (renderElements ops es ++ rest)
      simp only [render, List.cons_append, List.append_assoc, scanOnce, reload, reloadElements]
      rw [skipSpace_of_head? hp hspace]
      split
      · next after heq =>
          rw [heq] at hp
          cases hp
          exact absurd rfl hclose
      · rw [helements]
        rfl
  | obj [], fuel + 1, rest, _, _ => rfl
  | obj ((k, v) :: ms), fuel + 1, rest, hfuel, _ => by
      simp only [size, sizeMembers] at hfuel
      obtain ⟨fuel, rfl⟩ : ∃ m, fuel = m + 1 := ⟨fuel - 1, by omega⟩
      have hvalue := scanOnce_render v fuel (renderMembers ops ms ++ rest) (by omega)
        (endsNumber_renderMembers ops ms rest)
      have hmembers := scanMembers_render ms k v fuel rest hvalue (by omega)
      simp only [render, List.cons_append, List.append_assoc, scanOnce, reload, reloadMembers]
      rw [skipSpace_of_head? rfl rfl]
      split
      · next after heq => cases heq
      · rw [hmembers]
        rfl
  | null, 0, _, hfuel, _ => by simp [size] at hfuel
  | bool _, 0, _, hfuel, _ => by simp [size] at hfuel
  | int _, 0, _, hfuel, _ => by simp [size] at hfuel
  | float _, 0, _, hfuel, _ => by simp [size] at hfuel
  | str _, 0, _, hfuel, _ => by simp [size] at hfuel
  | arr _, 0, _, hfuel, _ => by simp [size] at hfuel
  | obj _, 0, _, hfuel, _ => by simp [size] at hfuel

theorem scanElements_render : ∀ (es : List (Json F)) (e : Json F) (fuel : ℕ) (rest : Text),
    scanOnce ops fuel (render ops e ++ (renderElements ops es ++ rest)) =
      some (reload e, renderElements ops es ++ rest) →
    sizeElements es ≤ fuel →
    scanElements ops (fuel + 1) (render ops e ++ (renderElements ops es ++ rest)) =
      some (reload e :: reloadElements es, rest)
  | [], e, fuel, rest, hvalue, _ => by
      simp only [scanElements, hvalue, Option.bind_some]
      rfl
  | e' :: es, e, fuel, rest, hvalue, hfuel => by
      simp only [sizeElements] at hfuel
      obtain ⟨fuel, rfl⟩ : ∃ m, fuel = m + 1 := ⟨fuel - 1, by omega⟩
      have hnext := scanOnce_render e' fuel (renderElements ops es ++ rest) (by omega)
        (endsNumber_renderElements ops es rest)
      have helements := scanElements_render es e' fuel rest hnext (by omega)
      rw [scanElements, hvalue]
      simp only [Option.bind_some, renderElements, List.cons_append, List.append_assoc]
      rw [skipSpace_cons _ rfl]
      simp only [skipSpace_render, helements, Option.map_some, reloadElements]

theorem scanMembers_render : ∀ (ms : List (Text × Json F)) (k : Text) (v : Json F) (fuel : ℕ)
    (rest : Text),
    scanOnce ops fuel (render ops v ++ (renderMembers ops ms ++ rest)) =
      some (reload v, renderMembers ops ms ++ rest) →
    sizeMembers ms ≤ fuel →
    scanMembers ops (fuel + 1)
        (renderString k ++ (.scalar ':' :: (render ops v ++ (renderMembers ops ms ++ rest)))) =
      some ((k, reload v) :: reloadMembers ms, rest)
  | [], k, v, fuel, rest, hvalue, _ => by
      rw [scanMembers_key, skipSpace_render, hvalue]
      rfl
  | (k', v') :: ms, k, v, fuel, rest, hvalue, hfuel => by
      simp only [sizeMembers] at hfuel
      obtain ⟨fuel, rfl⟩ : ∃ m, fuel = m + 1 := ⟨fuel - 1, by omega⟩
      have hnext := scanOnce_render v' fuel (renderMembers ops ms ++ rest) (by omega)
        (endsNumber_renderMembers ops ms rest)
      have hmembers := scanMembers_render ms k' v' fuel rest hnext (by omega)
      have hkey : ∀ cs, skipSpace (renderString k' ++ cs) = renderString k' ++ cs :=
        fun cs => skipSpace_cons _ rfl
      rw [scanMembers_key, skipSpace_render, hvalue]
      simp only [Option.bind_some, renderMembers, List.cons_append, List.append_assoc]
      rw [skipSpace_cons _ rfl]
      simp only [hkey, hmembers, Option.map_some, reloadMembers]

end

/-! ## Whole texts -/

theorem one_le_length_render : 1 ≤ (render ops j).length := by
  obtain ⟨p, hp, -⟩ := head?_render ops j []
  rw [List.append_nil] at hp
  cases hrender : render ops j with
  | nil =>
      rw [hrender] at hp
      cases hp
  | cons q cs => simp

mutual

theorem size_le_length : ∀ j : Json F, size j ≤ (render ops j).length
  | null => one_le_length_render ops null
  | bool b => one_le_length_render ops (bool b)
  | int n => one_le_length_render ops (int n)
  | float x => one_le_length_render ops (float x)
  | str s => one_le_length_render ops (str s)
  | arr [] => one_le_length_render ops (arr [])
  | arr (e :: es) => by
      have hvalue := size_le_length e
      have helements := sizeElements_le_length es
      simp only [size, sizeElements, render, List.length_cons, List.length_append]
      omega
  | obj [] => one_le_length_render ops (obj [])
  | obj ((k, v) :: ms) => by
      have hvalue := size_le_length v
      have hmembers := sizeMembers_le_length ms
      simp only [size, sizeMembers, render, List.length_cons, List.length_append]
      omega

theorem sizeElements_le_length :
    ∀ es : List (Json F), sizeElements es + 1 ≤ (renderElements ops es).length
  | [] => by simp [sizeElements, renderElements]
  | e :: es => by
      have hvalue := size_le_length e
      have helements := sizeElements_le_length es
      simp only [sizeElements, renderElements, List.length_cons, List.length_append]
      omega

theorem sizeMembers_le_length :
    ∀ ms : List (Text × Json F), sizeMembers ms + 1 ≤ (renderMembers ops ms).length
  | [] => by simp [sizeMembers, renderMembers]
  | (k, v) :: ms => by
      have hvalue := size_le_length v
      have hmembers := sizeMembers_le_length ms
      simp only [sizeMembers, renderMembers, List.length_cons, List.length_append]
      omega

end

theorem loads_render_append {tail : Text} (h : EndsNumber tail) :
    loads ops (render ops j ++ tail) =
      if skipSpace tail = [] then some (reload j) else none := by
  have hlength := size_le_length ops j
  have hscan := scanOnce_render ops j ((render ops j ++ tail).length + 1) tail
    (by rw [List.length_append]; omega) h
  unfold loads
  rw [skipSpace_render, hscan]

theorem endsNumber_nil : EndsNumber [] := by
  intro p hp
  cases hp

theorem loads_render : loads ops (render ops j) = some (reload j) := by
  have hloads := loads_render_append ops j endsNumber_nil
  rw [List.append_nil] at hloads
  simpa [skipSpace] using hloads

/-! ## A value is determined by its text -/

theorem reload_eq_of_render_eq {j j' : Json F} (h : render ops j = render ops j') :
    reload j = reload j' := by
  have hloads := loads_render ops j
  rw [h, loads_render] at hloads
  exact (Option.some.inj hloads).symm

theorem eq_of_reload_eq {j j' : Json F} (harr : ∀ es, j ≠ arr es) (hobj : ∀ ms, j ≠ obj ms)
    (h : reload j = reload j') : j = j' := by
  cases j <;> cases j' <;> simp_all [reload]

theorem render_append_cancel {j j' : Json F} {tail tail' : Text} (htail : EndsNumber tail)
    (htail' : EndsNumber tail') (h : render ops j ++ tail = render ops j' ++ tail') :
    render ops j = render ops j' ∧ tail = tail' := by
  have hscan := scanOnce_render ops j (size j + size j') tail (by omega) htail
  have hscan' := scanOnce_render ops j' (size j + size j') tail' (by omega) htail'
  rw [h, hscan'] at hscan
  have hrest : tail = tail' := (congrArg Prod.snd (Option.some.inj hscan)).symm
  subst hrest
  exact ⟨List.append_cancel_right h, rfl⟩

theorem renderString_append_cancel {k k' tail tail' : Text}
    (h : renderString k ++ tail = renderString k' ++ tail') : k = k' ∧ tail = tail' := by
  simp only [renderString, List.cons_append, List.append_assoc, List.cons.injEq, true_and,
    List.nil_append] at h
  have hscan := scanString_render k tail
  rw [h, scanString_render] at hscan
  have hpair := Option.some.inj hscan
  exact ⟨(congrArg Prod.fst hpair).symm, (congrArg Prod.snd hpair).symm⟩

theorem endsNumber_elements (es : List (Json F)) : EndsNumber (renderElements ops es) := by
  have hends := endsNumber_renderElements ops es []
  rwa [List.append_nil] at hends

theorem endsNumber_members : EndsNumber (renderMembers ops ms) := by
  have hends := endsNumber_renderMembers ops ms []
  rwa [List.append_nil] at hends

mutual

theorem eq_of_render_eq : ∀ j j' : Json F, render ops j = render ops j' → j = j'
  | arr es, j', h => by
      have hreload := reload_eq_of_render_eq ops h
      cases j' with
      | arr es' =>
          cases es with
          | nil => cases es' with
            | nil => rfl
            | cons e' es' => simp [reload, reloadElements] at hreload
          | cons e es => cases es' with
            | nil => simp [reload, reloadElements] at hreload
            | cons e' es' =>
                simp only [render, List.cons.injEq, true_and] at h
                obtain ⟨hvalue, hrest⟩ := render_append_cancel ops (endsNumber_elements ops es)
                  (endsNumber_elements ops es') h
                rw [eq_of_render_eq e e' hvalue, eq_of_renderElements_eq es es' hrest]
      | _ => simp [reload] at hreload
  | obj ms, j', h => by
      have hreload := reload_eq_of_render_eq ops h
      cases j' with
      | obj ms' =>
          cases ms with
          | nil => cases ms' with
            | nil => rfl
            | cons m' ms' => simp [render, renderString, Text.ofChars] at h
          | cons m ms => cases ms' with
            | nil => simp [render, renderString, Text.ofChars] at h
            | cons m' ms' =>
                obtain ⟨k, v⟩ := m
                obtain ⟨k', v'⟩ := m'
                simp only [render, List.cons.injEq, true_and] at h
                obtain ⟨hkey, h⟩ := renderString_append_cancel h
                obtain ⟨hvalue, hrest⟩ := render_append_cancel ops (endsNumber_members ops ms)
                  (endsNumber_members ops ms') (List.cons.inj h).2
                rw [hkey, eq_of_render_eq v v' hvalue, eq_of_renderMembers_eq ms ms' hrest]
      | _ => simp [reload] at hreload
  | null, j', h => eq_of_reload_eq nofun nofun (reload_eq_of_render_eq ops h)
  | bool b, j', h => eq_of_reload_eq nofun nofun (reload_eq_of_render_eq ops h)
  | int n, j', h => eq_of_reload_eq nofun nofun (reload_eq_of_render_eq ops h)
  | float x, j', h => eq_of_reload_eq nofun nofun (reload_eq_of_render_eq ops h)
  | str s, j', h => eq_of_reload_eq nofun nofun (reload_eq_of_render_eq ops h)

theorem eq_of_renderElements_eq : ∀ es es' : List (Json F),
    renderElements ops es = renderElements ops es' → es = es'
  | [], [], _ => rfl
  | [], _ :: _, h => by simp [renderElements] at h
  | _ :: _, [], h => by simp [renderElements] at h
  | e :: es, e' :: es', h => by
      simp only [renderElements, List.cons.injEq, true_and] at h
      obtain ⟨hvalue, hrest⟩ := render_append_cancel ops (endsNumber_elements ops es)
        (endsNumber_elements ops es') h
      rw [eq_of_render_eq e e' hvalue, eq_of_renderElements_eq es es' hrest]

theorem eq_of_renderMembers_eq : ∀ ms ms' : List (Text × Json F),
    renderMembers ops ms = renderMembers ops ms' → ms = ms'
  | [], [], _ => rfl
  | [], _ :: _, h => by simp [renderMembers] at h
  | _ :: _, [], h => by simp [renderMembers] at h
  | (k, v) :: ms, (k', v') :: ms', h => by
      simp only [renderMembers, List.cons.injEq, true_and] at h
      obtain ⟨hkey, h⟩ := renderString_append_cancel h
      obtain ⟨hvalue, hrest⟩ := render_append_cancel ops (endsNumber_members ops ms)
        (endsNumber_members ops ms') (List.cons.inj h).2
      rw [hkey, eq_of_render_eq v v' hvalue, eq_of_renderMembers_eq ms ms' hrest]

end

/-! ## The shape of rendered text -/

def InLine (p : Point) : Prop := p ≠ .scalar '\n' ∧ p ≠ .scalar '\r'

instance (p : Point) : Decidable (InLine p) := inferInstanceAs (Decidable (_ ∧ _))

theorem inLine_digitText : ∀ p ∈ digitText ds, InLine p := by
  intro p hp
  obtain ⟨d, -, rfl⟩ := List.mem_map.1 hp
  fin_cases d <;> decide

theorem inLine_sign : ∀ p ∈ sign negative, InLine p := by
  cases negative <;> decide

theorem inLine_exponentSign (negative : Option Bool) : ∀ p ∈ exponentSign negative, InLine p := by
  rcases negative with - | - | - <;> decide

theorem inLine_ofChars {cs : List Char} (h : ∀ c ∈ cs, c ≠ '\n' ∧ c ≠ '\r') :
    ∀ p ∈ Text.ofChars cs, InLine p := by
  intro p hp
  obtain ⟨c, hc, rfl⟩ := List.mem_map.1 hp
  obtain ⟨hfeed, hreturn⟩ := h c hc
  exact ⟨by simpa using hfeed, by simpa using hreturn⟩

theorem inLine_renderInt (n : ℤ) : ∀ p ∈ renderInt n, InLine p := by
  intro p hp
  rcases List.mem_append.1 hp with hsign | hdigits
  · exact inLine_sign _ p hsign
  · exact inLine_digitText _ p hdigits

theorem inLine_renderFloat (t : FloatText) : ∀ p ∈ renderFloat t, InLine p := by
  cases t with
  | nan => decide
  | infinity => decide
  | negInfinity => decide
  | finite l =>
      obtain ⟨negative, whole, fraction, exponent, hproper⟩ := l
      simp only [renderFloat, List.forall_mem_append]
      refine ⟨⟨⟨inLine_sign negative, inLine_digitText _⟩, ?_⟩, ?_⟩
      · unfold renderFraction
        split_ifs
        · simp
        · exact List.forall_mem_cons.2 ⟨by decide, inLine_digitText _⟩
      · cases exponent with
        | none => simp [renderExponent]
        | some e =>
            obtain ⟨negative, d, ds⟩ := e
            exact List.forall_mem_cons.2 ⟨by decide,
              List.forall_mem_append.2 ⟨inLine_exponentSign negative, inLine_digitText _⟩⟩

theorem inLine_escape (q : Point) : ∀ p ∈ escape q, InLine p := by
  cases q with
  | surrogate n => simp [escape, InLine]
  | scalar c =>
      intro p hp
      obtain ⟨c', hc', rfl⟩ := List.mem_map.1 hp
      unfold escapeChar at hc'
      split at hc'
      case h_8 _ _ hfeed hreturn _ _ _ =>
        split_ifs at hc' with hcontrol
        · have hhex : ∀ n < 16, InLine (.scalar (hexDigit n)) := by
            intro n hn
            interval_cases n <;> decide
          simp only [List.mem_cons, List.not_mem_nil, or_false] at hc'
          rcases hc' with rfl | rfl | rfl | rfl | rfl | rfl
          · decide
          · decide
          · decide
          · decide
          · exact hhex _ (by omega)
          · exact hhex _ (by omega)
        · rw [List.mem_singleton] at hc'
          subst hc'
          exact ⟨by simpa using hfeed, by simpa using hreturn⟩
      all_goals
        simp only [List.mem_cons, List.not_mem_nil, or_false] at hc'
        rcases hc' with rfl | rfl <;> decide

theorem inLine_renderString (s : Text) : ∀ p ∈ renderString s, InLine p := by
  refine List.forall_mem_cons.2 ⟨by decide, List.forall_mem_append.2 ⟨?_, by simp [InLine]⟩⟩
  intro p hp
  obtain ⟨q, -, hq⟩ := List.mem_flatMap.1 hp
  exact inLine_escape q p hq

mutual

theorem inLine_render : ∀ j : Json F, ∀ p ∈ render ops j, InLine p
  | null => inLine_ofChars (by simp)
  | bool true => inLine_ofChars (by simp)
  | bool false => inLine_ofChars (by simp)
  | int n => inLine_renderInt n
  | float x => inLine_renderFloat (ops.text x)
  | str s => inLine_renderString s
  | arr [] => inLine_ofChars (by simp)
  | arr (e :: es) => by
      rw [render]
      exact List.forall_mem_cons.2 ⟨by decide,
        List.forall_mem_append.2 ⟨inLine_render e, inLine_renderElements es⟩⟩
  | obj [] => inLine_ofChars (by simp)
  | obj ((k, v) :: ms) => by
      rw [render]
      exact List.forall_mem_cons.2 ⟨by decide, List.forall_mem_append.2 ⟨inLine_renderString k,
        List.forall_mem_cons.2 ⟨by decide,
          List.forall_mem_append.2 ⟨inLine_render v, inLine_renderMembers ms⟩⟩⟩⟩

theorem inLine_renderElements : ∀ es : List (Json F), ∀ p ∈ renderElements ops es, InLine p
  | [] => by simp [renderElements, InLine]
  | e :: es => by
      rw [renderElements]
      exact List.forall_mem_cons.2 ⟨by decide,
        List.forall_mem_append.2 ⟨inLine_render e, inLine_renderElements es⟩⟩

theorem inLine_renderMembers :
    ∀ ms : List (Text × Json F), ∀ p ∈ renderMembers ops ms, InLine p
  | [] => by simp [renderMembers, InLine]
  | (k, v) :: ms => by
      rw [renderMembers]
      exact List.forall_mem_cons.2 ⟨by decide, List.forall_mem_append.2 ⟨inLine_renderString k,
        List.forall_mem_cons.2 ⟨by decide,
          List.forall_mem_append.2 ⟨inLine_render v, inLine_renderMembers ms⟩⟩⟩⟩

end

theorem renderMembers_closed : ∃ body, renderMembers ops ms = body ++ [.scalar '}'] := by
  induction ms with
  | nil => exact ⟨[], rfl⟩
  | cons m ms ih =>
      obtain ⟨k, v⟩ := m
      obtain ⟨body, hbody⟩ := ih
      refine ⟨.scalar ',' :: (renderString k ++ .scalar ':' :: (render ops v ++ body)), ?_⟩
      rw [renderMembers, hbody]
      simp

theorem render_obj_enclosed :
    ∃ body, render ops (obj ms) = .scalar '{' :: (body ++ [.scalar '}']) := by
  cases ms with
  | nil => exact ⟨[], rfl⟩
  | cons m ms =>
      obtain ⟨k, v⟩ := m
      obtain ⟨body, hbody⟩ := renderMembers_closed ops ms
      refine ⟨renderString k ++ .scalar ':' :: (render ops v ++ body), ?_⟩
      rw [render, hbody]
      simp

end Json
end Sentinel
