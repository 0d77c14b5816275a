import Sentinel.Core.AuditVerify

/-!
# What `verify` reports of a damaged journal

The walk stops at the first record that does not pass.  What it then says of
that record depends on fields it reads before it knows that they are there.
-/

namespace Sentinel
namespace Audit

open Chars

variable {F : Type} (py : Python F)

/-! ## The first bad record -/

variable (file : Bytes)

def numberedRecords : List (ℕ × Json F) :=
  ((linesOf (universalNewlines (Utf8.decodeReplace file))).zipIdx 1).filterMap
    fun (line, lineno) =>
      if strip line = [] then none
      else some (lineno, (Json.loads py.toFloatOps (Text.ofChars (strip line))).getD
        (sentinelLine lineno))

theorem map_snd_numberedRecords : (numberedRecords py file).map Prod.snd = iterRecords py file := by
  rw [numberedRecords, iterRecords, List.map_filterMap]
  apply List.filterMap_congr
  intro numbered _
  by_cases hblank : strip numbered.1 = []
  · simp only [if_pos hblank, Option.map_none]
  · simp only [if_neg hblank, Option.map_some]

/-- Walking from the number `n` and the link `prev`, the first record that does
not pass is `bad` on the line `lineno`, and it is checked against the number `m`
and the link `link`. -/
inductive FirstBad :
    ℤ → Text → List (ℕ × Json F) → (m : ℤ) → (link : Text) → (lineno : ℕ) → Json F → Prop
  | here {n : ℤ} {prev : Text} {lineno : ℕ} {bad : Json F} {rest : List (ℕ × Json F)}
      (fails : ∀ h, ¬ Checked py n prev bad h) :
      FirstBad n prev ((lineno, bad) :: rest) n prev lineno bad
  | later {n m : ℤ} {prev h link : Text} {first : ℕ × Json F} {rest : List (ℕ × Json F)}
      {lineno : ℕ} {bad : Json F} (passes : Checked py n prev first.2 h)
      (rests : FirstBad (n + 1) h rest m link lineno bad) :
      FirstBad n prev (first :: rest) m link lineno bad

variable {py}

variable {n m : ℤ} {prev link : Text} {rs : List (ℕ × Json F)} {lineno : ℕ} {bad : Json F}

theorem FirstBad.not_checked (hbad : FirstBad py n prev rs m link lineno bad) (h : Text) :
    ¬ Checked py m link bad h := by
  induction hbad with
  | here fails => exact fails h
  | later _ _ ih => exact ih

variable (py) in
theorem walked_or_firstBad (n : ℤ) (prev : Text) (rs : List (ℕ × Json F)) :
    Walked py n prev (rs.map Prod.snd) ∨
      ∃ m link lineno bad, FirstBad py n prev rs m link lineno bad := by
  induction rs generalizing n prev with
  | nil => exact Or.inl trivial
  | cons r rs ih =>
      by_cases hpasses : ∃ h, Checked py n prev r.2 h
      · obtain ⟨h, hchecked⟩ := hpasses
        rcases ih (n + 1) h with hwalked | ⟨m, link, lineno, bad, hbad⟩
        · exact Or.inl ⟨h, hchecked, hwalked⟩
        · exact Or.inr ⟨m, link, lineno, bad, .later hchecked hbad⟩
      · refine Or.inr ⟨n, prev, r.1, r.2, .here ?_⟩
        exact fun h hchecked => hpasses ⟨h, hchecked⟩

theorem FirstBad.verifyFrom_eq_ok_iff (hbad : FirstBad py n prev rs m link lineno bad)
    (verdict : Verdict F) :
    verifyFrom py n prev (rs.map Prod.snd) = .ok verdict ↔
      checkRecord py m link bad = .ok (.inl verdict) := by
  induction hbad with
  | @here n prev lineno bad rest fails =>
      rw [List.map_cons, verifyFrom]
      constructor
      · intro hverify
        obtain ⟨x, hcheck, hrest⟩ := bind_eq_ok.1 hverify
        rcases checkRecord_cases py hcheck with ⟨verdict', rfl, -⟩ | ⟨h, rfl, hchecked⟩
        · cases hrest
          exact hcheck
        · exact absurd hchecked (fails h)
      · intro hcheck
        rw [hcheck]
        rfl
  | later passes _ ih =>
      rw [List.map_cons, verifyFrom, passes.checkRecord_eq]
      exact ih

theorem Checked.plain_hash {n : ℤ} {prev h : Text} {r : Json F}
    (hchecked : Checked py n prev r h) : Plain h := by
  obtain ⟨input, -, hdigest⟩ := hchecked.digest
  obtain ⟨bytes, -, hhash⟩ := bind_eq_ok.1 hdigest
  cases hhash
  exact plain_ofChars _

theorem FirstBad.plain_link (hbad : FirstBad py n prev rs m link lineno bad) (hprev : Plain prev) :
    Plain link := by
  induction hbad with
  | here _ => exact hprev
  | later passes _ ih => exact ih passes.plain_hash

variable (py)

/-! ## Reports -/

/-- A report of the journal points to the record on this line, which should have
had the number `m`: by its line, by the number it should have had, or by its own
number where that is the one. -/
def Verdict.Names (m : ℤ) (lineno : ℕ) : Verdict F → Prop
  | intact _ => False
  | unparseable line => line = .int lineno
  | missingField => False
  | sequenceGap expected _ => expected = m
  | linkMismatch seq => equalsInt py seq m = true
  | hashMismatch seq => equalsInt py seq m = true

/-- `verify` returns, and where the chain does not hold it says so and names
the first bad record. -/
def Reports : Prop :=
  ∃ verdict, verify py file = .ok verdict ∧
    ∀ m link lineno bad, FirstBad py 1 genesis (numberedRecords py file) m link lineno bad →
      verdict.isOk = false ∧ verdict.Names py m lineno

def Marked (r : Json F) : Prop :=
  ∃ marker, item r "__unparseable__" = .ok marker ∧ truthy py marker = true

def hashedFields : List String := ["ts_ns", "run_id", "event", "actor", "payload"]

/-- What `verify` takes for granted of a bad record: it is an object; marked, it
has the number of its line; not marked, it has a number and a hash; with the
number expected it has a link, and with the link expected it has the fields that
are hashed, none with a lone surrogate. -/
structure Shaped (n : ℤ) (prev : Text) (lineno : ℕ) (r : Json F) : Prop where
  object : ∃ members, r = .obj members
  marked : Marked py r → item r "__line__" = .ok (.int lineno)
  numbered : ¬ Marked py r → (∃ seq, item r "seq" = .ok seq) ∧ ∃ hash, item r "hash" = .ok hash
  linked : ¬ Marked py r → (∃ seq, item r "seq" = .ok seq ∧ equalsInt py seq n = true) →
    ∃ prevHash, item r "prev_hash" = .ok prevHash
  hashed : ¬ Marked py r → (∃ seq, item r "seq" = .ok seq ∧ equalsInt py seq n = true) →
    item r "prev_hash" = .ok (.str prev) →
    ∀ name ∈ hashedFields, ∃ v, item r name = .ok v ∧ Plain (v.sortKeys.render py.toFloatOps)

/-! ## What is hashed of a record -/

theorem plain_sign (negative : Bool) : Plain (Json.sign negative) := by
  cases negative
  · exact plain_ofChars []
  · exact plain_ofChars ['-']

theorem plain_renderFraction (fraction : List (Fin 10)) : Plain (Json.renderFraction fraction) := by
  by_cases hempty : fraction = []
  · rw [Json.renderFraction, if_pos hempty]
    exact plain_ofChars []
  · rw [Json.renderFraction, if_neg hempty, plain_cons]
    exact plain_digitText fraction

theorem plain_exponentSign (negative : Option Bool) : Plain (Json.exponentSign negative) := by
  rcases negative with _ | _ | _
  · exact plain_ofChars []
  · exact plain_ofChars ['+']
  · exact plain_ofChars ['-']

theorem plain_renderExponent (exponent : Option Exponent) :
    Plain (Json.renderExponent exponent) := by
  cases exponent with
  | none => exact plain_ofChars []
  | some e =>
      rw [Json.renderExponent, plain_cons, plain_append]
      exact ⟨plain_exponentSign _, plain_digitText _⟩

theorem plain_renderFloat (x : FloatText) : Plain (Json.renderFloat x) := by
  cases x with
  | finite l =>
      rw [Json.renderFloat, plain_append, plain_append, plain_append]
      exact ⟨⟨⟨plain_sign _, plain_digitText _⟩, plain_renderFraction _⟩, plain_renderExponent _⟩
  | nan => exact plain_ofChars _
  | infinity => exact plain_ofChars _
  | negInfinity => exact plain_ofChars _

theorem plain_of_equalsInt {v : Json F} {n : ℤ} (h : equalsInt py v n = true) :
    Plain (v.sortKeys.render py.toFloatOps) := by
  cases v with
  | bool b =>
      cases b
      · exact plain_ofChars _
      · exact plain_ofChars _
  | int m => exact plain_renderInt m
  | float x => exact plain_renderFloat _
  | null => cases h
  | str s => cases h
  | arr elements => cases h
  | obj members => cases h

theorem image_recordInput {seq tsNs runId event actor payload prevHash : Json F} :
    (digestInput (.ofJson seq) (.ofJson tsNs) (.ofJson runId) (.ofJson event) (.ofJson actor)
        (.ofJson payload) (.ofJson prevHash)).image py.toFloatOps true =
      some (bodyJson seq.sortKeys tsNs.sortKeys runId.sortKeys event.sortKeys actor.sortKeys
        payload.sortKeys prevHash.sortKeys) := by
  apply image_digestInput
  all_goals exact PyVal.image_ofJson py.toFloatOps _

theorem hashed_iff {r seq : Json F} (hseq : item r "seq" = .ok seq)
    (hn : equalsInt py seq n = true) (hprev : item r "prev_hash" = .ok (.str prev))
    (hplain : Plain prev) :
    (∃ input h, recordInput r = .ok input ∧ digest py input = .ok h) ↔
      ∀ name ∈ hashedFields, ∃ v, item r name = .ok v ∧
        Plain (v.sortKeys.render py.toFloatOps) := by
  simp only [hashedFields, List.forall_mem_cons]
  constructor
  · rintro ⟨input, h, hinput, hdigest⟩
    obtain ⟨seq', tsNs, runId, event, actor, payload, prevHash, -, htsNs, hrunId, hevent, hactor,
      hpayload, -, rfl⟩ := recordInput_eq hinput
    obtain ⟨bytes, hbytes, -⟩ := bind_eq_ok.1 hdigest
    obtain ⟨j, cs, himage, hcs, -⟩ := digestBytes_cases py hbytes
    rw [image_recordInput] at himage
    cases himage
    obtain ⟨hactor', hevent', hpayload', -, hrunId', -, htsNs'⟩ :=
      (plain_bodyJson_fields py).1 ⟨cs, hcs.symm⟩
    exact ⟨⟨tsNs, htsNs, htsNs'⟩, ⟨runId, hrunId, hrunId'⟩, ⟨event, hevent, hevent'⟩,
      ⟨actor, hactor, hactor'⟩, ⟨payload, hpayload, hpayload'⟩, by simp⟩
  · rintro ⟨⟨tsNs, htsNs, htsNs'⟩, ⟨runId, hrunId, hrunId'⟩, ⟨event, hevent, hevent'⟩,
      ⟨actor, hactor, hactor'⟩, ⟨payload, hpayload, hpayload'⟩, -⟩
    have hlink : Plain ((Json.str prev : Json F).sortKeys.render py.toFloatOps) :=
      plain_renderString.2 hplain
    obtain ⟨cs, hcs⟩ := (plain_bodyJson_fields py).2
      ⟨hactor', hevent', hpayload', hlink, hrunId', plain_of_equalsInt py hn, htsNs'⟩
    refine ⟨_, _, ?_, digest_eq py (image_recordInput py) hcs.symm⟩
    rw [recordInput, hseq, htsNs, hrunId, hevent, hactor, hpayload, hprev]
    rfl

/-! ## One bad record -/

variable {members : List (Text × Json F)}

theorem marked_obj :
    Marked py (.obj members) ↔
      truthy py ((members.lookup (Text.ofString "__unparseable__")).getD .null) = true := by
  cases hlookup : members.lookup (Text.ofString "__unparseable__") with
  | none =>
      refine iff_of_false ?_ ?_
      · rintro ⟨marker, hitem, -⟩
        rw [item_obj, hlookup] at hitem
        cases hitem
      · exact Bool.false_ne_true
  | some marker =>
      constructor
      · rintro ⟨marker', hitem, htruthy⟩
        rw [item_obj, hlookup] at hitem
        cases hitem
        exact htruthy
      · intro htruthy
        exact ⟨marker, item_obj.2 hlookup, htruthy⟩

theorem checkRecord_marked (hmarked : Marked py (.obj members)) (verdict : Verdict F) :
    checkRecord py n prev (.obj members) = .ok (.inl verdict) ↔
      ∃ line, item (.obj members) "__line__" = .ok line ∧ verdict = .unparseable line := by
  rw [marked_obj] at hmarked
  unfold checkRecord
  simp only [hmarked, if_true]
  constructor
  · intro hcheck
    obtain ⟨line, hline, hverdict⟩ := bind_eq_ok.1 hcheck
    cases hverdict
    exact ⟨line, hline, rfl⟩
  · rintro ⟨line, hline, rfl⟩
    rw [hline]
    rfl

theorem checkRecord_missing (hmarked : ¬ Marked py (.obj members))
    (hmissing : ∀ seq hash, item (.obj members) "seq" = .ok seq →
      item (.obj members) "hash" ≠ .ok hash) :
    checkRecord py n prev (.obj members) = .ok (.inl .missingField) := by
  rw [marked_obj] at hmarked
  unfold checkRecord
  simp only [hmarked, Bool.false_eq_true, if_false]
  split
  next seq hash hseq hhash => exact absurd (item_obj.2 hhash) (hmissing seq hash (item_obj.2 hseq))
  next => rfl

theorem checkRecord_unmarked {seq hash : Json F} (hmarked : ¬ Marked py (.obj members))
    (hseq : item (.obj members) "seq" = .ok seq) (hhash : item (.obj members) "hash" = .ok hash)
    (verdict : Verdict F) :
    checkRecord py n prev (.obj members) = .ok (.inl verdict) ↔
      (equalsInt py seq n = false ∧ verdict = .sequenceGap n seq) ∨
        equalsInt py seq n = true ∧ ∃ prevHash, item (.obj members) "prev_hash" = .ok prevHash ∧
          ((equalsText prevHash prev = false ∧ verdict = .linkMismatch seq) ∨
            equalsText prevHash prev = true ∧ ∃ input h, recordInput (.obj members) = .ok input ∧
              digest py input = .ok h ∧ equalsText hash h = false ∧
              verdict = .hashMismatch seq) := by
  rw [marked_obj] at hmarked
  unfold checkRecord
  simp only [hmarked, item_obj.1 hseq, item_obj.1 hhash, Bool.false_eq_true, if_false]
  constructor
  · intro hcheck
    split at hcheck
    next hn =>
      cases hcheck
      exact Or.inl ⟨by simpa using hn, rfl⟩
    next hn =>
      obtain ⟨prevHash, hprev, hcheck⟩ := bind_eq_ok.1 hcheck
      refine Or.inr ⟨by simpa using hn, prevHash, hprev, ?_⟩
      split at hcheck
      next hlink =>
        cases hcheck
        exact Or.inl ⟨by simpa using hlink, rfl⟩
      next hlink =>
        obtain ⟨input, hinput, hcheck⟩ := bind_eq_ok.1 hcheck
        obtain ⟨h, hdigest, hcheck⟩ := bind_eq_ok.1 hcheck
        refine Or.inr ⟨by simpa using hlink, input, h, hinput, hdigest, ?_⟩
        split at hcheck
        next hsame =>
          cases hcheck
          exact ⟨by simpa using hsame, rfl⟩
        next hsame => cases hcheck
  · rintro (⟨hn, rfl⟩ | ⟨hn, prevHash, hprev, hrest⟩)
    · rw [hn]
      rfl
    · rw [hn, hprev]
      rcases hrest with ⟨hlink, rfl⟩ | ⟨hlink, input, h, hinput, hdigest, hsame, rfl⟩
      · simp only [bind, Except.bind, hlink]
        rfl
      · simp only [bind, Except.bind, hlink, hinput, hdigest, hsame]
        rfl

theorem shaped_of_names {verdict : Verdict F}
    (hlink : Plain link) (hcheck : checkRecord py m link bad = .ok (.inl verdict))
    (hnames : verdict.Names py m lineno) : Shaped py m link lineno bad := by
  obtain ⟨members, rfl⟩ : ∃ members, bad = .obj members := by
    cases bad with
    | obj members => exact ⟨members, rfl⟩
    | _ => cases hcheck
  by_cases hmarked : Marked py (.obj members)
  · obtain ⟨line, hline, rfl⟩ := (checkRecord_marked py hmarked verdict).1 hcheck
    exact ⟨⟨members, rfl⟩, fun _ => hnames ▸ hline, fun h => absurd hmarked h,
      fun h => absurd hmarked h, fun h => absurd hmarked h⟩
  by_cases hmissing : ∀ seq hash, item (.obj members) "seq" = .ok seq →
      item (.obj members) "hash" ≠ .ok hash
  · rw [checkRecord_missing py hmarked hmissing] at hcheck
    cases hcheck
    cases hnames
  push Not at hmissing
  obtain ⟨seq, hash, hseq, hhash⟩ := hmissing
  refine ⟨⟨members, rfl⟩, fun h => absurd h hmarked, fun _ => ⟨⟨seq, hseq⟩, hash, hhash⟩, ?_, ?_⟩
  all_goals
    -- The number is the expected one, so the walk went on to the link.
    rintro - ⟨seq', hseq', hn⟩
    cases hseq.symm.trans hseq'
    rcases (checkRecord_unmarked py hmarked hseq hhash verdict).1 hcheck with ⟨hn', -⟩ |
      ⟨-, prevHash, hprev, hrest⟩
    · rw [hn] at hn'
      cases hn'
  · exact ⟨prevHash, hprev⟩
  · intro hprev'
    cases hprev.symm.trans hprev'
    rcases hrest with ⟨hdiffers, -⟩ | ⟨-, input, h, hinput, hdigest, -⟩
    · rw [equalsText_iff.2 rfl] at hdiffers
      cases hdiffers
    · exact (hashed_iff py hseq hn hprev hlink).1 ⟨input, h, hinput, hdigest⟩

theorem names_of_shaped (hlink : Plain link)
    (hfails : ∀ h, ¬ Checked py m link bad h) (hshaped : Shaped py m link lineno bad) :
    ∃ verdict, checkRecord py m link bad = .ok (.inl verdict) ∧ verdict.Names py m lineno := by
  obtain ⟨⟨members, rfl⟩, hline, hnumbered, hlinked, hhashed⟩ := hshaped
  by_cases hmarked : Marked py (.obj members)
  · exact ⟨_, (checkRecord_marked py hmarked _).2 ⟨_, hline hmarked, rfl⟩, rfl⟩
  obtain ⟨⟨seq, hseq⟩, hash, hhash⟩ := hnumbered hmarked
  have hcheck : ∀ verdict, checkRecord py m link (.obj members) = .ok (.inl verdict) ↔ _ :=
    checkRecord_unmarked py hmarked hseq hhash
  by_cases hn : equalsInt py seq m = true
  · obtain ⟨prevHash, hprev⟩ := hlinked hmarked ⟨seq, hseq, hn⟩
    by_cases hsame : prevHash = .str link
    · subst hsame
      obtain ⟨input, h, hinput, hdigest⟩ := (hashed_iff py hseq hn hprev hlink).2
        (hhashed hmarked ⟨seq, hseq, hn⟩ hprev)
      have hdiffers : equalsText hash h = false := by
        by_contra heq
        rw [Bool.not_eq_false, equalsText_iff] at heq
        refine hfails h ⟨fun marker hmarker => ?_, ⟨seq, hseq, hn⟩, hprev, heq ▸ hhash, input,
          hinput, hdigest⟩
        exact Bool.eq_false_of_not_eq_true fun htruthy => hmarked ⟨marker, hmarker, htruthy⟩
      exact ⟨.hashMismatch seq, (hcheck _).2 (Or.inr ⟨hn, _, hprev, Or.inr
        ⟨equalsText_iff.2 rfl, input, h, hinput, hdigest, hdiffers, rfl⟩⟩), hn⟩
    · have hdiffers : equalsText prevHash link = false :=
        Bool.eq_false_of_not_eq_true fun heq => hsame (equalsText_iff.1 heq)
      exact ⟨.linkMismatch seq, (hcheck _).2 (Or.inr ⟨hn, prevHash, hprev, Or.inl
        ⟨hdiffers, rfl⟩⟩), hn⟩
  · have hother : equalsInt py seq m = false := Bool.eq_false_of_not_eq_true hn
    exact ⟨.sequenceGap m seq, (hcheck _).2 (Or.inl ⟨hother, rfl⟩), rfl⟩

/-! ## A whole journal -/

theorem verify_eq_ok_iff {file : Bytes} {m : ℤ} {link : Text} {lineno : ℕ} {bad : Json F}
    (hbad : FirstBad py 1 genesis (numberedRecords py file) m link lineno bad)
    (verdict : Verdict F) :
    verify py file = .ok verdict ↔ checkRecord py m link bad = .ok (.inl verdict) := by
  rw [verify, ← map_snd_numberedRecords]
  exact hbad.verifyFrom_eq_ok_iff verdict

theorem isOk_eq_false {verdict : Verdict F}
    (hcheck : checkRecord py m link bad = .ok (.inl verdict)) : verdict.isOk = false := by
  rcases checkRecord_cases py hcheck with ⟨verdict', heq, hbad⟩ | ⟨h, heq, -⟩
  · cases heq
    exact hbad
  · cases heq

/-- `verify` reports a journal, and names its first bad record, exactly when
that record has what the check of one record takes for granted. -/
theorem reports_iff :
    Reports py file ↔ ∀ m link lineno bad,
      FirstBad py 1 genesis (numberedRecords py file) m link lineno bad →
        Shaped py m link lineno bad := by
  constructor
  · rintro ⟨verdict, hverify, hall⟩ m link lineno bad hbad
    have hcheck := (verify_eq_ok_iff py hbad verdict).1 hverify
    exact shaped_of_names py (hbad.plain_link (plain_ofChars _)) hcheck
      (hall m link lineno bad hbad).2
  · intro hshaped
    rcases walked_or_firstBad py 1 genesis (numberedRecords py file) with
      hwalked | ⟨m, link, lineno, bad, hbad⟩
    · rw [map_snd_numberedRecords] at hwalked
      obtain ⟨n, hverify⟩ := (verifies_iff py).2 hwalked
      refine ⟨.intact n, hverify, fun m link lineno bad hbad => ?_⟩
      have hok := isOk_eq_false py ((verify_eq_ok_iff py hbad _).1 hverify)
      cases hok
    · obtain ⟨verdict, hcheck, -⟩ := names_of_shaped py (hbad.plain_link (plain_ofChars _))
        hbad.not_checked (hshaped m link lineno bad hbad)
      have hverify := (verify_eq_ok_iff py hbad verdict).2 hcheck
      refine ⟨verdict, hverify, fun m' link' lineno' bad' hbad' => ?_⟩
      have hcheck' := (verify_eq_ok_iff py hbad' verdict).1 hverify
      obtain ⟨verdict', hnamed, hnames⟩ := names_of_shaped py
        (hbad'.plain_link (plain_ofChars _)) hbad'.not_checked
        (hshaped m' link' lineno' bad' hbad')
      cases hnamed.symm.trans hcheck'
      exact ⟨isOk_eq_false py hcheck', hnames⟩

def strayLine : Bytes := Utf8.encode ['5', '\n']

theorem strayLine_not_reported : ¬ Reports hexPython strayLine := by
  rintro ⟨verdict, hverify, -⟩
  have hlines : (linesOf (universalNewlines ['5', '\n'])).map strip = [['5']] := rfl
  have hrecords : iterRecords hexPython strayLine = [.int 5] :=
    iterRecords_of_strip hexPython hlines (by simp)
  rw [verify, hrecords] at hverify
  cases hverify

end Audit
end Sentinel
