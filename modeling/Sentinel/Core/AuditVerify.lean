import Sentinel.Core.AuditRecords

/-!
# What the journal wrote, verified

The digest is taken of the record in memory and taken again of the record read
back from its line.  Keys of a mapping are sorted as the objects they are the
first time and as their texts the second, so the two agree exactly when the
texts of the keys are in order.

The lines `iter_records` finds, what one record passes in the walk of `verify`,
and that a written line is read back as the record it was written from.
-/

namespace Sentinel
namespace Audit

open Chars

variable {F : Type} (py : Python F)

/-! ## Lines -/

def ofLines (lines : List (List Char)) : List Char := lines.flatMap fun line => line ++ ['\n']

@[simp] theorem ofLines_cons (line : List Char) (lines : List (List Char)) :
    ofLines (line :: lines) = line ++ '\n' :: ofLines lines := by
  simp [ofLines]

theorem ofLines_append (lines lines' : List (List Char)) :
    ofLines (lines ++ lines') = ofLines lines ++ ofLines lines' :=
  List.flatMap_append

variable (ws : List (Written py))

theorem text_eq_ofLines : Written.text py ws = ofLines (ws.map fun w => w.line) := by
  rw [Written.text, ofLines]
  rw [List.flatMap_map]

structure IsLine (line : List Char) : Prop where
  inLine : ∀ c ∈ line, c ≠ '\n' ∧ c ≠ '\r'
  enclosed : ∃ body, line = '{' :: (body ++ ['}'])

variable {line : List Char}

theorem universalNewlines_append (h : ∀ c ∈ line, c ≠ '\n' ∧ c ≠ '\r')
    (rest : List Char) : universalNewlines (line ++ rest) = line ++ universalNewlines rest := by
  induction line with
  | nil => rfl
  | cons c line ih =>
      obtain ⟨⟨-, hreturn⟩, hline⟩ := List.forall_mem_cons.1 h
      rw [List.cons_append, List.cons_append, ← ih hline]
      exact universalNewlines.eq_3 c (line ++ rest) (fun _ hc _ => hreturn hc) hreturn

theorem universalNewlines_self (h : ∀ c ∈ line, c ≠ '\n' ∧ c ≠ '\r') :
    universalNewlines line = line := by
  have hend := universalNewlines_append h []
  rwa [List.append_nil, universalNewlines, List.append_nil] at hend

theorem linesOf_append (h : ∀ c ∈ line, c ≠ '\n' ∧ c ≠ '\r')
    (rest : List Char) : linesOf (line ++ '\n' :: rest) = (line ++ ['\n']) :: linesOf rest := by
  induction line with
  | nil => rfl
  | cons c line ih =>
      obtain ⟨⟨hfeed, -⟩, hline⟩ := List.forall_mem_cons.1 h
      rw [List.cons_append, linesOf, if_neg hfeed, ih hline]
      rfl

theorem linesOf_single (h : ∀ c ∈ line, c ≠ '\n' ∧ c ≠ '\r')
    (hne : line ≠ []) : linesOf line = [line] := by
  induction line with
  | nil => exact absurd rfl hne
  | cons c line ih =>
      obtain ⟨⟨hfeed, -⟩, hline⟩ := List.forall_mem_cons.1 h
      rw [linesOf, if_neg hfeed]
      cases line with
      | nil => rfl
      | cons d line => rw [ih hline (List.cons_ne_nil d line)]

variable {lines : List (List Char)}

theorem linesOf_ofLines (h : ∀ line ∈ lines, IsLine line)
    (rest : List Char) :
    linesOf (universalNewlines (ofLines lines ++ rest)) =
      (lines.map fun line => line ++ ['\n']) ++ linesOf (universalNewlines rest) := by
  induction lines with
  | nil => rfl
  | cons line lines ih =>
      obtain ⟨hline, hlines⟩ := List.forall_mem_cons.1 h
      have hfeed : universalNewlines ('\n' :: (ofLines lines ++ rest)) =
          '\n' :: universalNewlines (ofLines lines ++ rest) := rfl
      rw [ofLines_cons, List.append_assoc, List.cons_append,
        universalNewlines_append hline.inLine, hfeed, linesOf_append hline.inLine, ih hlines]
      rfl

theorem strip_line (h : IsLine line) : strip (line ++ ['\n']) = line := by
  obtain ⟨body, rfl⟩ := h.enclosed
  have hopen : isSpace '{' = false := rfl
  have hclose : isSpace '}' = false := rfl
  have hfeed : isSpace '\n' = true := rfl
  simp [strip, hopen, hclose, hfeed]

theorem IsLine.ne_nil (h : IsLine line) : line ≠ [] := by
  obtain ⟨body, rfl⟩ := h.enclosed
  exact List.cons_ne_nil _ _

theorem strip_last (h : IsLine line) : strip line = line := by
  obtain ⟨body, rfl⟩ := h.enclosed
  have hopen : isSpace '{' = false := rfl
  have hclose : isSpace '}' = false := rfl
  simp [strip, hopen, hclose]

theorem map_strip (h : ∀ line ∈ lines, IsLine line) :
    (lines.map fun line => line ++ ['\n']).map strip = lines := by
  rw [List.map_map]
  calc lines.map (strip ∘ fun line => line ++ ['\n']) = lines.map id :=
        List.map_congr_left fun line hline => strip_line (h line hline)
    _ = lines := List.map_id lines

theorem iterRecords_of_strip {text : List Char} {lines : List (List Char)}
    (hlines : (linesOf (universalNewlines text)).map strip = lines)
    (hne : ∀ line ∈ lines, line ≠ []) :
    iterRecords py (Utf8.encode text) = (lines.zipIdx 1).map fun line =>
      (Json.loads py.toFloatOps (Text.ofChars line.1)).getD (sentinelLine line.2) := by
  subst hlines
  rw [iterRecords]
  rw [Utf8.decodeReplace_encode, List.zipIdx_map, List.map_map, ← List.filterMap_eq_map]
  refine List.filterMap_congr fun numbered hnumbered => ?_
  have hmem := List.mem_map_of_mem (f := strip) (List.fst_mem_of_mem_zipIdx hnumbered)
  simp only [Function.comp_apply, Prod.map, id_eq, if_neg (hne _ hmem)]

theorem iterRecords_ofLines (h : ∀ line ∈ lines, IsLine line) :
    iterRecords py (Utf8.encode (ofLines lines)) =
      (lines.zipIdx 1).map fun line =>
        (Json.loads py.toFloatOps (Text.ofChars line.1)).getD (sentinelLine line.2) := by
  refine iterRecords_of_strip py ?_ fun line hline => (h line hline).ne_nil
  have hlines := linesOf_ofLines h []
  rw [List.append_nil] at hlines
  rw [hlines, universalNewlines, linesOf, List.append_nil, map_strip h]

theorem iterRecords_unended {last : List Char}
    (h : ∀ line ∈ lines, IsLine line) (hlast : IsLine last) :
    iterRecords py (Utf8.encode (ofLines lines ++ last)) =
      iterRecords py (Utf8.encode (ofLines (lines ++ [last]))) := by
  have hall : ∀ line ∈ lines ++ [last], IsLine line :=
    List.forall_mem_append.2 ⟨h, by simpa using hlast⟩
  rw [iterRecords_ofLines py hall]
  refine iterRecords_of_strip py ?_ fun line hline => (hall line hline).ne_nil
  rw [linesOf_ofLines h, universalNewlines_self hlast.inLine,
    linesOf_single hlast.inLine hlast.ne_nil, List.map_append, map_strip h, List.map_singleton,
    strip_last hlast]

/-! ## Written lines -/

variable (w : Written py)

theorem isLine_written : IsLine w.line := by
  refine ⟨fun c hc => ?_, ?_⟩
  · have hmem : Point.scalar c ∈ (lineJson w.record w.plain).render py.toFloatOps :=
      w.line_eq ▸ List.mem_map_of_mem hc
    obtain ⟨hfeed, hreturn⟩ := Json.inLine_render py.toFloatOps _ _ hmem
    exact ⟨fun heq => hfeed (by rw [heq]), fun heq => hreturn (by rw [heq])⟩
  · obtain ⟨body, hbody⟩ := Json.render_obj_enclosed py.toFloatOps _
    have hline : Text.ofChars w.line = .scalar '{' :: (body ++ [.scalar '}']) :=
      w.line_eq.trans hbody
    obtain ⟨chars, rfl⟩ : Plain body := by
      have hplain : Plain (.scalar '{' :: (body ++ [.scalar '}'])) := ⟨w.line, hline.symm⟩
      exact (plain_append.1 (plain_cons.1 hplain)).1
    refine ⟨chars, ofChars_injective (hline.trans ?_)⟩
    simp [Text.ofChars]

theorem isLine_lines : ∀ line ∈ ws.map (fun w => w.line), IsLine line := by
  intro line hline
  obtain ⟨w, -, rfl⟩ := List.mem_map.1 hline
  exact isLine_written py w

theorem reload_lineJson (r : AuditRecord F) (payload : Json F) :
    (lineJson r payload).reload = lineJson r payload.reload := by
  simp only [lineJson, Json.reload, Json.reloadMembers]
  exact congrArg Json.obj (Json.collect_of_nodup (by simp only [List.map]; decide))

def Written.readBack : Json F := lineJson w.record w.plain.reload

theorem loads_line : Json.loads py.toFloatOps (Text.ofChars w.line) = some (w.readBack py) := by
  rw [w.line_eq, Json.loads_render, reload_lineJson]
  rfl

theorem iterRecords_text :
    iterRecords py (Utf8.encode (Written.text py ws)) = ws.map (Written.readBack py) := by
  rw [text_eq_ofLines, iterRecords_ofLines py (isLine_lines py ws), List.zipIdx_map,
    List.map_map]
  have hmap : ∀ numbered : Written py × ℕ,
      (Json.loads py.toFloatOps (Text.ofChars numbered.1.line)).getD (sentinelLine numbered.2) =
        numbered.1.readBack py := fun numbered => by
    rw [loads_line]
    rfl
  calc (ws.zipIdx 1).map _ = (ws.zipIdx 1).map fun numbered => numbered.1.readBack py :=
        List.map_congr_left fun numbered _ => hmap numbered
    _ = ((ws.zipIdx 1).map Prod.fst).map (Written.readBack py) := by
        rw [List.map_map]
        rfl
    _ = ws.map (Written.readBack py) := by rw [List.zipIdx_map_fst]

/-! ## What a record passes -/

structure Checked (n : ℤ) (prev : Text) (r : Json F) (h : Text) : Prop where
  parsed : ∀ marker, item r "__unparseable__" = .ok marker → truthy py marker = false
  seq : ∃ seq, item r "seq" = .ok seq ∧ equalsInt py seq n = true
  prevHash : item r "prev_hash" = .ok (.str prev)
  hash : item r "hash" = .ok (.str h)
  digest : ∃ input, recordInput r = .ok input ∧ digest py input = .ok h

theorem equalsText_iff {v : Json F} {s : Text} : equalsText v s = true ↔ v = .str s := by
  cases v <;> simp [equalsText]

theorem item_obj {members : List (Text × Json F)} {name : String} {v : Json F} :
    item (.obj members) name = .ok v ↔ members.lookup (Text.ofString name) = some v := by
  cases hlookup : members.lookup (Text.ofString name) with
  | none => simp [item, hlookup]
  | some w => simp [item, hlookup]

theorem recordInput_eq {r : Json F} {input : PyVal F} (h : recordInput r = .ok input) :
    ∃ seq tsNs runId event actor payload prevHash,
      item r "seq" = .ok seq ∧ item r "ts_ns" = .ok tsNs ∧ item r "run_id" = .ok runId ∧
      item r "event" = .ok event ∧ item r "actor" = .ok actor ∧
      item r "payload" = .ok payload ∧ item r "prev_hash" = .ok prevHash ∧
      input = digestInput (.ofJson seq) (.ofJson tsNs) (.ofJson runId) (.ofJson event)
        (.ofJson actor) (.ofJson payload) (.ofJson prevHash) := by
  obtain ⟨seq, hseq, h⟩ := bind_eq_ok.1 h
  obtain ⟨tsNs, htsNs, h⟩ := bind_eq_ok.1 h
  obtain ⟨runId, hrunId, h⟩ := bind_eq_ok.1 h
  obtain ⟨event, hevent, h⟩ := bind_eq_ok.1 h
  obtain ⟨actor, hactor, h⟩ := bind_eq_ok.1 h
  obtain ⟨payload, hpayload, h⟩ := bind_eq_ok.1 h
  obtain ⟨prevHash, hprevHash, h⟩ := bind_eq_ok.1 h
  cases h
  exact ⟨seq, tsNs, runId, event, actor, payload, prevHash, hseq, htsNs, hrunId, hevent, hactor,
    hpayload, hprevHash, rfl⟩

variable {n : ℤ} {prev : Text}

theorem checkRecord_cases {r : Json F} {x : Verdict F ⊕ Text}
    (hcheck : checkRecord py n prev r = .ok x) :
    (∃ verdict, x = .inl verdict ∧ verdict.isOk = false) ∨
      ∃ h, x = .inr h ∧ Checked py n prev r h := by
  cases r with
  | obj members =>
      unfold checkRecord at hcheck
      simp only [] at hcheck
      split at hcheck
      · obtain ⟨line, -, hline⟩ := bind_eq_ok.1 hcheck
        cases hline
        exact Or.inl ⟨_, rfl, rfl⟩
      next hmarker =>
      split at hcheck
      next seq hash hseq hhash =>
        split at hcheck
        · cases hcheck
          exact Or.inl ⟨_, rfl, rfl⟩
        next hexpected =>
        obtain ⟨prevHash, hprev, hcheck⟩ := bind_eq_ok.1 hcheck
        split at hcheck
        · cases hcheck
          exact Or.inl ⟨_, rfl, rfl⟩
        next hlink =>
        obtain ⟨input, hinput, hcheck⟩ := bind_eq_ok.1 hcheck
        obtain ⟨h, hdigest, hcheck⟩ := bind_eq_ok.1 hcheck
        split at hcheck
        · cases hcheck
          exact Or.inl ⟨_, rfl, rfl⟩
        next hsame =>
        cases hcheck
        simp only [Bool.not_eq_true', Bool.not_eq_false] at hexpected hlink hsame
        rw [equalsText_iff] at hlink hsame
        subst hlink hsame
        refine Or.inr ⟨h, rfl, fun marker hitem => ?_, ⟨seq, item_obj.2 hseq, hexpected⟩, hprev,
          item_obj.2 hhash, input, hinput, hdigest⟩
        rw [item_obj.1 hitem] at hmarker
        simpa using hmarker
      · cases hcheck
        exact Or.inl ⟨_, rfl, rfl⟩
  | _ => cases hcheck

theorem Checked.checkRecord_eq {r : Json F} {h : Text}
    (hchecked : Checked py n prev r h) : checkRecord py n prev r = .ok (.inr h) := by
  cases r with
  | obj members =>
      obtain ⟨hparsed, ⟨seq, hseq, hexpected⟩, hprev, hhash, input, hinput, hdigest⟩ := hchecked
      have hmarker : truthy py
          ((members.lookup (Text.ofString "__unparseable__")).getD .null) = false := by
        cases hlookup : members.lookup (Text.ofString "__unparseable__") with
        | none => rfl
        | some marker => exact hparsed marker (item_obj.2 hlookup)
      have hlink : equalsText (.str prev : Json F) prev = true := equalsText_iff.2 rfl
      have hsame : equalsText (.str h : Json F) h = true := equalsText_iff.2 rfl
      rw [checkRecord]
      simp [hmarker, item_obj.1 hseq, item_obj.1 hhash, hexpected, hprev, hinput, hdigest, hlink,
        hsame, bind, Except.bind, pure, Except.pure]
  | _ => cases hchecked.prevHash

/-! ## The walk -/

def Walked : ℤ → Text → List (Json F) → Prop
  | _, _, [] => True
  | n, prev, r :: rs => ∃ h, Checked py n prev r h ∧ Walked (n + 1) h rs

theorem verifyFrom_eq_intact_iff {n m : ℤ} {prev : Text} {rs : List (Json F)} :
    verifyFrom py n prev rs = .ok (.intact m) ↔ Walked py n prev rs ∧ m = n - 1 + rs.length := by
  induction rs generalizing n prev with
  | nil => simp [verifyFrom, Walked, eq_comm]
  | cons r rs ih =>
      have hlength : n + 1 - 1 + (rs.length : ℤ) = n - 1 + ((r :: rs).length : ℕ) := by
        rw [List.length_cons]
        omega
      constructor
      · intro hverify
        rw [verifyFrom] at hverify
        obtain ⟨x, hcheck, hrest⟩ := bind_eq_ok.1 hverify
        rcases checkRecord_cases py hcheck with ⟨verdict, rfl, hbad⟩ | ⟨h, rfl, hchecked⟩
        · cases hrest
          cases hbad
        · obtain ⟨hwalked, hm⟩ := ih.1 hrest
          exact ⟨⟨h, hchecked, hwalked⟩, hm.trans hlength⟩
      · rintro ⟨⟨h, hchecked, hwalked⟩, hm⟩
        rw [verifyFrom, hchecked.checkRecord_eq]
        exact ih.2 ⟨hwalked, hm.trans hlength.symm⟩

/-- `verify` reports the file ok. -/
def Verifies (file : Bytes) : Prop := ∃ n, verify py file = .ok (.intact n)

theorem verifies_iff {file : Bytes} :
    Verifies py file ↔ Walked py 1 genesis (iterRecords py file) := by
  constructor
  · rintro ⟨n, hverify⟩
    exact ((verifyFrom_eq_intact_iff py).1 hverify).1
  · intro hwalked
    exact ⟨_, (verifyFrom_eq_intact_iff py).2 ⟨hwalked, rfl⟩⟩

theorem not_checked_sentinelLine (lineno : ℕ) {n : ℤ} {prev h : Text} :
    ¬ Checked py n prev (sentinelLine lineno) h := by
  intro hchecked
  have hmarker := hchecked.parsed (.bool true) rfl
  cases hmarker

theorem Walked.exists_checked {rs : List (Json F)}
    (hwalked : Walked py n prev rs) {r : Json F} (hr : r ∈ rs) :
    ∃ m prev' h, Checked py m prev' r h := by
  induction rs generalizing n prev with
  | nil => cases hr
  | cons r' rs ih =>
      obtain ⟨h, hchecked, hrest⟩ := hwalked
      rcases List.mem_cons.1 hr with rfl | hr
      · exact ⟨n, prev, h, hchecked⟩
      · exact ih hrest hr

/-! ## A written record, read back -/

def Written.readInput : PyVal F :=
  digestInput (.int w.record.seq) (.int w.record.tsNs) (.str w.record.runId)
    (.str w.record.event) (.str w.record.actor) (.ofJson w.plain.reload) (.str w.record.prevHash)

theorem recordInput_readBack : recordInput (w.readBack py) = .ok (w.readInput py) := rfl

theorem image_readInput :
    (w.readInput py).image py.toFloatOps true =
      some (bodyJson (.int w.record.seq) (.int w.record.tsNs) (.str w.record.runId)
        (.str w.record.event) (.str w.record.actor) w.plain.reload.sortKeys
        (.str w.record.prevHash)) :=
  image_digestInput py rfl rfl rfl rfl rfl (PyVal.image_ofJson py.toFloatOps _) rfl

theorem checked_readBack_iff {n : ℤ} {prev h : Text} :
    Checked py n prev (w.readBack py) h ↔
      w.record.seq = n ∧ w.record.prevHash = prev ∧ w.record.hash = h ∧
        digest py (w.readInput py) = .ok h := by
  constructor
  · rintro ⟨-, ⟨seq, hseq, hexpected⟩, hprev, hhash, input, hinput, hdigest⟩
    cases hseq
    cases hprev
    cases hhash
    cases hinput
    exact ⟨by simpa [equalsInt] using hexpected, rfl, rfl, hdigest⟩
  · rintro ⟨rfl, rfl, rfl, hdigest⟩
    refine ⟨fun marker hmarker => ?_, ⟨.int w.record.seq, rfl, by simp [equalsInt]⟩, rfl, rfl,
      _, recordInput_readBack py w, hdigest⟩
    cases hmarker

theorem walked_readBack_iff {ws : List (Written py)}
    (hchained : Written.Chained py n prev ws) :
    Walked py n prev (ws.map (Written.readBack py)) ↔
      ∀ w ∈ ws, digest py (w.readInput py) = .ok w.record.hash := by
  induction ws generalizing n prev with
  | nil => simp [Walked]
  | cons w ws ih =>
      obtain ⟨hseq, hprev, hchained⟩ := hchained
      rw [List.map_cons, List.forall_mem_cons, ← ih hchained]
      constructor
      · rintro ⟨h, hchecked, hwalked⟩
        obtain ⟨-, -, rfl, hdigest⟩ := (checked_readBack_iff py w).1 hchecked
        exact ⟨hdigest, hwalked⟩
      · rintro ⟨hdigest, hwalked⟩
        exact ⟨_, (checked_readBack_iff py w).2 ⟨hseq, hprev, rfl, hdigest⟩, hwalked⟩

end Audit
end Sentinel

namespace Sentinel
namespace Audit

variable {F : Type} (py : Python F)

def writtenInput (r : AuditRecord F) : PyVal F :=
  digestInput (.int r.seq) (.int r.tsNs) (.str r.runId) (.str r.event) (.str r.actor) r.payload
    (.str r.prevHash)

/-- The encodings `append` hashed for these records. -/
def digested (records : List (AuditRecord F)) : Set Bytes :=
  {bytes | ∃ r ∈ records, digestBytes py (writtenInput r) = .ok bytes}

/-- The encodings `verify` can hash for the records of a file. -/
def recomputed (file : Bytes) : Set Bytes :=
  {bytes | ∃ r ∈ iterRecords py file, ∃ input,
    recordInput r = .ok input ∧ digestBytes py input = .ok bytes}

variable (w : Written py)

theorem mem_digested {ws : List (Written py)} (hw : w ∈ ws) :
    Utf8.encode w.body ∈ digested py (ws.map fun w => w.record) := by
  refine ⟨w.record, List.mem_map_of_mem hw, digestBytes_eq py ?_ w.body_eq⟩
  exact image_digestInput py rfl rfl rfl rfl rfl w.image_sorted rfl

/-! ## An interpreter -/

def literalValue (l : FloatLiteral) : ℚ :=
  let unsigned : ℚ := l.whole + ofDecimal l.fraction / 10 ^ l.fraction.length
  let exponent : ℤ :=
    match l.exponent with
    | none => 0
    | some e =>
        if e.negative = some true then -ofDecimal (e.digit :: e.digits)
        else ofDecimal (e.digit :: e.digits)
  (if l.negative then -unsigned else unsigned) * 10 ^ exponent

def hexdigest (bytes : Bytes) : List Char :=
  bytes.flatMap fun b => [Json.hexDigit (b.toNat / 16), Json.hexDigit (b.toNat % 16)]

def hexPython : Python FloatText where
  text x := x
  read x := x
  value
    | .finite l => .finite (literalValue l)
    | .nan => .nan
    | .infinity => .infinity
    | .negInfinity => .negInfinity
  read_text _ := rfl
  sha256 := hexdigest
  intOf
    | .int n => .ok n
    | .bool b => .ok (if b then 1 else 0)
    | .str _ => .error .valueError
    | _ => .error .typeError
  strOf
    | .str s => s
    | _ => []
  intOf_int _ := rfl
  strOf_str _ := rfl

theorem hexDigit_inj {n m : ℕ} (hn : n < 16) (hm : m < 16)
    (h : Json.hexDigit n = Json.hexDigit m) : n = m := by
  have hvalue := Json.hexValue?_hexDigit hn
  rw [h, Json.hexValue?_hexDigit hm] at hvalue
  exact (Option.some.inj hvalue).symm

theorem hexdigest_injective : Function.Injective hexdigest := by
  intro bs
  induction bs with
  | nil =>
      intro bs' h
      cases bs' with
      | nil => rfl
      | cons b' bs' => cases h
  | cons b bs ih =>
      intro bs' h
      cases bs' with
      | nil => cases h
      | cons b' bs' =>
          simp only [hexdigest, List.flatMap_cons, List.cons_append, List.nil_append,
            List.cons.injEq] at h
          obtain ⟨hhigh, hlow, hrest⟩ := h
          have hb := b.toNat_lt
          have hb' := b'.toNat_lt
          have hhigh' := hexDigit_inj (by omega) (by omega) hhigh
          have hlow' := hexDigit_inj (by omega) (by omega) hlow
          have hbyte : b = b' := UInt8.toNat_inj.1 (by omega)
          rw [hbyte, ih hrest]

/-! ## One record -/

theorem image_readInput_iff :
    (∃ j, (w.readInput py).image py.toFloatOps true = some j ∧
        Text.ofChars w.body = j.render py.toFloatOps) ↔
      w.record.payload.KeysInOrder py.toFloatOps := by
  rw [← PyVal.sortKeys_reload_image_iff py.toFloatOps w.image_sorted w.image_plain,
    image_readInput]
  constructor
  · rintro ⟨j, himage, hbody⟩
    cases himage
    have hsame := Json.eq_of_render_eq py.toFloatOps _ _ (hbody.symm.trans w.body_eq)
    simp only [bodyJson, Json.obj.injEq, List.cons.injEq, Prod.mk.injEq, true_and,
      and_true] at hsame
    exact hsame
  · intro hsame
    exact ⟨_, rfl, by rw [hsame]; exact w.body_eq⟩

theorem digest_readInput_of_keysInOrder (h : w.record.payload.KeysInOrder py.toFloatOps) :
    digest py (w.readInput py) = .ok w.record.hash := by
  obtain ⟨j, himage, hbody⟩ := (image_readInput_iff py w).2 h
  rw [digest_eq py himage hbody, w.hash_eq]

theorem keysInOrder_of_digest_readInput {bytes : Set Bytes}
    (hinj : Set.InjOn py.sha256 bytes) (hbody : Utf8.encode w.body ∈ bytes)
    (hread : ∀ b, digestBytes py (w.readInput py) = .ok b → b ∈ bytes)
    (h : digest py (w.readInput py) = .ok w.record.hash) :
    w.record.payload.KeysInOrder py.toFloatOps := by
  obtain ⟨b, hb, hhash⟩ := bind_eq_ok.1 h
  obtain ⟨j, cs, himage, hcs, rfl⟩ := digestBytes_cases py hb
  have hsha : py.sha256 (Utf8.encode cs) = py.sha256 (Utf8.encode w.body) :=
    ofChars_injective ((Except.ok.inj hhash).trans w.hash_eq)
  have htext : cs = w.body := Utf8.encode_injective (hinj (hread _ hb) hbody hsha)
  exact (image_readInput_iff py w).1 ⟨j, himage, htext ▸ hcs⟩

/-! ## A whole journal -/

variable {log : AuditLog} {ws : List (Written py)}

theorem Holds.verifies_iff_digest (h : Holds py log ws) :
    Verifies py log.file ↔ ∀ w ∈ ws, digest py (w.readInput py) = .ok w.record.hash := by
  rw [verifies_iff, h.file, iterRecords_text, walked_readBack_iff py h.chained]

theorem Holds.verifies_of_keysInOrder
    (h : Holds py log ws) (hkeys : ∀ w ∈ ws, w.record.payload.KeysInOrder py.toFloatOps) :
    Verifies py log.file :=
  h.verifies_iff_digest.2 fun w hw => digest_readInput_of_keysInOrder py w (hkeys w hw)

theorem Holds.keysInOrder (h : Holds py log ws)
    {bytes : Set Bytes} (hinj : Set.InjOn py.sha256 bytes)
    (hread : ∀ b ∈ recomputed py log.file, b ∈ bytes) (hverifies : Verifies py log.file)
    {w : Written py} (hw : w ∈ ws) (hbody : Utf8.encode w.body ∈ bytes) :
    w.record.payload.KeysInOrder py.toFloatOps := by
  refine keysInOrder_of_digest_readInput py w hinj hbody (fun b hb => hread b ?_)
    (h.verifies_iff_digest.1 hverifies w hw)
  refine ⟨w.readBack py, ?_, _, recordInput_readBack py w, hb⟩
  rw [h.file, iterRecords_text]
  exact List.mem_map_of_mem hw

theorem Holds.verifies_iff (h : Holds py log ws)
    (hinj : Set.InjOn py.sha256
      (digested py (ws.map fun w => w.record) ∪ recomputed py log.file)) :
    Verifies py log.file ↔ ∀ w ∈ ws, w.record.payload.KeysInOrder py.toFloatOps := by
  refine ⟨fun hverifies w hw => ?_, h.verifies_of_keysInOrder py⟩
  exact h.keysInOrder py hinj (fun b hb => Or.inr hb) hverifies hw
    (Or.inl (mem_digested py w hw))

/-- What a sequence of calls writes is found intact exactly when, in every
mapping of every payload accepted, the texts of the keys are in the order of the
keys. -/
theorem verifies_appendAll_iff (entries : List (Entry F))
    (hinj : Set.InjOn py.sha256
      (digested py (appendAll py fresh entries).2 ∪
        recomputed py (appendAll py fresh entries).1.file)) :
    Verifies py (appendAll py fresh entries).1.file ↔
      ∀ e ∈ entries, Acceptable py e → e.payload.KeysInOrder py.toFloatOps := by
  obtain ⟨ws, hholds, hrecords, hpayloads⟩ := (Holds.fresh py).appendAll py entries
  rw [hrecords] at hinj
  rw [← hpayloads]
  exact hholds.verifies_iff py hinj

def namesEntry : Entry FloatText where
  event := systemStart
  actor := Text.ofString "system"
  payload := .dict [(key "mode", .str (Text.ofString "paper")), (key "build", .int 7)]
  tsNs := 0
  runId := Text.ofString "run"

theorem namesEntry_keysInOrder : namesEntry.payload.KeysInOrder hexPython.toFloatOps := by
  have hnames := @PyVal.namesIncrease_str FloatText hexPython.toFloatOps
    [(Text.ofString "mode", .null), (Text.ofString "build", .null)] (by decide)
  exact ⟨hnames, trivial, trivial, trivial⟩

theorem namesEntry_acceptable : Acceptable hexPython namesEntry := by
  let build : Text × Json FloatText := (Text.ofString "build", .int 7)
  let mode : Text × Json FloatText := (Text.ofString "mode", .str (Text.ofString "paper"))
  have hsorted : Plain ((Json.obj [build, mode]).render hexPython.toFloatOps) := by decide
  have hwritten : Plain ((Json.obj [mode, build]).render hexPython.toFloatOps) := by decide
  exact ⟨plain_ofChars _, plain_ofChars _, plain_ofChars _, ⟨_, rfl, hsorted⟩,
    ⟨_, rfl, hwritten⟩⟩

theorem verifies_appendAll_iff_namesEntry :
    Verifies hexPython (appendAll hexPython fresh [namesEntry]).1.file := by
  refine (verifies_appendAll_iff hexPython [namesEntry] hexdigest_injective.injOn).2 ?_
  intro e he _
  cases List.mem_singleton.1 he
  exact namesEntry_keysInOrder

def countsEntry : Entry FloatText where
  event := systemStart
  actor := Text.ofString "system"
  payload := .dict [(key "counts", .dict [(.int 9, .int 1), (.int 10, .int 2)])]
  tsNs := 0
  runId := Text.ofString "run"

theorem countsEntry_not_keysInOrder :
    ¬ countsEntry.payload.KeysInOrder hexPython.toFloatOps := by
  rintro ⟨-, ⟨⟨sorted, names, hsorted, hnames, hpairwise⟩, -⟩, -⟩
  have hsorted' : PyKey.sort? hexPython.toFloatOps id [PyKey.int 9, .int 10] =
      some [.int 9, .int 10] := rfl
  cases hsorted.symm.trans hsorted'
  have hnames' : PyKey.texts? hexPython.toFloatOps [PyKey.int 9, .int 10] =
      some [Text.ofString "9", Text.ofString "10"] := rfl
  cases hnames.symm.trans hnames'
  revert hpairwise
  decide

theorem countsEntry_acceptable : Acceptable hexPython countsEntry := by
  let image : Json FloatText := .obj [(Text.ofString "counts",
    .obj [(Text.ofString "9", .int 1), (Text.ofString "10", .int 2)])]
  have hplain : Plain (image.render hexPython.toFloatOps) := by decide
  exact ⟨plain_ofChars _, plain_ofChars _, plain_ofChars _, ⟨image, rfl, hplain⟩,
    ⟨image, rfl, hplain⟩⟩

/-- A record `append` writes and `verify` rejects. -/
theorem verify_rejects_countsEntry :
    ∃ log r, append hexPython fresh countsEntry = .ok (log, r) ∧
      ¬ Verifies hexPython log.file := by
  rcases (Holds.fresh hexPython).append_cases hexPython countsEntry with
      ⟨-, w, log, happend, hpayload, hholds⟩ | ⟨hacc, -⟩
  · refine ⟨log, w.record, happend, fun hverifies => ?_⟩
    have hkeys := (hholds.verifies_iff hexPython hexdigest_injective.injOn).1 hverifies w
      (by simp)
    rw [hpayload] at hkeys
    exact countsEntry_not_keysInOrder hkeys
  · exact absurd countsEntry_acceptable hacc

end Audit
end Sentinel
