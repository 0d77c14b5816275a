import Sentinel.Core.AuditRecovery

/-!
# A crash in the middle of an append

Every prefix of a journal ends between two records, before the last line feed of
one, inside one, or inside a character.  The first and the third are recovered.
Before the last line feed the record is kept but its line stays open, so the
next record joins it; inside a character the journal cannot be opened.
-/

namespace Sentinel
namespace Audit

variable {F : Type} (py : Python F)

def complete : ℕ → List (AuditRecord F) → List (AuditRecord F)
  | _, [] => []
  | n, r :: rs =>
      match lineBytes py r with
      | .ok bytes => if bytes.length ≤ n + 1 then r :: complete (n - bytes.length) rs else []
      | .error _ => []

def Survives (start : Start) (file : Bytes) (records : List (AuditRecord F)) (cut : Bytes)
    (further : List (Entry F)) : Prop :=
  ∃ log, openLog py start cut = .ok log ∧
    (iterRecords py file).take (complete py cut.length records).length <+:
      iterRecords py log.file ∧
    Verifies py (appendAll py log further).1.file

/-! ## Where a cut falls -/

variable {ws : List (Written py)}

theorem prefix_text {cs : List Char}
    (h : cs <+: Written.text py ws) :
    ∃ kept rest, ws = kept ++ rest ∧
      (cs = Written.text py kept ∨ ∃ w rest' part lost, rest = w :: rest' ∧
        part ++ lost = w.line ∧ part ≠ [] ∧ cs = Written.text py kept ++ part) := by
  induction ws generalizing cs with
  | nil => exact ⟨[], [], rfl, Or.inl (List.prefix_nil.1 h)⟩
  | cons w ws ih =>
      have htext : Written.text py (w :: ws) = (w.line ++ ['\n']) ++ Written.text py ws := rfl
      rw [htext] at h
      rcases List.prefix_or_prefix_of_prefix h (List.prefix_append _ _) with hfirst | hmore
      · rcases List.prefix_concat_iff.1 hfirst with rfl | hpart
        · exact ⟨[w], ws, rfl, Or.inl (by simp [Written.text])⟩
        · obtain ⟨lost, hlost⟩ := hpart
          by_cases hempty : cs = []
          · exact ⟨[], w :: ws, rfl, Or.inl hempty⟩
          · exact ⟨[], w :: ws, rfl, Or.inr ⟨w, ws, cs, lost, rfl, hlost, hempty, rfl⟩⟩
      · obtain ⟨cs', rfl⟩ := hmore
        obtain ⟨kept, rest, rfl, hcases⟩ := ih ((List.prefix_append_right_inj _).1 h)
        refine ⟨w :: kept, rest, rfl, ?_⟩
        have hkept : Written.text py (w :: kept) = (w.line ++ ['\n']) ++ Written.text py kept := rfl
        rcases hcases with rfl | ⟨w', rest', part, lost, hrest, hline, hpart, rfl⟩
        · exact Or.inl hkept.symm
        · refine Or.inr ⟨w', rest', part, lost, hrest, hline, hpart, ?_⟩
          rw [hkept, List.append_assoc, List.append_assoc, List.append_assoc]

theorem encode_lineFeed (cs : List Char) :
    Utf8.encode cs ++ [10] = Utf8.encode (cs ++ ['\n']) := by
  rw [Utf8.encode_append]
  rfl

theorem lineFeed_prefix_iff {cs cs' : List Char} :
    Utf8.encode cs ++ [10] <+: Utf8.encode (cs ++ cs') ↔ ['\n'] <+: cs' := by
  rw [encode_lineFeed]
  constructor
  · intro h
    exact (List.prefix_append_right_inj cs).1 (Utf8.prefix_of_encoded h)
  · rintro ⟨cs'', rfl⟩
    exact ⟨Utf8.encode cs'', by rw [← Utf8.encode_append, List.append_assoc]⟩

theorem lineFeed_ne_head {line rest : List Char} (h : ∀ c ∈ line, c ≠ '\n' ∧ c ≠ '\r')
    (hne : line ≠ []) : ¬ ['\n'] <+: line ++ rest := by
  cases line with
  | nil => exact absurd rfl hne
  | cons c line =>
      rintro ⟨cs, hcs⟩
      cases hcs
      exact (h '\n' List.mem_cons_self).1 rfl

theorem lineFeed_ne_head_text (ws : List (Written py)) :
    ¬ ['\n'] <+: Written.text py ws := by
  cases ws with
  | nil => simp [Written.text]
  | cons w ws =>
      have hline := isLine_written py w
      have htext : Written.text py (w :: ws) = w.line ++ ('\n' :: Written.text py ws) := by
        simp [Written.text]
      rw [htext]
      exact lineFeed_ne_head hline.inLine hline.ne_nil

/-! ## Complete records -/

theorem lineBytes_written (w : Written py) :
    lineBytes py w.record = .ok (Utf8.encode (w.line ++ ['\n'])) :=
  lineBytes_eq py w.image_plain w.line_eq

theorem length_encode_lineFeed (cs : List Char) :
    (Utf8.encode (cs ++ ['\n'])).length = (Utf8.encode cs).length + 1 := by
  rw [← encode_lineFeed, List.length_append]
  rfl

theorem length_encode_pos {cs : List Char} (h : cs ≠ []) : 0 < (Utf8.encode cs).length :=
  List.length_pos_of_ne_nil (mt Utf8.encode_eq_nil.1 h)

theorem complete_append (kept rest : List (Written py)) (m : ℕ) :
    complete py ((Utf8.encode (Written.text py kept)).length + m)
        ((kept ++ rest).map fun w => w.record) =
      kept.map (fun w => w.record) ++ complete py m (rest.map fun w => w.record) := by
  induction kept with
  | nil => simp [Written.text, Utf8.encode]
  | cons w kept ih =>
      have hlength : (Utf8.encode (Written.text py (w :: kept))).length =
          (Utf8.encode (w.line ++ ['\n'])).length +
            (Utf8.encode (Written.text py kept)).length := by
        rw [← List.length_append, ← Utf8.encode_append]
        rfl
      have hfits : (Utf8.encode (w.line ++ ['\n'])).length ≤
          (Utf8.encode (Written.text py (w :: kept))).length + m + 1 := by omega
      have hrest : (Utf8.encode (Written.text py (w :: kept))).length + m -
            (Utf8.encode (w.line ++ ['\n'])).length =
          (Utf8.encode (Written.text py kept)).length + m := by omega
      simp only [List.cons_append, List.map_cons, complete, lineBytes_written]
      rw [if_pos hfits, hrest, ih]

theorem complete_part {w : Written py} {rest : List (Written py)} {part lost : List Char}
    (hline : part ++ lost = w.line) (hlost : lost ≠ []) :
    complete py (Utf8.encode part).length ((w :: rest).map fun w => w.record) = [] := by
  have hlength : (Utf8.encode (w.line ++ ['\n'])).length =
      (Utf8.encode part).length + (Utf8.encode lost).length + 1 := by
    rw [length_encode_lineFeed, ← hline, Utf8.encode_append, List.length_append]
  have hpos := length_encode_pos hlost
  simp only [List.map_cons, complete, lineBytes_written]
  rw [if_neg (by omega)]

theorem complete_zero (rest : List (Written py)) :
    complete py 0 (rest.map fun w => w.record) = [] := by
  cases rest with
  | nil => rfl
  | cons w rest => exact @complete_part F py w rest [] w.line rfl (isLine_written py w).ne_nil

theorem complete_line (w : Written py) (rest : List (Written py)) :
    complete py (Utf8.encode w.line).length ((w :: rest).map fun w => w.record) = [w.record] := by
  have hlength := length_encode_lineFeed w.line
  have hzero : (Utf8.encode w.line).length - (Utf8.encode (w.line ++ ['\n'])).length = 0 := by
    omega
  simp only [List.map_cons, complete, lineBytes_written]
  rw [if_pos (by omega), hzero, complete_zero]

/-! ## A line that joins the next -/

structure Spoilt (log : AuditLog) : Prop where
  lines : ∃ lines, log.file = Utf8.encode (ofLines lines) ∧ (∀ line ∈ lines, IsLine line) ∧
    ∃ line ∈ lines, Json.loads py.toFloatOps (Text.ofChars line) = none
  lastHash : Plain log.lastHash

variable {log : AuditLog}

theorem Spoilt.not_verifies (h : Spoilt py log) : ¬ Verifies py log.file := by
  obtain ⟨lines, hfile, hlines, bad, hbad, hloads⟩ := h.lines
  rw [verifies_iff, hfile, iterRecords_ofLines py hlines]
  intro hwalked
  have hnumbered : bad ∈ (lines.zipIdx 1).map Prod.fst := by
    rw [List.zipIdx_map_fst]
    exact hbad
  obtain ⟨⟨line, lineno⟩, hmem, rfl⟩ := List.mem_map.1 hnumbered
  have hrecord := List.mem_map_of_mem (f := fun line : List Char × ℕ =>
    (Json.loads py.toFloatOps (Text.ofChars line.1)).getD (sentinelLine line.2)) hmem
  simp only [hloads, Option.getD_none] at hrecord
  obtain ⟨m, prev, hash, hchecked⟩ := hwalked.exists_checked py hrecord
  exact not_checked_sentinelLine py lineno hchecked

theorem Spoilt.append {log log' : AuditLog} {e : Entry F} {r : AuditRecord F}
    (h : Spoilt py log) (happend : append py log e = .ok (log', r)) : Spoilt py log' := by
  obtain ⟨lines, hfile, hlines, line, hline, hloads⟩ := h.lines
  obtain ⟨w, hwritten, -⟩ := append_of_acceptable py (acceptable_of_append py happend) h.lastHash
  cases hwritten.symm.trans happend
  refine ⟨⟨lines ++ [w.line], ?_, ?_, line, List.mem_append_left _ hline, hloads⟩, ?_⟩
  · have hone : ofLines [w.line] = w.line ++ ['\n'] := by simp [ofLines]
    rw [ofLines_append, hone, Utf8.encode_append (ofLines lines), ← hfile]
  · exact List.forall_mem_append.2 ⟨hlines, by simpa using isLine_written py w⟩
  · exact plain_hash py w

theorem Spoilt.appendAll {log : AuditLog} (h : Spoilt py log) (entries : List (Entry F)) :
    Spoilt py (appendAll py log entries).1 := by
  induction entries generalizing log with
  | nil => exact h
  | cons e entries ih =>
      cases happend : Audit.append py log e with
      | error error =>
          rw [appendAll_of_error py happend]
          exact ih h
      | ok written =>
          obtain ⟨log', r⟩ := written
          rw [appendAll_of_ok py happend]
          exact ih (h.append py happend)

theorem loads_joined (w w' : Written py) :
    Json.loads py.toFloatOps (Text.ofChars (w.line ++ w'.line)) = none := by
  obtain ⟨body, hbody⟩ := (isLine_written py w').enclosed
  have hnext : Text.ofChars w'.line = .scalar '{' :: Text.ofChars (body ++ ['}']) := by
    rw [hbody]
    rfl
  have hends : Json.EndsNumber (Text.ofChars w'.line) := by
    rw [hnext]
    exact Json.endsNumber_cons _ rfl (by decide) (by decide) (by decide)
  have hspace : Json.skipSpace (Text.ofChars w'.line) ≠ [] := by
    rw [hnext, Json.skipSpace_cons _ rfl]
    exact List.cons_ne_nil _ _
  rw [ofChars_append, w.line_eq, Json.loads_render_append _ _ hends, if_neg hspace]

theorem IsLine.append {line line' : List Char} (h : IsLine line) (h' : IsLine line') :
    IsLine (line ++ line') := by
  refine ⟨List.forall_mem_append.2 ⟨h.inLine, h'.inLine⟩, ?_⟩
  obtain ⟨body, rfl⟩ := h.enclosed
  obtain ⟨body', rfl⟩ := h'.enclosed
  exact ⟨body ++ '}' :: '{' :: body', by simp⟩

theorem spoilt_append {log log' : AuditLog} {ws : List (Written py)} {w : Written py}
    {e : Entry F} {r : AuditRecord F}
    (hfile : log.file = Utf8.encode (Written.text py ws ++ w.line)) (hlast : Plain log.lastHash)
    (happend : append py log e = .ok (log', r)) : Spoilt py log' := by
  obtain ⟨w', hwritten, -⟩ := append_of_acceptable py (acceptable_of_append py happend) hlast
  cases hwritten.symm.trans happend
  refine ⟨⟨ws.map (fun w => w.line) ++ [w.line ++ w'.line], ?_, ?_, w.line ++ w'.line, by simp,
    loads_joined py w w'⟩, plain_hash py w'⟩
  · rw [ofLines_append, ← text_eq_ofLines, hfile, ← Utf8.encode_append]
    simp [ofLines]
  · refine List.forall_mem_append.2 ⟨isLine_lines py ws, ?_⟩
    simpa using (isLine_written py w).append (isLine_written py w')

theorem appendAll_of_not_acceptable {entries : List (Entry F)}
    (h : ∀ e ∈ entries, ¬ Acceptable py e) : appendAll py log entries = (log, []) := by
  induction entries with
  | nil => rfl
  | cons e entries ih =>
      obtain ⟨he, hentries⟩ := List.forall_mem_cons.1 h
      cases happend : append py log e with
      | error error =>
          rw [appendAll_of_error py happend]
          exact ih hentries
      | ok written =>
          obtain ⟨log', r⟩ := written
          exact absurd (acceptable_of_append py happend) he

theorem spoilt_appendAll {w : Written py}
    {entries : List (Entry F)}
    (hfile : log.file = Utf8.encode (Written.text py ws ++ w.line)) (hlast : Plain log.lastHash)
    (h : ∃ e ∈ entries, Acceptable py e) : Spoilt py (appendAll py log entries).1 := by
  induction entries with
  | nil => simp at h
  | cons e entries ih =>
      cases happend : append py log e with
      | error error =>
          rw [appendAll_of_error py happend]
          obtain ⟨e', he', hacc⟩ := h
          rcases List.mem_cons.1 he' with rfl | he'
          · obtain ⟨w', hwritten, -⟩ := append_of_acceptable py hacc hlast
            cases hwritten.symm.trans happend
          · exact ih ⟨e', he', hacc⟩
      | ok written =>
          obtain ⟨log', r⟩ := written
          rw [appendAll_of_ok py happend]
          exact (spoilt_append py hfile hlast happend).appendAll py entries

/-! ## Going on -/

def sessionEncodings (records : List (AuditRecord F)) (start : Start) (cut : Bytes)
    (further : List (Entry F)) : Set Bytes :=
  {bytes | bytes ∈ digested py records ∨ ∃ log, openLog py start cut = .ok log ∧
    (bytes ∈ digested py (appendAll py log further).2 ∨
      bytes ∈ recomputed py (appendAll py log further).1.file)}

theorem survives_iff_verifies {start : Start} {file cut : Bytes} {records : List (AuditRecord F)}
    {further : List (Entry F)} {log : AuditLog} (hopen : openLog py start cut = .ok log)
    (hkept : (iterRecords py file).take (complete py cut.length records).length <+:
      iterRecords py log.file) :
    Survives py start file records cut further ↔
      Verifies py (appendAll py log further).1.file := by
  constructor
  · rintro ⟨log', hopen', -, hverifies⟩
    cases hopen.symm.trans hopen'
    exact hverifies
  · exact fun hverifies => ⟨log, hopen, hkept, hverifies⟩

theorem Holds.verifies_further_iff
    (h : Holds py log ws) {further : List (Entry F)} {bytes : Set Bytes}
    (hinj : Set.InjOn py.sha256 bytes)
    (hws : ∀ w ∈ ws, Utf8.encode w.body ∈ bytes ∨ w.record.payload.KeysInOrder py.toFloatOps)
    (hfurther : ∀ b ∈ digested py (Audit.appendAll py log further).2, b ∈ bytes)
    (hread : ∀ b ∈ recomputed py (Audit.appendAll py log further).1.file, b ∈ bytes) :
    Verifies py (Audit.appendAll py log further).1.file ↔
      (∀ w ∈ ws, w.record.payload.KeysInOrder py.toFloatOps) ∧
        ∀ e ∈ further, Acceptable py e → e.payload.KeysInOrder py.toFloatOps := by
  obtain ⟨ws', hholds, hrecords, hpayloads⟩ := h.appendAll py further
  rw [← hpayloads]
  constructor
  · intro hverifies
    refine ⟨fun w hw => ?_, fun w hw => ?_⟩
    · rcases hws w hw with hbody | hkeys
      · exact hholds.keysInOrder py hinj hread hverifies (List.mem_append_left _ hw) hbody
      · exact hkeys
    · refine hholds.keysInOrder py hinj hread hverifies (List.mem_append_right _ hw) ?_
      exact hfurther _ (hrecords ▸ mem_digested py w hw)
  · rintro ⟨hkept, hmore⟩
    exact hholds.verifies_of_keysInOrder py (List.forall_mem_append.2 ⟨hkept, hmore⟩)

theorem forall_mem_records {p : PyVal F → Prop} :
    (∀ r ∈ ws.map (fun w => w.record), p r.payload) ↔ ∀ w ∈ ws, p w.record.payload := by
  simp

theorem take_iterRecords (kept rest : List (Written py)) :
    (iterRecords py (Utf8.encode (Written.text py (kept ++ rest)))).take kept.length =
      kept.map (Written.readBack py) := by
  rw [iterRecords_text, List.map_append, List.take_left' (List.length_map _)]

/-! ## The three cuts that open -/

section Cuts

variable {start : Start} {further : List (Entry F)} {kept rest : List (Written py)}
  {cut : Bytes}

theorem survives_text_iff (hchained : Written.Chained py 1 genesis (kept ++ rest))
    (hcut : cut = Utf8.encode (Written.text py kept))
    (hinj : Set.InjOn py.sha256
      (sessionEncodings py ((kept ++ rest).map fun w => w.record) start cut further)) :
    Survives py start (Utf8.encode (Written.text py (kept ++ rest)))
        ((kept ++ rest).map fun w => w.record) cut further ↔
      (∀ r ∈ complete py cut.length ((kept ++ rest).map fun w => w.record),
          r.payload.KeysInOrder py.toFloatOps) ∧
        ∀ e ∈ further, Acceptable py e → e.payload.KeysInOrder py.toFloatOps := by
  subst hcut
  have hcomplete := complete_append py kept rest 0
  rw [Nat.add_zero, complete_zero, List.append_nil] at hcomplete
  obtain ⟨log, hopen, hholds⟩ :=
    openLog_text py start ((HashChain.chained_append _ _ _).1 hchained).1
  have hkept : (iterRecords py (Utf8.encode (Written.text py (kept ++ rest)))).take
      (complete py (Utf8.encode (Written.text py kept)).length
        ((kept ++ rest).map fun w => w.record)).length <+: iterRecords py log.file := by
    rw [hcomplete, List.length_map, take_iterRecords, hholds.file, iterRecords_text]
  rw [survives_iff_verifies py hopen hkept, hcomplete, forall_mem_records]
  refine hholds.verifies_further_iff py hinj (fun w hw => Or.inl (Or.inl ?_))
    (fun b hb => Or.inr ⟨log, hopen, Or.inl hb⟩) (fun b hb => Or.inr ⟨log, hopen, Or.inr hb⟩)
  exact mem_digested py w (List.mem_append_left rest hw)

theorem survives_torn_iff {w : Written py} {part lost : List Char}
    (hchained : Written.Chained py 1 genesis (kept ++ w :: rest)) (hline : part ++ lost = w.line)
    (hpart : part ≠ []) (hlost : lost ≠ [])
    (hcut : cut = Utf8.encode (Written.text py kept ++ part))
    (hinj : Set.InjOn py.sha256
      (sessionEncodings py ((kept ++ w :: rest).map fun w => w.record) start cut further)) :
    Survives py start (Utf8.encode (Written.text py (kept ++ w :: rest)))
        ((kept ++ w :: rest).map fun w => w.record) cut further ↔
      (∀ r ∈ complete py cut.length ((kept ++ w :: rest).map fun w => w.record),
          r.payload.KeysInOrder py.toFloatOps) ∧
        ∀ e ∈ further, Acceptable py e → e.payload.KeysInOrder py.toFloatOps := by
  subst hcut
  have hcomplete : complete py (Utf8.encode (Written.text py kept ++ part)).length
      ((kept ++ w :: rest).map fun w => w.record) = kept.map fun w => w.record := by
    rw [Utf8.encode_append, List.length_append, complete_append, complete_part py hline hlost,
      List.append_nil]
  obtain ⟨log, repair, hopen, hholds, hrepair⟩ := openLog_torn py start
    ((HashChain.chained_append _ _ _).1 hchained).1 w hline hpart hlost
  have hkept : (iterRecords py (Utf8.encode (Written.text py (kept ++ w :: rest)))).take
      (complete py (Utf8.encode (Written.text py kept ++ part)).length
        ((kept ++ w :: rest).map fun w => w.record)).length <+: iterRecords py log.file := by
    rw [hcomplete, List.length_map, take_iterRecords, hholds.file, iterRecords_text,
      List.map_append]
    exact List.prefix_append _ _
  rw [survives_iff_verifies py hopen hkept, hcomplete, forall_mem_records,
    hholds.verifies_further_iff py hinj ?_ (fun b hb => Or.inr ⟨log, hopen, Or.inl hb⟩)
      (fun b hb => Or.inr ⟨log, hopen, Or.inr hb⟩)]
  · simp only [List.forall_mem_append, List.forall_mem_singleton, hrepair, and_true]
  · refine List.forall_mem_append.2 ⟨fun v hv => Or.inl (Or.inl ?_), ?_⟩
    · exact mem_digested py v (List.mem_append_left _ hv)
    · exact List.forall_mem_singleton.2 (Or.inr hrepair)

theorem survives_unended_iff {w : Written py}
    (hchained : Written.Chained py 1 genesis (kept ++ w :: rest))
    (hcut : cut = Utf8.encode (Written.text py kept ++ w.line))
    (hinj : Set.InjOn py.sha256
      (sessionEncodings py ((kept ++ w :: rest).map fun w => w.record) start cut further)) :
    Survives py start (Utf8.encode (Written.text py (kept ++ w :: rest)))
        ((kept ++ w :: rest).map fun w => w.record) cut further ↔
      (∀ e ∈ further, ¬ Acceptable py e) ∧
        ∀ r ∈ complete py cut.length ((kept ++ w :: rest).map fun w => w.record),
          r.payload.KeysInOrder py.toFloatOps := by
  subst hcut
  have hsplit : kept ++ w :: rest = (kept ++ [w]) ++ rest := by simp
  have hcomplete : complete py (Utf8.encode (Written.text py kept ++ w.line)).length
      ((kept ++ w :: rest).map fun w => w.record) = (kept ++ [w]).map fun w => w.record := by
    rw [Utf8.encode_append, List.length_append, complete_append, complete_line, List.map_append]
    rfl
  let opened : AuditLog :=
    ⟨Utf8.encode (Written.text py kept ++ w.line), w.record.seq, w.record.hash, []⟩
  have hopen : openLog py start (Utf8.encode (Written.text py kept ++ w.line)) = .ok opened :=
    openLog_unended py start kept w
  have hread : iterRecords py (Utf8.encode (Written.text py kept ++ w.line)) =
      iterRecords py (Utf8.encode (Written.text py (kept ++ [w]))) := by
    rw [text_eq_ofLines, text_eq_ofLines, iterRecords_unended py (isLine_lines py kept)
      (isLine_written py w), List.map_append]
    rfl
  have hkept : (iterRecords py (Utf8.encode (Written.text py (kept ++ w :: rest)))).take
      (complete py (Utf8.encode (Written.text py kept ++ w.line)).length
        ((kept ++ w :: rest).map fun w => w.record)).length <+:
      iterRecords py (Utf8.encode (Written.text py kept ++ w.line)) := by
    rw [hcomplete, List.length_map, hsplit, take_iterRecords, hread, iterRecords_text]
  rw [survives_iff_verifies py hopen hkept, hcomplete, forall_mem_records]
  by_cases hsome : ∃ e ∈ further, Acceptable py e
  · have hspoilt : Spoilt py (appendAll py opened further).1 :=
      spoilt_appendAll py rfl (plain_hash py w) hsome
    obtain ⟨e, he, hacc⟩ := hsome
    exact iff_of_false hspoilt.not_verifies fun h => h.1 e he hacc
  · have hnone : ∀ e ∈ further, ¬ Acceptable py e := fun e he hacc => hsome ⟨e, he, hacc⟩
    have hlog : appendAll py opened further = (opened, []) := appendAll_of_not_acceptable py hnone
    -- the last record reads the same with its line feed
    let ended : AuditLog := ⟨Utf8.encode (Written.text py (kept ++ [w])), (kept ++ [w]).length,
      Written.head py genesis (kept ++ [w]), []⟩
    have hholds : Holds py ended (kept ++ [w]) := by
      rw [hsplit] at hchained
      exact ⟨rfl, ((HashChain.chained_append _ _ _).1 hchained).1, rfl, rfl⟩
    have hverifies : Verifies py opened.file ↔ Verifies py ended.file := by
      rw [verifies_iff, verifies_iff, hread]
    have hrecomputed : ∀ b ∈ recomputed py ended.file, b ∈ sessionEncodings py
        ((kept ++ w :: rest).map fun w => w.record) start
        (Utf8.encode (Written.text py kept ++ w.line)) further := by
      intro b hb
      refine Or.inr ⟨opened, hopen, Or.inr ?_⟩
      rw [hlog]
      unfold recomputed at hb ⊢
      rwa [hread]
    rw [hlog, and_iff_right hnone, hverifies]
    refine ⟨fun h v hv => ?_, hholds.verifies_of_keysInOrder py⟩
    refine hholds.keysInOrder py hinj hrecomputed h hv (Or.inl (mem_digested py v ?_))
    rw [hsplit]
    exact List.mem_append_left rest hv

end Cuts

/-! ## Every cut -/

/-- A journal cut anywhere opens, keeps its complete records and stays intact
exactly when the cut is not inside a character, no record is written after a cut
that lost only a line feed, and the keys of every payload kept or added are in
order. -/
theorem survives_iff (start : Start) (entries further : List (Entry F)) {cut : Bytes}
    (hcut : cut <+: (appendAll py fresh entries).1.file)
    (hinj : Set.InjOn py.sha256
      (sessionEncodings py (appendAll py fresh entries).2 start cut further)) :
    Survives py start (appendAll py fresh entries).1.file (appendAll py fresh entries).2 cut
        further ↔
      (Utf8.decode cut).isSome ∧
        (cut ++ [10] <+: (appendAll py fresh entries).1.file →
          ∀ e ∈ further, ¬ Acceptable py e) ∧
        (∀ r ∈ complete py cut.length (appendAll py fresh entries).2,
          r.payload.KeysInOrder py.toFloatOps) ∧
        ∀ e ∈ further, Acceptable py e → e.payload.KeysInOrder py.toFloatOps := by
  obtain ⟨ws, hholds, hrecords, -⟩ := (Holds.fresh py).appendAll py entries
  rw [List.nil_append] at hholds
  have hfile := hholds.file
  have hchained := hholds.chained
  rw [hrecords] at hinj ⊢
  rw [hfile] at hcut ⊢
  cases hdecode : Utf8.decode cut with
  | none =>
      refine iff_of_false ?_ (by simp)
      rintro ⟨log, hopen, -⟩
      rw [openLog_undecodable py start hdecode] at hopen
      cases hopen
  | some cs =>
      have hcs : cut = Utf8.encode cs := Utf8.decode_eq_some_iff.1 hdecode
      rw [hcs] at hcut
      obtain ⟨kept, rest, rfl, hcases⟩ := prefix_text py (Utf8.prefix_of_encoded hcut)
      rcases hcases with rfl | ⟨w, rest, part, lost, rfl, hline, hpart, rfl⟩
      · have hnext : ¬ cut ++ [10] <+: Utf8.encode (Written.text py (kept ++ rest)) := by
          rw [hcs, text_append, lineFeed_prefix_iff]
          exact lineFeed_ne_head_text py rest
        rw [survives_text_iff py hchained hcs hinj]
        simp [hnext]
      · have hwhole := isLine_written py w
        have htext : Written.text py (kept ++ w :: rest) =
            (Written.text py kept ++ part) ++ (lost ++ '\n' :: Written.text py rest) := by
          rw [text_append, List.append_assoc, ← List.append_assoc part, hline]
          simp [Written.text]
        by_cases hlost : lost = []
        · subst hlost
          rw [List.append_nil] at hline
          subst hline
          have hnext : cut ++ [10] <+: Utf8.encode (Written.text py (kept ++ w :: rest)) := by
            rw [hcs, htext, lineFeed_prefix_iff]
            exact ⟨Written.text py rest, rfl⟩
          rw [survives_unended_iff py hchained hcs hinj]
          constructor
          · rintro ⟨hnone, hkeys⟩
            exact ⟨rfl, fun _ => hnone, hkeys, fun e he hacc => absurd hacc (hnone e he)⟩
          · rintro ⟨-, hnone, hkeys, -⟩
            exact ⟨hnone hnext, hkeys⟩
        · have hnext : ¬ cut ++ [10] <+: Utf8.encode (Written.text py (kept ++ w :: rest)) := by
            rw [hcs, htext, lineFeed_prefix_iff]
            refine lineFeed_ne_head (fun c hc => hwhole.inLine c ?_) hlost
            exact hline ▸ List.mem_append_right part hc
          rw [survives_torn_iff py hchained hline hpart hlost hcs hinj]
          simp [hnext]

def secondStart : Start where
  journalName := ['a', 'u', 'd', 'i', 't']
  wallNs := 1
  tsNs := 1
  runId := ['r', 'u', 'n']

theorem holds_namesEntry :
    ∃ w : Written hexPython, Holds hexPython (appendAll hexPython fresh [namesEntry]).1 [w] ∧
      (appendAll hexPython fresh [namesEntry]).2 = [w.record] ∧
      w.record.payload = namesEntry.payload := by
  rcases (Holds.fresh hexPython).append_cases hexPython namesEntry with
      ⟨-, w, log, happend, hpayload, hholds⟩ | ⟨hacc, -⟩
  · refine ⟨w, ?_, ?_, hpayload⟩
    · rw [appendAll_of_ok hexPython happend]
      exact hholds
    · rw [appendAll_of_ok hexPython happend]
      rfl
  · exact absurd namesEntry_acceptable hacc

/-- Cut after the first byte. -/
theorem survives_iff_namesEntry :
    Survives hexPython secondStart (appendAll hexPython fresh [namesEntry]).1.file
      (appendAll hexPython fresh [namesEntry]).2 (Utf8.encode ['{']) [namesEntry] := by
  obtain ⟨w, hholds, hrecords, -⟩ := holds_namesEntry
  have hwhole := isLine_written hexPython w
  obtain ⟨body, hbody⟩ := hwhole.enclosed
  have htext : Written.text hexPython [w] = ['{'] ++ (body ++ '}' :: ['\n']) := by
    simp [Written.text, hbody]
  have hcut : Utf8.encode ['{'] <+: (appendAll hexPython fresh [namesEntry]).1.file := by
    rw [hholds.file, htext, Utf8.encode_append]
    exact List.prefix_append _ _
  have hlost : ∀ c ∈ body ++ ['}'], c ≠ '\n' ∧ c ≠ '\r' := fun c hc =>
    hwhole.inLine c (hbody ▸ List.mem_cons_of_mem '{' hc)
  refine (survives_iff hexPython secondStart [namesEntry] [namesEntry] hcut
    hexdigest_injective.injOn).2 ⟨?_, ?_, ?_, ?_⟩
  · rw [Utf8.decode_encode]
    rfl
  · rw [hholds.file, htext, lineFeed_prefix_iff]
    intro hnext
    have happend : body ++ '}' :: ['\n'] = (body ++ ['}']) ++ ['\n'] := by simp
    rw [happend] at hnext
    exact absurd hnext (lineFeed_ne_head hlost (by simp))
  · have hpart : complete hexPython (Utf8.encode ['{']).length [w.record] = [] :=
      @complete_part FloatText hexPython w [] ['{'] (body ++ ['}']) hbody.symm (by simp)
    rw [hrecords, hpart]
    simp
  · intro e he _
    cases List.mem_singleton.1 he
    exact namesEntry_keysInOrder

/-- A journal that lost the line feed of its only record, written on. -/
theorem not_survives_lost_lineFeed :
    (appendAll hexPython fresh [namesEntry]).1.file.dropLast <+:
        (appendAll hexPython fresh [namesEntry]).1.file ∧
      ¬ Survives hexPython secondStart (appendAll hexPython fresh [namesEntry]).1.file
        (appendAll hexPython fresh [namesEntry]).2
        (appendAll hexPython fresh [namesEntry]).1.file.dropLast [namesEntry] := by
  refine ⟨List.dropLast_prefix _, ?_⟩
  obtain ⟨w, hholds, hrecords, -⟩ := holds_namesEntry
  have hcut : (Utf8.encode (Written.text hexPython [w])).dropLast =
      Utf8.encode (Written.text hexPython [] ++ w.line) := by
    have htext : Written.text hexPython [w] = w.line ++ ['\n'] := by simp [Written.text]
    rw [htext, ← encode_lineFeed, List.dropLast_concat]
    rfl
  rw [hrecords, hholds.file]
  intro hsurvives
  obtain ⟨hnone, -⟩ := (@survives_unended_iff FloatText hexPython secondStart [namesEntry] [] [] _ w
    hholds.chained hcut hexdigest_injective.injOn).1 hsurvives
  exact hnone namesEntry (by simp) namesEntry_acceptable

end Audit
end Sentinel
