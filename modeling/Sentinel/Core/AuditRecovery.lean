import Sentinel.Core.AuditVerify
import Mathlib.Data.List.TakeWhile

/-!
# Reopening a torn journal

What recovery makes of every prefix of a journal: cut between two records, cut
before the final line feed of one, cut inside one, or cut inside a character.
-/

namespace Sentinel
namespace Audit

open Chars

variable {F : Type} (py : Python F)

/-! ## The last line -/

variable (w : Written py)

theorem tailOf_line {tail : Text} (hends : Json.EndsNumber tail)
    (htail : Json.skipSpace tail = []) :
    tailOf py (Text.ofChars w.line ++ tail) = .ok (w.record.seq, w.record.hash) := by
  have hloads : Json.loads py.toFloatOps (Text.ofChars w.line ++ tail) =
      some (w.readBack py) := by
    rw [w.line_eq, Json.loads_render_append _ _ hends, if_pos htail, reload_lineJson]
    rfl
  rw [tailOf]
  rw [hloads]
  have hseq : item (w.readBack py) "seq" = .ok (.int w.record.seq) := rfl
  have hhash : item (w.readBack py) "hash" = .ok (.str w.record.hash) := rfl
  simp only [hseq, hhash, bind, Except.bind, pure, Except.pure, py.intOf_int, py.strOf_str]

theorem tailOf_last : tailOf py (Text.ofChars w.line) = .ok (w.record.seq, w.record.hash) := by
  have htail := tailOf_line py w Json.endsNumber_nil rfl
  rwa [List.append_nil] at htail

theorem tailOf_ended :
    tailOf py (Text.ofChars (w.line ++ ['\n'])) = .ok (w.record.seq, w.record.hash) := by
  rw [ofChars_append]
  refine tailOf_line py w ?_ rfl
  exact Json.endsNumber_cons _ rfl (by decide) (by decide) (by decide)

theorem tailOf_torn {part lost : List Char} (hline : part ++ lost = w.line)
    (hlost : lost ≠ []) : tailOf py (Text.ofChars part) = .error .valueError := by
  have hrender : Text.ofChars part ++ Text.ofChars lost =
      (lineJson w.record w.plain).render py.toFloatOps := by
    rw [← ofChars_append, hline, w.line_eq]
  have hne : Text.ofChars lost ≠ [] := by simpa [Text.ofChars] using hlost
  rw [tailOf]
  rw [Json.loads_prefix_eq_none py.toFloatOps _ hrender hne]

theorem strip_ne_nil_of_open (body : List Char) : strip ('{' :: body) ≠ [] := by
  have hopen : isSpace '{' = false := rfl
  intro h
  simp only [strip, List.dropWhile_cons, hopen, Bool.false_eq_true, if_false,
    List.reverse_eq_nil_iff, List.dropWhile_eq_nil_iff] at h
  have hspace := h '{' (by simp)
  cases hspace

variable {lines : List (List Char)}

theorem lastLine_ended {line : List Char}
    (h : ∀ l ∈ lines ++ [line], IsLine l) :
    lastLine (ofLines (lines ++ [line])) = some (line ++ ['\n']) := by
  have hlines := linesOf_ofLines h []
  rw [List.append_nil] at hlines
  have hkept : ∀ l ∈ (lines ++ [line]).map (fun l => l ++ ['\n']),
      decide (strip l ≠ []) = true := by
    intro l hl
    obtain ⟨m, hm, rfl⟩ := List.mem_map.1 hl
    rw [strip_line (h m hm)]
    exact decide_eq_true (h m hm).ne_nil
  rw [lastLine]
  rw [hlines, universalNewlines, linesOf, List.append_nil, List.filter_eq_self.2 hkept]
  simp

theorem lastLine_unended {part : List Char}
    (h : ∀ l ∈ lines, IsLine l) (hpart : ∀ c ∈ part, c ≠ '\n' ∧ c ≠ '\r')
    (hopen : ∃ body, part = '{' :: body) : lastLine (ofLines lines ++ part) = some part := by
  obtain ⟨body, rfl⟩ := hopen
  rw [lastLine]
  rw [linesOf_ofLines h, universalNewlines_self hpart, linesOf_single hpart (List.cons_ne_nil _ _),
    List.filter_append]
  have hkept : decide (strip ('{' :: body) ≠ []) = true :=
    decide_eq_true (strip_ne_nil_of_open body)
  rw [List.filter_cons, if_pos hkept]
  simp

/-! ## Pieces between line feeds -/

theorem intercalate_concat (ls : List Bytes) (last : Bytes) :
    List.intercalate [10] (ls ++ [last]) = (ls.flatMap fun l => l ++ [10]) ++ last := by
  induction ls with
  | nil => exact List.intercalate_singleton
  | cons l ls ih =>
      rw [List.cons_append, List.intercalate_cons_of_ne_nil (by simp), ih, List.flatMap_cons]
      simp

theorem encode_ofLines (lines : List (List Char)) :
    Utf8.encode (ofLines lines) = (lines.map Utf8.encode).flatMap fun l => l ++ [10] := by
  rw [ofLines]
  induction lines with
  | nil => rfl
  | cons line lines ih =>
      have hfeed : Utf8.encode ['\n'] = [10] := by decide
      rw [List.flatMap_cons, Utf8.encode_append, Utf8.encode_append, hfeed, ih]
      rfl

theorem splitOn_encode {part : List Char}
    (h : ∀ l ∈ lines, IsLine l) (hpart : ∀ c ∈ part, c ≠ '\n' ∧ c ≠ '\r') :
    (Utf8.encode (ofLines lines ++ part)).splitOn 10 =
      lines.map Utf8.encode ++ [Utf8.encode part] := by
  have hpieces : Utf8.encode (ofLines lines ++ part) =
      List.intercalate [10] (lines.map Utf8.encode ++ [Utf8.encode part]) := by
    rw [intercalate_concat, Utf8.encode_append, encode_ofLines]
  have hclean : ∀ {l : List Char}, (∀ c ∈ l, c ≠ '\n' ∧ c ≠ '\r') →
      (10 : UInt8) ∉ Utf8.encode l :=
    fun hl hmem => (hl '\n' (Utf8.lineFeed_mem_encode_iff.1 hmem)).1 rfl
  rw [hpieces]
  refine List.splitOn_intercalate 10 ?_ (by simp)
  intro l hl
  rcases List.mem_append.1 hl with hl | hl
  · obtain ⟨line, hline, rfl⟩ := List.mem_map.1 hl
    exact hclean (h line hline).inLine
  · cases List.mem_singleton.1 hl
    exact hclean hpart

theorem isBlank_encode_open (body : List Char) : isBlank (Utf8.encode ('{' :: body)) = false := by
  rw [Utf8.encode_cons]
  rfl

/-! ## What recovery finds -/

theorem head_concat (ws : List (Written py)) (w : Written py) :
    Written.head py genesis (ws ++ [w]) = w.record.hash := by
  rw [Written.head]
  rw [HashChain.head_append]
  rfl

variable (name : Text) (wallNs : ℤ) {ws : List (Written py)}

theorem seq_of_chained {w : Written py}
    (h : Written.Chained py 1 genesis (ws ++ [w])) : w.record.seq = (ws ++ [w]).length := by
  obtain ⟨-, hseq, -⟩ := (HashChain.chained_concat _ _ _).1 h
  rw [hseq, List.length_append, List.length_singleton]
  omega

theorem text_concat (ws : List (Written py)) (w : Written py) :
    Written.text py (ws ++ [w]) = Written.text py ws ++ (w.line ++ ['\n']) := by
  simp [Written.text]

theorem encode_text_ne_nil (ws : List (Written py)) (w : Written py) :
    Utf8.encode (Written.text py (ws ++ [w])) ≠ [] := by
  rw [text_concat]
  simp [Utf8.encode_eq_nil]

theorem recoverTail_text (h : Written.Chained py 1 genesis ws) :
    recoverTail py name wallNs (Utf8.encode (Written.text py ws)) =
      .ok ⟨Utf8.encode (Written.text py ws), ws.length, Written.head py genesis ws, none⟩ := by
  rcases ws.eq_nil_or_concat' with rfl | ⟨ws, w, rfl⟩
  · rfl
  · have hlast : lastLine (Written.text py (ws ++ [w])) = some (w.line ++ ['\n']) := by
      rw [text_eq_ofLines, List.map_append, List.map_singleton]
      refine lastLine_ended ?_
      have hlines := isLine_lines py (ws ++ [w])
      rwa [List.map_append, List.map_singleton] at hlines
    rw [recoverTail]
    rw [if_neg (encode_text_ne_nil py ws w), Utf8.decode_encode]
    simp only [hlast, tailOf_ended, seq_of_chained py h, head_concat]

theorem recoverTail_unended (ws : List (Written py))
    (w : Written py) :
    recoverTail py name wallNs (Utf8.encode (Written.text py ws ++ w.line)) =
      .ok ⟨Utf8.encode (Written.text py ws ++ w.line), w.record.seq, w.record.hash, none⟩ := by
  have hline := isLine_written py w
  have hlast : lastLine (Written.text py ws ++ w.line) = some w.line := by
    obtain ⟨body, hbody⟩ := hline.enclosed
    rw [text_eq_ofLines]
    exact lastLine_unended (isLine_lines py ws) hline.inLine ⟨_, hbody⟩
  have hne : Utf8.encode (Written.text py ws ++ w.line) ≠ [] := by
    simp [Utf8.encode_eq_nil, hline.ne_nil]
  rw [recoverTail]
  rw [if_neg hne, Utf8.decode_encode]
  simp only [hlast, tailOf_last]

theorem truncateTornTail_torn (h : Written.Chained py 1 genesis ws) {part : List Char}
    (hpart : ∀ c ∈ part, c ≠ '\n' ∧ c ≠ '\r') (hopen : ∃ body, part = '{' :: body) :
    truncateTornTail py name wallNs (Utf8.encode (Written.text py ws ++ part)) =
      .ok ⟨Utf8.encode (Written.text py ws), ws.length, Written.head py genesis ws,
        some (sidecarName name wallNs, Utf8.encode part)⟩ := by
  have hblank : isBlank (Utf8.encode part) = false := by
    obtain ⟨body, rfl⟩ := hopen
    exact isBlank_encode_open body
  have hpieces : (Utf8.encode (Written.text py ws ++ part)).splitOn 10 =
      ws.map (fun w => Utf8.encode w.line) ++ [Utf8.encode part] := by
    rw [text_eq_ofLines, splitOn_encode (isLine_lines py ws) hpart, List.map_map]
    rfl
  have hkept : (ws.map (fun w => Utf8.encode w.line)).flatMap (fun l => l ++ [10]) =
      Utf8.encode (Written.text py ws) := by
    rw [text_eq_ofLines, encode_ofLines, List.map_map]
    rfl
  rw [truncateTornTail]
  rw [hpieces, List.reverse_append, List.reverse_singleton, List.singleton_append,
    List.dropWhile_cons_of_neg (by simp [hblank])]
  rcases ws.eq_nil_or_concat' with rfl | ⟨ws, w, rfl⟩
  · rfl
  · rw [List.map_append, List.map_singleton, List.reverse_append, List.reverse_singleton,
      List.singleton_append]
    simp only [Utf8.decode_encode, tailOf_last, List.reverse_cons, List.reverse_reverse]
    rw [intercalate_concat, ← hkept, seq_of_chained py h, head_concat, List.map_append,
      List.flatMap_append]
    simp

theorem recoverTail_torn
    (h : Written.Chained py 1 genesis ws) (w : Written py) {part lost : List Char}
    (hline : part ++ lost = w.line) (hpart : part ≠ []) (hlost : lost ≠ []) :
    recoverTail py name wallNs (Utf8.encode (Written.text py ws ++ part)) =
      .ok ⟨Utf8.encode (Written.text py ws), ws.length, Written.head py genesis ws,
        some (sidecarName name wallNs, Utf8.encode part)⟩ := by
  have hwhole := isLine_written py w
  have hinLine : ∀ c ∈ part, c ≠ '\n' ∧ c ≠ '\r' :=
    fun c hc => hwhole.inLine c (hline ▸ List.mem_append_left lost hc)
  have hopen : ∃ body, part = '{' :: body := by
    obtain ⟨body, hbody⟩ := hwhole.enclosed
    cases part with
    | nil => exact absurd rfl hpart
    | cons c part =>
        rw [hbody, List.cons_append, List.cons.injEq] at hline
        exact ⟨part, by rw [hline.1]⟩
  have hlast : lastLine (Written.text py ws ++ part) = some part := by
    rw [text_eq_ofLines]
    exact lastLine_unended (isLine_lines py ws) hinLine hopen
  have hne : Utf8.encode (Written.text py ws ++ part) ≠ [] := by
    simp [Utf8.encode_eq_nil, hpart]
  rw [recoverTail]
  rw [if_neg hne, Utf8.decode_encode]
  simp only [hlast, tailOf_torn py w hline hlost]
  exact truncateTornTail_torn py name wallNs h hinLine hopen

/-! ## Opening -/

variable (start : Start)

theorem openLog_text (h : Written.Chained py 1 genesis ws) :
    ∃ log, openLog py start (Utf8.encode (Written.text py ws)) = .ok log ∧ Holds py log ws := by
  refine ⟨⟨Utf8.encode (Written.text py ws), ws.length, Written.head py genesis ws, []⟩, ?_,
    rfl, h, rfl, rfl⟩
  rw [openLog]
  rw [recoverTail_text py _ _ h]
  rfl

theorem openLog_unended (ws : List (Written py)) (w : Written py) :
    openLog py start (Utf8.encode (Written.text py ws ++ w.line)) =
      .ok ⟨Utf8.encode (Written.text py ws ++ w.line), w.record.seq, w.record.hash, []⟩ := by
  rw [openLog]
  rw [recoverTail_unended]
  rfl

theorem repairEntry_keysInOrder (seq : ℤ) (hash sidecar : Text) (tsNs : ℤ) (runId : Text) :
    (repairEntry (F := F) seq hash sidecar tsNs runId).payload.KeysInOrder py.toFloatOps := by
  have hnames := @PyVal.namesIncrease_str F py.toFloatOps
    [(Text.ofString "chain_repaired", .null), (Text.ofString "resumed_from_seq", .null),
      (Text.ofString "resumed_from_hash", .null), (Text.ofString "torn_bytes_saved_to", .null),
      (Text.ofString "note", .null)] (by simp only [List.map]; decide)
  exact ⟨hnames, trivial, trivial, trivial, trivial, trivial, trivial⟩

theorem repairEntry_acceptable (seq : ℤ) {hash sidecar runId : Text} (tsNs : ℤ)
    (hhash : Plain hash) (hsidecar : Plain sidecar) (hrunId : Plain runId) :
    Acceptable py (repairEntry (F := F) seq hash sidecar tsNs runId) := by
  have hname : ∀ name, Plain (Json.renderString (Text.ofString name)) := fun name =>
    plain_renderString.2 (plain_ofChars _)
  have htrue : Plain (Text.ofChars ['t', 'r', 'u', 'e']) := plain_ofChars _
  have hclose : Plain [Point.scalar '}'] := ⟨['}'], rfl⟩
  refine ⟨hrunId, plain_ofChars _, plain_ofChars _, ⟨_, rfl, ?_⟩, ⟨_, rfl, ?_⟩⟩
  all_goals
    simp only [Json.render, Json.renderMembers, plain_cons, plain_append, hname, hclose,
      plain_renderInt, plain_renderString, hhash, hsidecar, htrue, and_self]

theorem plain_sidecarName (name : List Char) (wallNs : ℤ) :
    Plain (sidecarName (Text.ofChars name) wallNs) :=
  plain_append.2 ⟨plain_append.2 ⟨plain_ofChars name, plain_ofChars _⟩, plain_renderInt wallNs⟩

theorem openLog_torn (h : Written.Chained py 1 genesis ws) (w : Written py) {part lost : List Char}
    (hline : part ++ lost = w.line) (hpart : part ≠ []) (hlost : lost ≠ []) :
    ∃ log repair, openLog py start (Utf8.encode (Written.text py ws ++ part)) = .ok log ∧
      Holds py log (ws ++ [repair]) ∧ repair.record.payload.KeysInOrder py.toFloatOps := by
  let sidecar := sidecarName (Text.ofChars start.journalName) start.wallNs
  let log : AuditLog := ⟨Utf8.encode (Written.text py ws), ws.length, Written.head py genesis ws,
    [(sidecar, Utf8.encode part)]⟩
  let entry : Entry F := repairEntry ws.length (Written.head py genesis ws) sidecar start.tsNs
    (Text.ofChars start.runId)
  have hholds : Holds py log ws := ⟨rfl, h, rfl, rfl⟩
  rcases hholds.append_cases py entry with
      ⟨-, repair, log', happend, hpayload, hholds'⟩ | ⟨hacc, -⟩
  · refine ⟨log', repair, ?_, hholds', ?_⟩
    · rw [openLog]
      rw [recoverTail_torn py _ _ h w hline hpart hlost]
      have happend' : append py log entry = .ok (log', repair.record) := happend
      exact bind_eq_ok.2 ⟨_, rfl, bind_eq_ok.2 ⟨_, happend', rfl⟩⟩
    · rw [hpayload]
      exact repairEntry_keysInOrder py _ _ _ _ _
  · exact absurd (repairEntry_acceptable py _ _ (plain_head py ws) (plain_sidecarName _ _)
      (plain_ofChars _)) hacc

theorem openLog_undecodable {file : Bytes} (h : Utf8.decode file = none) :
    openLog py start file = .error .unicodeDecodeError := by
  have hne : file ≠ [] := by
    rintro rfl
    cases h
  rw [openLog, recoverTail]
  rw [if_neg hne, h]
  rfl

end Audit
end Sentinel
