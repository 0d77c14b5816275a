import Sentinel.Core.Audit
import Sentinel.Support.HashChain

/-!
# The lines of the journal

What `append` accepts, the line it writes for a record, and that `iter_records`
gives the lines back as the records they were written from.
-/

namespace Sentinel
namespace Audit

variable {F : Type} (py : Python F)

theorem bind_eq_ok {ε α β : Type} {x : Except ε α} {f : α → Except ε β} {b : β} :
    x >>= f = .ok b ↔ ∃ a, x = .ok a ∧ f a = .ok b := by
  cases x with
  | error e => simp [bind, Except.bind]
  | ok a => simp [bind, Except.bind]

/-! ## Encoding -/

def Plain (t : Text) : Prop := ∃ cs, t = Text.ofChars cs

theorem ofChars_append (cs cs' : List Char) :
    Text.ofChars (cs ++ cs') = Text.ofChars cs ++ Text.ofChars cs' :=
  List.map_append

theorem ofChars_injective : Function.Injective Text.ofChars :=
  List.map_injective_iff.2 fun _ _ h => Point.scalar.inj h

theorem plain_ofChars (cs : List Char) : Plain (Text.ofChars cs) := ⟨cs, rfl⟩

theorem plain_append {s t : Text} : Plain (s ++ t) ↔ Plain s ∧ Plain t := by
  constructor
  · rintro ⟨cs, hcs⟩
    obtain ⟨l, r, -, hl, hr⟩ := List.append_eq_map_iff.1 hcs
    exact ⟨⟨l, hl.symm⟩, ⟨r, hr.symm⟩⟩
  · rintro ⟨⟨cs, rfl⟩, ⟨cs', rfl⟩⟩
    exact ⟨cs ++ cs', (ofChars_append cs cs').symm⟩

theorem plain_cons {c : Char} {t : Text} : Plain (.scalar c :: t) ↔ Plain t := by
  have hsplit := plain_append (s := [Point.scalar c]) (t := t)
  rw [List.singleton_append] at hsplit
  rw [hsplit]
  exact and_iff_right ⟨[c], rfl⟩

@[simp] theorem encode_ofChars (cs : List Char) :
    encode (Text.ofChars cs) = .ok (Utf8.encode cs) := by
  induction cs with
  | nil => rfl
  | cons c cs ih =>
      rw [Text.ofChars] at ih ⊢
      rw [List.map_cons, encode, ih]
      rfl

theorem plain_of_encode {t : Text} {bytes : Bytes} (h : encode t = .ok bytes) : Plain t := by
  induction t generalizing bytes with
  | nil => exact ⟨[], rfl⟩
  | cons p t ih =>
      cases p with
      | surrogate n => cases h
      | scalar c =>
          cases ht : encode t with
          | error e =>
              rw [encode, ht] at h
              cases h
          | ok rest => exact plain_cons.2 (ih ht)

def isScalar : Point → Bool
  | .scalar _ => true
  | .surrogate _ => false

theorem plain_iff {t : Text} : Plain t ↔ ∀ p ∈ t, isScalar p = true := by
  induction t with
  | nil => exact iff_of_true ⟨[], rfl⟩ (by simp)
  | cons p t ih =>
      cases p with
      | scalar c => simp [plain_cons, ih, isScalar]
      | surrogate n =>
          refine iff_of_false ?_ (by simp [isScalar])
          rintro ⟨cs, hcs⟩
          cases cs <;> cases hcs

instance (t : Text) : Decidable (Plain t) := decidable_of_iff _ plain_iff.symm

theorem plain_digitText (ds : List (Fin 10)) : Plain (digitText ds) :=
  ⟨ds.map digitChar, by simp [digitText, Text.ofChars]⟩

theorem plain_renderInt (n : ℤ) : Plain (Json.renderInt n) := by
  refine plain_append.2 ⟨?_, plain_digitText _⟩
  rw [Json.sign]
  split_ifs
  · exact ⟨['-'], rfl⟩
  · exact ⟨[], rfl⟩

theorem plain_escape {p : Point} : Plain (Json.escape p) ↔ Plain [p] := by
  cases p with
  | surrogate n => exact Iff.rfl
  | scalar c => exact iff_of_true (plain_ofChars _) ⟨[c], rfl⟩

theorem plain_renderString {s : Text} : Plain (Json.renderString s) ↔ Plain s := by
  rw [Json.renderString]
  rw [plain_cons, plain_append, and_iff_left ⟨['"'], rfl⟩]
  induction s with
  | nil => exact Iff.rfl
  | cons p s ih =>
      rw [List.flatMap_cons, plain_append, plain_escape, ih, ← plain_append,
        List.singleton_append]

/-! ## Images of records -/

def lineJson (r : AuditRecord F) (payload : Json F) : Json F :=
  .obj [(Text.ofString "seq", .int r.seq), (Text.ofString "ts_ns", .int r.tsNs),
    (Text.ofString "run_id", .str r.runId), (Text.ofString "event", .str r.event),
    (Text.ofString "actor", .str r.actor), (Text.ofString "payload", payload),
    (Text.ofString "prev_hash", .str r.prevHash), (Text.ofString "hash", .str r.hash)]

def bodyJson (seq tsNs runId event actor payload prevHash : Json F) : Json F :=
  .obj [(Text.ofString "actor", actor), (Text.ofString "event", event),
    (Text.ofString "payload", payload), (Text.ofString "prev_hash", prevHash),
    (Text.ofString "run_id", runId), (Text.ofString "seq", seq),
    (Text.ofString "ts_ns", tsNs)]

theorem image_toDict (r : AuditRecord F) :
    (toDict r).image py.toFloatOps false =
      (r.payload.image py.toFloatOps false).map (lineJson r) := by
  cases h : r.payload.image py.toFloatOps false with
  | none => simp [toDict, PyVal.image, PyVal.imageItems, h]
  | some u =>
      simp [toDict, PyVal.image, PyVal.imageItems, h, PyVal.nameItems, key, PyKey.text, lineJson]

theorem image_digestInput {seq tsNs runId event actor payload prevHash : PyVal F}
    {seq' tsNs' runId' event' actor' payload' prevHash' : Json F}
    (hseq : seq.image py.toFloatOps true = some seq')
    (htsNs : tsNs.image py.toFloatOps true = some tsNs')
    (hrunId : runId.image py.toFloatOps true = some runId')
    (hevent : event.image py.toFloatOps true = some event')
    (hactor : actor.image py.toFloatOps true = some actor')
    (hpayload : payload.image py.toFloatOps true = some payload')
    (hprevHash : prevHash.image py.toFloatOps true = some prevHash') :
    (digestInput seq tsNs runId event actor payload prevHash).image py.toFloatOps true =
      some (bodyJson seq' tsNs' runId' event' actor' payload' prevHash') := by
  let members : List (Text × Json F) :=
    [(Text.ofString "seq", seq'), (Text.ofString "ts_ns", tsNs'), (Text.ofString "run_id", runId'),
      (Text.ofString "event", event'), (Text.ofString "actor", actor'),
      (Text.ofString "payload", payload'), (Text.ofString "prev_hash", prevHash')]
  have hitems : PyVal.imageItems py.toFloatOps true [(key "seq", seq), (key "ts_ns", tsNs),
      (key "run_id", runId), (key "event", event), (key "actor", actor), (key "payload", payload),
      (key "prev_hash", prevHash)] = some (members.map fun m => (PyKey.str m.1, m.2)) := by
    simp [PyVal.imageItems, hseq, htsNs, hrunId, hevent, hactor, hpayload, hprevHash, key, members]
  have hsorted : Json.sortMembers members =
      [(Text.ofString "actor", actor'), (Text.ofString "event", event'),
        (Text.ofString "payload", payload'), (Text.ofString "prev_hash", prevHash'),
        (Text.ofString "run_id", runId'), (Text.ofString "seq", seq'),
        (Text.ofString "ts_ns", tsNs')] := rfl
  rw [digestInput, PyVal.image, hitems]
  simp only [Option.bind_eq_bind, Option.bind_some, if_true, PyVal.sort?_str, PyVal.nameItems_str]
  rw [hsorted]
  rfl

def entryBody (seq : ℤ) (prev : Text) (e : Entry F) (payload : Json F) : Json F :=
  bodyJson (.int seq) (.int e.tsNs) (.str e.runId) (.str e.event) (.str e.actor) payload
    (.str prev)

theorem image_entryInput {seq : ℤ} {prev : Text} {e : Entry F} {payload : Json F}
    (h : e.payload.image py.toFloatOps true = some payload) :
    (entryInput seq prev e).image py.toFloatOps true = some (entryBody seq prev e payload) :=
  image_digestInput py rfl rfl rfl rfl rfl h rfl

theorem image_entryInput_none {seq : ℤ} {prev : Text} {e : Entry F}
    (h : e.payload.image py.toFloatOps true = none) :
    (entryInput seq prev e).image py.toFloatOps true = none := by
  simp [entryInput, digestInput, PyVal.image, PyVal.imageItems, h]

/-! ## Plain records -/

theorem plain_bodyJson_fields {seq tsNs runId event actor payload prevHash : Json F} :
    Plain ((bodyJson seq tsNs runId event actor payload prevHash).render py.toFloatOps) ↔
      Plain (actor.render py.toFloatOps) ∧ Plain (event.render py.toFloatOps) ∧
        Plain (payload.render py.toFloatOps) ∧ Plain (prevHash.render py.toFloatOps) ∧
        Plain (runId.render py.toFloatOps) ∧ Plain (seq.render py.toFloatOps) ∧
        Plain (tsNs.render py.toFloatOps) := by
  have hkey : ∀ name, Plain (Json.renderString (Text.ofString name)) := fun name =>
    plain_renderString.2 (plain_ofChars _)
  have hclose : Plain [Point.scalar '}'] := ⟨['}'], rfl⟩
  simp only [bodyJson, Json.render, Json.renderMembers, plain_cons, plain_append, hkey, hclose,
    true_and, and_true]

theorem plain_bodyJson {seq tsNs : ℤ} {runId event actor prevHash : Text} {payload : Json F} :
    Plain ((bodyJson (.int seq) (.int tsNs) (.str runId) (.str event) (.str actor) payload
        (.str prevHash)).render py.toFloatOps) ↔
      Plain runId ∧ Plain event ∧ Plain actor ∧ Plain prevHash ∧
        Plain (payload.render py.toFloatOps) := by
  rw [plain_bodyJson_fields]
  simp only [Json.render, plain_renderInt, plain_renderString]
  tauto

variable {log log' : AuditLog} {e : Entry F} {r : AuditRecord F}

theorem plain_lineJson {payload : Json F} :
    Plain ((lineJson r payload).render py.toFloatOps) ↔
      Plain r.runId ∧ Plain r.event ∧ Plain r.actor ∧ Plain r.prevHash ∧ Plain r.hash ∧
        Plain (payload.render py.toFloatOps) := by
  have hkey : ∀ name, Plain (Json.renderString (Text.ofString name)) := fun name =>
    plain_renderString.2 (plain_ofChars _)
  have hclose : Plain [Point.scalar '}'] := ⟨['}'], rfl⟩
  simp only [lineJson, Json.render, Json.renderMembers, plain_cons, plain_append, hkey,
    plain_renderInt, plain_renderString, hclose]
  tauto

/-! ## What is accepted -/

/-- An entry `append` accepts: its payload is encoded with and without sorted
keys, and no text of it holds a lone surrogate. -/
def Acceptable (e : Entry F) : Prop :=
  Plain e.runId ∧ Plain e.event ∧ Plain e.actor ∧
    (∃ sorted, e.payload.image py.toFloatOps true = some sorted ∧
      Plain (sorted.render py.toFloatOps)) ∧
    ∃ plain, e.payload.image py.toFloatOps false = some plain ∧
      Plain (plain.render py.toFloatOps)

structure Written where
  record : AuditRecord F
  sorted : Json F
  plain : Json F
  body : List Char
  line : List Char
  image_sorted : record.payload.image py.toFloatOps true = some sorted
  image_plain : record.payload.image py.toFloatOps false = some plain
  body_eq : Text.ofChars body =
    (bodyJson (.int record.seq) (.int record.tsNs) (.str record.runId) (.str record.event)
      (.str record.actor) sorted (.str record.prevHash)).render py.toFloatOps
  line_eq : Text.ofChars line = (lineJson record plain).render py.toFloatOps
  hash_eq : record.hash = Text.ofChars (py.sha256 (Utf8.encode body))

namespace Written

/-- The records are numbered from `n` and each carries the hash of the one
before. -/
def Chained : ℤ → Text → List (Written py) → Prop :=
  HashChain.Chained (fun w => w.record.hash) (fun w => w.record.prevHash)
    fun n w => w.record.seq = n

def head : Text → List (Written py) → Text := HashChain.head fun w => w.record.hash

def text (ws : List (Written py)) : List Char := ws.flatMap fun w => w.line ++ ['\n']

end Written

theorem digestBytes_eq {input : PyVal F} {j : Json F} {cs : List Char}
    (himage : input.image py.toFloatOps true = some j)
    (hcs : Text.ofChars cs = j.render py.toFloatOps) :
    digestBytes py input = .ok (Utf8.encode cs) := by
  rw [digestBytes, dumps]
  rw [himage]
  simp only [← hcs]
  exact encode_ofChars cs

theorem digest_eq {input : PyVal F} {j : Json F} {cs : List Char}
    (himage : input.image py.toFloatOps true = some j)
    (hcs : Text.ofChars cs = j.render py.toFloatOps) :
    digest py input = .ok (Text.ofChars (py.sha256 (Utf8.encode cs))) := by
  rw [digest]
  rw [digestBytes_eq py himage hcs]
  rfl

theorem lineBytes_eq {plain : Json F} {cs : List Char}
    (himage : r.payload.image py.toFloatOps false = some plain)
    (hcs : Text.ofChars cs = (lineJson r plain).render py.toFloatOps) :
    lineBytes py r = .ok (Utf8.encode (cs ++ ['\n'])) := by
  rw [lineBytes, dumps]
  rw [image_toDict, himage]
  simp only [Option.map_some, ← hcs]
  have hline : Text.ofChars cs ++ [.scalar '\n'] = Text.ofChars (cs ++ ['\n']) :=
    (ofChars_append cs ['\n']).symm
  exact (congrArg encode hline).trans (encode_ofChars _)

theorem append_of_acceptable (h : Acceptable py e)
    (hlast : Plain log.lastHash) :
    ∃ w : Written py, append py log e =
        .ok ({ log with
          file := log.file ++ Utf8.encode (w.line ++ ['\n'])
          seq := log.seq + 1
          lastHash := w.record.hash }, w.record) ∧
      w.record.payload = e.payload ∧ w.record.seq = log.seq + 1 ∧
      w.record.prevHash = log.lastHash := by
  obtain ⟨hrun, hevent, hactor, ⟨sorted, hsorted, hsortedPlain⟩, ⟨plain, hplain, hplainPlain⟩⟩ := h
  obtain ⟨body, hbody⟩ : Plain ((entryBody (log.seq + 1) log.lastHash e sorted).render
      py.toFloatOps) :=
    (plain_bodyJson py).2 ⟨hrun, hevent, hactor, hlast, hsortedPlain⟩
  have hdigest := digest_eq py (image_entryInput py hsorted) hbody.symm
  let r : AuditRecord F := ⟨log.seq + 1, e.tsNs, e.runId, e.event, e.actor, e.payload,
    log.lastHash, Text.ofChars (py.sha256 (Utf8.encode body))⟩
  obtain ⟨line, hline⟩ : Plain ((lineJson r plain).render py.toFloatOps) :=
    (plain_lineJson py).2 ⟨hrun, hevent, hactor, hlast, plain_ofChars _, hplainPlain⟩
  have hbytes := lineBytes_eq py (r := r) hplain hline.symm
  refine ⟨⟨r, sorted, plain, body, line, hsorted, hplain, hbody.symm, hline.symm, rfl⟩, ?_,
    rfl, rfl, rfl⟩
  rw [append, record]
  rw [hdigest]
  simp only [bind, Except.bind, pure, Except.pure]
  rw [hbytes]

theorem digestBytes_cases {input : PyVal F} {bytes : Bytes}
    (h : digestBytes py input = .ok bytes) :
    ∃ j cs, input.image py.toFloatOps true = some j ∧ Text.ofChars cs = j.render py.toFloatOps ∧
      bytes = Utf8.encode cs := by
  obtain ⟨body, hbody, hencode⟩ := bind_eq_ok.1 h
  rw [dumps] at hbody
  cases himage : input.image py.toFloatOps true with
  | none =>
      rw [himage] at hbody
      cases hbody
  | some j =>
      rw [himage] at hbody
      cases hbody
      obtain ⟨cs, hcs⟩ := plain_of_encode hencode
      rw [hcs, encode_ofChars] at hencode
      exact ⟨j, cs, rfl, hcs.symm, (Except.ok.inj hencode).symm⟩

theorem plain_of_lineBytes {bytes : Bytes} (h : lineBytes py r = .ok bytes) :
    ∃ plain, r.payload.image py.toFloatOps false = some plain ∧
      Plain ((lineJson r plain).render py.toFloatOps) := by
  obtain ⟨line, hline, hencode⟩ := bind_eq_ok.1 h
  rw [dumps] at hline
  rw [image_toDict] at hline
  cases himage : r.payload.image py.toFloatOps false with
  | none =>
      rw [himage] at hline
      cases hline
  | some plain =>
      rw [himage] at hline
      cases hline
      exact ⟨plain, rfl, (plain_append.1 (plain_of_encode hencode)).1⟩

theorem acceptable_of_append (h : append py log e = .ok (log', r)) : Acceptable py e := by
  obtain ⟨r', hrecord, h⟩ := bind_eq_ok.1 h
  obtain ⟨bytes, hline, -⟩ := bind_eq_ok.1 h
  obtain ⟨hash, hdigest, heq⟩ := bind_eq_ok.1 hrecord
  cases heq
  obtain ⟨input, hinput, -⟩ := bind_eq_ok.1 hdigest
  obtain ⟨j, cs, himage, hcs, -⟩ := digestBytes_cases py hinput
  have hplain : Plain (j.render py.toFloatOps) := ⟨cs, hcs.symm⟩
  obtain ⟨plain, hplainImage, hlinePlain⟩ := plain_of_lineBytes py hline
  obtain ⟨-, -, -, -, -, hpayload⟩ := (plain_lineJson py).1 hlinePlain
  cases hsorted : e.payload.image py.toFloatOps true with
  | none =>
      rw [image_entryInput_none py hsorted] at himage
      cases himage
  | some sorted =>
      rw [image_entryInput py hsorted] at himage
      cases himage
      obtain ⟨hrun, hevent, hactor, -, hsortedPlain⟩ := (plain_bodyJson py).1 hplain
      exact ⟨hrun, hevent, hactor, ⟨sorted, hsorted, hsortedPlain⟩, ⟨plain, hplainImage, hpayload⟩⟩

theorem digest_of_append (h : append py log e = .ok (log', r)) :
    digest py (entryInput (log.seq + 1) log.lastHash e) = .ok log'.lastHash := by
  obtain ⟨r', hrecord, h⟩ := bind_eq_ok.1 h
  obtain ⟨bytes, -, heq⟩ := bind_eq_ok.1 h
  obtain ⟨hash, hdigest, hr'⟩ := bind_eq_ok.1 hrecord
  cases hr'
  cases heq
  exact hdigest

theorem digest_congr {input input' : PyVal F}
    (h : input.image py.toFloatOps true = input'.image py.toFloatOps true) :
    digest py input = digest py input' := by
  unfold digest digestBytes dumps
  rw [h]

/-! ## What a sequence of calls writes -/

structure Holds (log : AuditLog) (ws : List (Written py)) : Prop where
  file : log.file = Utf8.encode (Written.text py ws)
  chained : Written.Chained py 1 genesis ws
  seq : log.seq = ws.length
  lastHash : log.lastHash = Written.head py genesis ws

theorem plain_hash (w : Written py) : Plain w.record.hash := by
  rw [w.hash_eq]
  exact plain_ofChars _

theorem plain_head (ws : List (Written py)) : Plain (Written.head py genesis ws) := by
  induction ws using List.reverseRecOn with
  | nil => exact plain_ofChars _
  | append_singleton ws w ih =>
      rw [Written.head]
      rw [HashChain.head_append]
      exact plain_hash py w

theorem Holds.fresh : Holds py fresh [] := ⟨rfl, trivial, rfl, rfl⟩

theorem text_append (ws ws' : List (Written py)) :
    Written.text py (ws ++ ws') = Written.text py ws ++ Written.text py ws' :=
  List.flatMap_append

theorem Holds.append_cases {log : AuditLog} {ws : List (Written py)} (h : Holds py log ws)
    (e : Entry F) :
    (Acceptable py e ∧ ∃ (w : Written py) (log' : AuditLog),
        append py log e = .ok (log', w.record) ∧ w.record.payload = e.payload ∧
          Holds py log' (ws ++ [w])) ∨
      (¬ Acceptable py e ∧ ∃ error, append py log e = .error error) := by
  by_cases hacc : Acceptable py e
  · refine Or.inl ⟨hacc, ?_⟩
    have hlast : Plain log.lastHash := h.lastHash ▸ plain_head py ws
    obtain ⟨w, happend, hpayload, hseq, hprev⟩ := append_of_acceptable py hacc hlast
    refine ⟨w, _, happend, hpayload, ?_, ?_, ?_, ?_⟩
    · simp [Written.text, h.file]
    · refine (HashChain.chained_concat _ _ _).2 ⟨h.chained, ?_, ?_⟩
      · rw [hseq, h.seq]
        omega
      · rw [hprev, h.lastHash]
        rfl
    · simp [h.seq]
    · rw [Written.head]
      rw [HashChain.head_append]
      rfl
  · refine Or.inr ⟨hacc, ?_⟩
    cases happend : append py log e with
    | error error => exact ⟨error, rfl⟩
    | ok written =>
        obtain ⟨log', r⟩ := written
        exact absurd (acceptable_of_append py happend) hacc

theorem appendAll_of_ok (h : append py log e = .ok (log', r)) (entries : List (Entry F)) :
    appendAll py log (e :: entries) =
      ((appendAll py log' entries).1, r :: (appendAll py log' entries).2) := by
  rw [Audit.appendAll, h]

theorem appendAll_of_error {error : PyError}
    (h : append py log e = .error error) (entries : List (Entry F)) :
    appendAll py log (e :: entries) = appendAll py log entries := by
  rw [Audit.appendAll, h]

theorem Holds.appendAll {log : AuditLog} {ws : List (Written py)} (h : Holds py log ws)
    (entries : List (Entry F)) :
    ∃ ws', Holds py (appendAll py log entries).1 (ws ++ ws') ∧
      (appendAll py log entries).2 = ws'.map (fun w => w.record) ∧
      ∀ p : PyVal F → Prop, (∀ w ∈ ws', p w.record.payload) ↔
        ∀ e ∈ entries, Acceptable py e → p e.payload := by
  induction entries generalizing log ws with
  | nil =>
      refine ⟨[], ?_, rfl, by simp⟩
      exact (List.append_nil ws).symm ▸ h
  | cons e entries ih =>
      rcases h.append_cases py e with ⟨hacc, w, log', happend, hpayload, hholds⟩ |
          ⟨hacc, error, happend⟩
      · obtain ⟨ws', hrest, hrecords, hall⟩ := ih hholds
        refine ⟨w :: ws', ?_, ?_, ?_⟩
        · have hassoc : ws ++ w :: ws' = (ws ++ [w]) ++ ws' := List.append_cons ws w ws'
          rw [appendAll_of_ok py happend, hassoc]
          exact hrest
        · rw [appendAll_of_ok py happend]
          simp [hrecords]
        · intro p
          rw [List.forall_mem_cons, List.forall_mem_cons, hall p, hpayload]
          exact and_congr_left' (by simp [hacc])
      · obtain ⟨ws', hrest, hrecords, hall⟩ := ih h
        refine ⟨ws', ?_, ?_, ?_⟩
        · rw [appendAll_of_error py happend]
          exact hrest
        · rw [appendAll_of_error py happend]
          exact hrecords
        · intro p
          rw [List.forall_mem_cons, hall p]
          simp [hacc]

end Audit
end Sentinel
