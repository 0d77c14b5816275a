import Sentinel.Core.AuditVerify

/-!
# Tamper evidence

A record that `verify` passes is bound to the canonical text its hash is taken
of.  That text holds every field but the hash, so a chain of records is a hash
chain of canonical texts, and its head decides them all.
-/

namespace Sentinel
namespace Audit

variable {F : Type} (py : Python F)

def recordFields : List String :=
  ["seq", "ts_ns", "run_id", "event", "actor", "payload", "prev_hash", "hash"]

/-- Two records with the same value in every field.  The members of an object
may be in another order. -/
def Agree (r r' : Json F) : Prop :=
  ∀ name ∈ recordFields, ∃ v v', item r name = .ok v ∧ item r' name = .ok v' ∧
    v.sortKeys = v'.sortKeys

def hashText (r : Json F) : Text :=
  match item r "hash" with
  | .ok hash => py.strOf hash
  | .error _ => []

def headHash (file : Bytes) : Text :=
  HashChain.head (hashText py) genesis (iterRecords py file)

theorem head_readBack (prev : Text) (ws : List (Written py)) :
    HashChain.head (hashText py) prev (ws.map (Written.readBack py)) =
      Written.head py prev ws := by
  induction ws generalizing prev with
  | nil => rfl
  | cons w ws ih =>
      have hhash : hashText py (w.readBack py) = w.record.hash := py.strOf_str w.record.hash
      rw [List.map_cons, HashChain.head, hhash, ih]
      rfl

theorem Holds.headHash_eq {log : AuditLog} {ws : List (Written py)} (h : Holds py log ws) :
    headHash py log.file = log.lastHash := by
  rw [headHash, h.file, iterRecords_text, head_readBack, h.lastHash]

/-! ## Canonical texts -/

@[ext] structure Canonical where
  body : Json F
  text : List Char
  text_eq : Text.ofChars text = body.render py.toFloatOps

namespace Canonical

def hash (b : Canonical py) : Text := Text.ofChars (py.sha256 (Utf8.encode b.text))

def link (b : Canonical py) : Text :=
  match item b.body "prev_hash" with
  | .ok (.str prev) => prev
  | _ => []

def Numbered (n : ℤ) (b : Canonical py) : Prop :=
  ∃ seq, item b.body "seq" = .ok seq ∧ equalsInt py seq n = true

/-- The text is the one `verify` hashes for the record. -/
def Of (r : Json F) (b : Canonical py) : Prop :=
  item r "hash" = .ok (.str (b.hash py)) ∧
  ∃ seq tsNs runId event actor payload prevHash,
    item r "seq" = .ok seq ∧ item r "ts_ns" = .ok tsNs ∧ item r "run_id" = .ok runId ∧
    item r "event" = .ok event ∧ item r "actor" = .ok actor ∧
    item r "payload" = .ok payload ∧ item r "prev_hash" = .ok prevHash ∧
    b.body = bodyJson seq.sortKeys tsNs.sortKeys runId.sortKeys event.sortKeys actor.sortKeys
      payload.sortKeys prevHash.sortKeys

theorem hash_injOn {bytes : Set Bytes} (hinj : Set.InjOn py.sha256 bytes) :
    Set.InjOn (hash py) {b | Utf8.encode b.text ∈ bytes} := by
  intro b hb b' hb' h
  have hencoded : Utf8.encode b.text = Utf8.encode b'.text := hinj hb hb' (ofChars_injective h)
  have htext : b.text = b'.text := Utf8.encode_injective hencoded
  have hrender : b.body.render py.toFloatOps = b'.body.render py.toFloatOps := by
    rw [← b.text_eq, ← b'.text_eq, htext]
  exact Canonical.ext (Json.eq_of_render_eq py.toFloatOps _ _ hrender) htext

theorem equalsInt_inj {v : Json F} {n m : ℤ} (hn : equalsInt py v n = true)
    (hm : equalsInt py v m = true) : n = m := by
  cases v with
  | float x =>
      simp only [equalsInt, decide_eq_true_eq] at hn hm
      have hvalue := FloatValue.finite.inj (hn.symm.trans hm)
      exact_mod_cast hvalue
  | _ => simp_all [equalsInt]

theorem Numbered.eq {n m : ℤ} {b : Canonical py} (hn : Numbered py n b)
    (hm : Numbered py m b) : n = m := by
  obtain ⟨seq, hseq, hequal⟩ := hn
  obtain ⟨seq', hseq', hequal'⟩ := hm
  cases hseq.symm.trans hseq'
  exact equalsInt_inj py hequal hequal'

theorem Of.agree {r r' : Json F} {b : Canonical py} (h : Of py r b) (h' : Of py r' b) :
    Agree r r' := by
  obtain ⟨hhash, seq, tsNs, runId, event, actor, payload, prevHash, hseq, htsNs, hrunId, hevent,
    hactor, hpayload, hprevHash, hbody⟩ := h
  obtain ⟨hhash', seq', tsNs', runId', event', actor', payload', prevHash', hseq', htsNs',
    hrunId', hevent', hactor', hpayload', hprevHash', hbody'⟩ := h'
  have hsame := hbody.symm.trans hbody'
  simp only [bodyJson, Json.obj.injEq, List.cons.injEq, Prod.mk.injEq, true_and, and_true] at hsame
  obtain ⟨sactor, sevent, spayload, sprevHash, srunId, sseq, stsNs⟩ := hsame
  simp only [Agree, recordFields, List.forall_mem_cons, List.not_mem_nil, false_implies,
    implies_true, and_true]
  exact ⟨⟨_, _, hseq, hseq', sseq⟩, ⟨_, _, htsNs, htsNs', stsNs⟩,
    ⟨_, _, hrunId, hrunId', srunId⟩, ⟨_, _, hevent, hevent', sevent⟩,
    ⟨_, _, hactor, hactor', sactor⟩, ⟨_, _, hpayload, hpayload', spayload⟩,
    ⟨_, _, hprevHash, hprevHash', sprevHash⟩, ⟨_, _, hhash, hhash', rfl⟩⟩

theorem forall₂_agree {rs rs' : List (Json F)} {bs : List (Canonical py)}
    (h : List.Forall₂ (Of py) rs bs) (h' : List.Forall₂ (Of py) rs' bs) :
    List.Forall₂ Agree rs rs' := by
  induction h generalizing rs' with
  | nil =>
      cases h'
      exact List.Forall₂.nil
  | cons hof _ ih =>
      cases h' with
      | cons hof' hofs' => exact List.Forall₂.cons (hof.agree py hof') (ih hofs')

end Canonical

/-! ## The chain of a file -/

theorem Checked.canonical {n : ℤ} {prev h : Text} {r : Json F} (hchecked : Checked py n prev r h) :
    ∃ b : Canonical py, b.Of py r ∧ b.hash py = h ∧ b.link py = prev ∧ b.Numbered py n ∧
      ∃ input, recordInput r = .ok input ∧ digestBytes py input = .ok (Utf8.encode b.text) := by
  obtain ⟨-, ⟨seq, hseq, hequal⟩, hprev, hhash, input, hinput, hdigest⟩ := hchecked
  obtain ⟨seq', tsNs, runId, event, actor, payload, prevHash, hseq', htsNs, hrunId, hevent,
    hactor, hpayload, hprevHash, rfl⟩ := recordInput_eq hinput
  cases hseq.symm.trans hseq'
  cases hprev.symm.trans hprevHash
  obtain ⟨bytes, hbytes, hsha⟩ := bind_eq_ok.1 hdigest
  obtain ⟨body, text, himage, htext, rfl⟩ := digestBytes_cases py hbytes
  have himage' := image_digestInput py (PyVal.image_ofJson py.toFloatOps seq)
    (PyVal.image_ofJson py.toFloatOps tsNs) (PyVal.image_ofJson py.toFloatOps runId)
    (PyVal.image_ofJson py.toFloatOps event) (PyVal.image_ofJson py.toFloatOps actor)
    (PyVal.image_ofJson py.toFloatOps payload) (PyVal.image_ofJson py.toFloatOps (.str prev))
  cases himage.symm.trans himage'
  cases hsha
  refine ⟨⟨_, text, htext⟩, ⟨hhash, seq, tsNs, runId, event, actor, payload, .str prev, hseq,
    htsNs, hrunId, hevent, hactor, hpayload, hprevHash, rfl⟩, rfl, rfl,
    ⟨seq.sortKeys, rfl, ?_⟩, _, hinput, hbytes⟩
  cases seq <;> exact hequal

theorem Walked.canonical {n : ℤ} {prev : Text} {rs : List (Json F)}
    (hwalked : Walked py n prev rs) :
    ∃ bs : List (Canonical py), List.Forall₂ (Canonical.Of py) rs bs ∧
      HashChain.Chained (Canonical.hash py) (Canonical.link py) (Canonical.Numbered py) n prev bs ∧
      HashChain.head (hashText py) prev rs = HashChain.head (Canonical.hash py) prev bs ∧
      ∀ b ∈ bs, ∃ r ∈ rs, ∃ input,
        recordInput r = .ok input ∧ digestBytes py input = .ok (Utf8.encode b.text) := by
  induction rs generalizing n prev with
  | nil => exact ⟨[], List.Forall₂.nil, trivial, rfl, by simp⟩
  | cons r rs ih =>
      obtain ⟨h, hchecked, hrest⟩ := hwalked
      obtain ⟨b, hof, rfl, hlink, hnumbered, hmem⟩ := hchecked.canonical
      obtain ⟨bs, hofs, hchained, hhead, hmems⟩ := ih hrest
      have htext : hashText py r = b.hash py := by
        rw [hashText, hof.1]
        exact py.strOf_str _
      refine ⟨b :: bs, List.Forall₂.cons hof hofs, ⟨hnumbered, hlink, hchained⟩, ?_, ?_⟩
      · simp only [HashChain.head, htext, hhead]
      · refine List.forall_mem_cons.2 ⟨⟨r, List.mem_cons_self, hmem⟩, fun c hc => ?_⟩
        obtain ⟨r', hr', hrest⟩ := hmems c hc
        exact ⟨r', List.mem_cons_of_mem r hr', hrest⟩

/-- Two files that `verify` accepts, with one head, agree on every field of
every record, when they have the same number of records or neither is empty. -/
theorem verifies_agree {file file' : Bytes} (hfile : Verifies py file)
    (hfile' : Verifies py file')
    (hinj : Set.InjOn py.sha256 (recomputed py file ∪ recomputed py file'))
    (hrecords : (iterRecords py file).length = (iterRecords py file').length ∨
      iterRecords py file ≠ [] ∧ iterRecords py file' ≠ [])
    (hhead : headHash py file = headHash py file') :
    List.Forall₂ Agree (iterRecords py file) (iterRecords py file') := by
  obtain ⟨bs, hofs, hchained, hbs, hmem⟩ := ((verifies_iff py).1 hfile).canonical
  obtain ⟨bs', hofs', hchained', hbs', hmem'⟩ := ((verifies_iff py).1 hfile').canonical
  have hheads : HashChain.head (Canonical.hash py) genesis bs =
      HashChain.head (Canonical.hash py) genesis bs' := hbs.symm.trans (hhead.trans hbs')
  have hblocks := Canonical.hash_injOn py hinj
  have hmemBs : ∀ b ∈ bs, Utf8.encode b.text ∈ recomputed py file ∪ recomputed py file' :=
    fun b hb => Or.inl (hmem b hb)
  have hmemBs' : ∀ b ∈ bs', Utf8.encode b.text ∈ recomputed py file ∪ recomputed py file' :=
    fun b hb => Or.inr (hmem' b hb)
  have hlength : bs.length = bs'.length := by
    rcases hrecords with hrecords | ⟨hne, hne'⟩
    · rw [← hofs.length_eq, ← hofs'.length_eq, hrecords]
    · refine hchained.length_eq_of_head_eq hblocks (fun hm hm' => hm.eq py hm') hchained'
        hmemBs hmemBs' ?_ ?_ hheads
      · rintro rfl
        exact hne (List.forall₂_nil_right_iff.1 hofs)
      · rintro rfl
        exact hne' (List.forall₂_nil_right_iff.1 hofs')
  have hsame := hchained.eq_of_head_eq hblocks hchained' hmemBs hmemBs' hlength hheads
  subst hsame
  exact Canonical.forall₂_agree py hofs hofs'

/-- The names of `namesEntry`, in another order. -/
def swappedEntry : Entry FloatText :=
  { namesEntry with
    payload := .dict [(key "build", .int 7), (key "mode", .str (Text.ofString "paper"))] }

theorem swappedEntry_acceptable : Acceptable hexPython swappedEntry := by
  let image : Json FloatText := .obj [(Text.ofString "build", .int 7),
    (Text.ofString "mode", .str (Text.ofString "paper"))]
  have hplain : Plain (image.render hexPython.toFloatOps) := by decide
  exact ⟨plain_ofChars _, plain_ofChars _, plain_ofChars _, ⟨image, rfl, hplain⟩,
    ⟨image, rfl, hplain⟩⟩

theorem swappedEntry_keysInOrder : swappedEntry.payload.KeysInOrder hexPython.toFloatOps := by
  have hnames := @PyVal.namesIncrease_str FloatText hexPython.toFloatOps
    [(Text.ofString "build", .null), (Text.ofString "mode", .null)] (by decide)
  exact ⟨hnames, trivial, trivial, trivial⟩

/-- Two journals that write one payload in two orders. -/
theorem verifies_agree_swappedEntry :
    ∃ log log' r r', append hexPython fresh namesEntry = .ok (log, r) ∧
      append hexPython fresh swappedEntry = .ok (log', r') ∧
      List.Forall₂ Agree (iterRecords hexPython log.file) (iterRecords hexPython log'.file) := by
  have hempty := Holds.fresh hexPython
  rcases hempty.append_cases hexPython namesEntry with
      ⟨-, w, log, happend, hpayload, hholds⟩ | ⟨hacc, -⟩
  · rcases hempty.append_cases hexPython swappedEntry with
        ⟨-, w', log', happend', hpayload', hholds'⟩ | ⟨hacc, -⟩
    · refine ⟨log, log', w.record, w'.record, happend, happend', ?_⟩
      have hfile : Verifies hexPython log.file := hholds.verifies_of_keysInOrder hexPython (by
        intro v hv
        cases List.mem_singleton.1 hv
        exact hpayload ▸ namesEntry_keysInOrder)
      have hfile' : Verifies hexPython log'.file := hholds'.verifies_of_keysInOrder hexPython (by
        intro v hv
        cases List.mem_singleton.1 hv
        exact hpayload' ▸ swappedEntry_keysInOrder)
      have hrecords : (iterRecords hexPython log.file).length =
          (iterRecords hexPython log'.file).length := by
        rw [hholds.file, hholds'.file, iterRecords_text, iterRecords_text]
        rfl
      have himage : namesEntry.payload.image hexPython.toFloatOps true =
          swappedEntry.payload.image hexPython.toFloatOps true := rfl
      have hinput : (entryInput (fresh.seq + 1) fresh.lastHash namesEntry).image
            hexPython.toFloatOps true =
          (entryInput (fresh.seq + 1) fresh.lastHash swappedEntry).image
            hexPython.toFloatOps true :=
        (image_entryInput hexPython himage).trans (image_entryInput hexPython rfl).symm
      have hdigest := digest_of_append hexPython happend
      rw [digest_congr hexPython hinput, digest_of_append hexPython happend'] at hdigest
      have hhead : headHash hexPython log.file = headHash hexPython log'.file := by
        rw [hholds.headHash_eq, hholds'.headHash_eq]
        exact (Except.ok.inj hdigest).symm
      exact verifies_agree hexPython hfile hfile' hexdigest_injective.injOn (Or.inl hrecords) hhead
    · exact absurd swappedEntry_acceptable hacc
  · exact absurd namesEntry_acceptable hacc

end Audit
end Sentinel
