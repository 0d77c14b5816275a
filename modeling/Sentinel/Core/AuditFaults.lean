import Sentinel.Core.AuditVerify

/-!
# Appends that fail midway

`append` writes and flushes the line before it moves the sequence number and the
head hash.  A call that raises in between leaves bytes of its line in the file,
or in the stream over it, that the next call knows nothing of.
-/

namespace Sentinel
namespace Audit

/-! ## The file and the stream over it -/

/-- Where a call of `append` raises after its line is made. -/
inductive Fault where
  /-- `write` raises: the stream took `taken` bytes of the line in, and `landed`
  bytes of what it held reached the file. -/
  | write (taken landed : ℕ)
  /-- `flush` raises after `landed` bytes of what the stream held reached the
  file. -/
  | flush (landed : ℕ)
  /-- `os.fsync` raises: everything reached the file. -/
  | fsync
  deriving DecidableEq

namespace Fault

def taken (line : Bytes) : Fault → Bytes
  | write taken _ => line.take taken
  | flush _ => line
  | fsync => line

def landed (held : Bytes) : Fault → ℕ
  | write _ landed => landed
  | flush landed => landed
  | fsync => held.length

end Fault

structure Device where
  log : AuditLog
  held : Bytes

/-- A call of `append`, and where it raises once its line is made. -/
structure Call (F : Type) where
  entry : Entry F
  fault : Option Fault

variable {F : Type} (py : Python F)

def made (log : AuditLog) (e : Entry F) : Except PyError (AuditRecord F × Bytes) := do
  let r ← record py (log.seq + 1) log.lastHash e
  let line ← lineBytes py r
  pure (r, line)

def Device.finish (d : Device) (r : AuditRecord F) (line : Bytes) : Device where
  log := { d.log with file := d.log.file ++ (d.held ++ line), seq := r.seq, lastHash := r.hash }
  held := []

def Device.fail (d : Device) (fault : Fault) (line : Bytes) : Device where
  log :=
    { d.log with
      file := d.log.file ++
        (d.held ++ fault.taken line).take (fault.landed (d.held ++ fault.taken line)) }
  held := (d.held ++ fault.taken line).drop (fault.landed (d.held ++ fault.taken line))

def Device.after (d : Device) :
    Except PyError (AuditRecord F × Bytes) → Option Fault → Device × Option (AuditRecord F)
  | .error _, _ => (d, none)
  | .ok (r, line), none => (d.finish r line, some r)
  | .ok (_, line), some fault => (d.fail fault line, none)

/-- One call of `append`. -/
def attempt (d : Device) (c : Call F) : Device × Option (AuditRecord F) :=
  d.after (made py d.log c.entry) c.fault

def attemptAll (d : Device) : List (Call F) → Device × List (AuditRecord F)
  | [] => (d, [])
  | c :: calls =>
      ((attemptAll (attempt py d c).1 calls).1,
        (attempt py d c).2.toList ++ (attemptAll (attempt py d c).1 calls).2)

def closed : Device := ⟨fresh, []⟩

/-! ## What is asked of a run -/

def StandsOnce (file : Bytes) (r : AuditRecord F) : Prop :=
  ∃! i : ℕ, ∃ plain, r.payload.image py.toFloatOps false = some plain ∧
    (iterRecords py file)[i]? = some (lineJson r plain.reload)

variable (calls : List (Call F))

/-- After every call that returns, the journal is found intact and each record
returned so far stands in it once. -/
def Sound : Prop :=
  ∀ before c, before ++ [c] <+: calls →
    (attempt py (attemptAll py closed before).1 c).2.isSome = true →
    Verifies py (attemptAll py closed (before ++ [c])).1.log.file ∧
      ∀ r ∈ (attemptAll py closed (before ++ [c])).2,
        StandsOnce py (attemptAll py closed (before ++ [c])).1.log.file r

def Call.Returns (c : Call F) : Prop := Acceptable py c.entry ∧ c.fault = none

def Call.Disturbs (c : Call F) : Prop :=
  Acceptable py c.entry ∧ ∃ fault, c.fault = some fault ∧
    ∀ taken landed, fault = .write taken landed → 0 < taken

/-- No call returns after one that raised when the stream had taken bytes of its
line in. -/
def Undisturbed : Prop :=
  ∀ before c, before ++ [c] <+: calls → c.Returns py → ∀ c' ∈ before, ¬ c'.Disturbs py

/-- The stream takes every line in whole, or nothing of it: `write` raises before
it took anything, or it is `flush` or `os.fsync` that raises. -/
def WholeLines : Prop :=
  ∀ c ∈ calls, ∀ taken landed, c.fault = some (.write taken landed) → taken = 0

/-! ## One call -/

variable {d : Device}

variable {c : Call F}

theorem attempt_of_made {r : AuditRecord F} {line : Bytes}
    (hmade : made py d.log c.entry = .ok (r, line)) (hfault : c.fault = none) :
    attempt py d c = (d.finish r line, some r) := by
  rw [attempt, hmade, hfault]
  rfl

theorem attempt_of_fault {r : AuditRecord F} {line : Bytes}
    {fault : Fault} (hmade : made py d.log c.entry = .ok (r, line))
    (hfault : c.fault = some fault) : attempt py d c = (d.fail fault line, none) := by
  rw [attempt, hmade, hfault]
  rfl

theorem attempt_of_error {error : PyError}
    (hmade : made py d.log c.entry = .error error) : attempt py d c = (d, none) := by
  rw [attempt, hmade]
  rfl

theorem fail_nothing (log : AuditLog) (landed : ℕ) (line : Bytes) :
    (Device.mk log []).fail (.write 0 landed) line = ⟨log, []⟩ := by
  simp [Device.fail, Fault.taken]

theorem file_held_fail (d : Device) (fault : Fault) (line : Bytes) :
    (d.fail fault line).log.file ++ (d.fail fault line).held =
      d.log.file ++ (d.held ++ fault.taken line) := by
  simp only [Device.fail, List.append_assoc, List.take_append_drop]

theorem append_eq_ok_iff {log log' : AuditLog} {e : Entry F} {r : AuditRecord F} :
    append py log e = .ok (log', r) ↔ ∃ line, made py log e = .ok (r, line) ∧
      log' = { log with file := log.file ++ line, seq := r.seq, lastHash := r.hash } := by
  constructor
  · intro happend
    obtain ⟨r', hrecord, happend⟩ := bind_eq_ok.1 happend
    obtain ⟨line, hline, heq⟩ := bind_eq_ok.1 happend
    cases heq
    exact ⟨line, bind_eq_ok.2 ⟨r, hrecord, bind_eq_ok.2 ⟨line, hline, rfl⟩⟩, rfl⟩
  · rintro ⟨line, hmade, rfl⟩
    obtain ⟨r', hrecord, hmade⟩ := bind_eq_ok.1 hmade
    obtain ⟨line', hline, heq⟩ := bind_eq_ok.1 hmade
    cases heq
    exact bind_eq_ok.2 ⟨r, hrecord, bind_eq_ok.2 ⟨line, hline, rfl⟩⟩

theorem attempt_closed_eq_append {log log' : AuditLog} {e : Entry F} {r : AuditRecord F}
    (h : append py log e = .ok (log', r)) :
    attempt py ⟨log, []⟩ ⟨e, none⟩ = (⟨log', []⟩, some r) := by
  obtain ⟨line, hmade, rfl⟩ := (append_eq_ok_iff py).1 h
  have hattempt := attempt_of_made py (d := ⟨log, []⟩) (c := ⟨e, none⟩) hmade rfl
  rw [hattempt, Device.finish, List.nil_append]

theorem attempt_of_not_acceptable (d : Device) {c : Call F} (h : ¬ Acceptable py c.entry) :
    attempt py d c = (d, none) := by
  cases hmade : made py d.log c.entry with
  | error error => exact attempt_of_error py hmade
  | ok found =>
      have happend := (append_eq_ok_iff py).2 ⟨found.2, hmade, rfl⟩
      exact absurd (acceptable_of_append py happend) h

theorem made_of_acceptable {log : AuditLog} {e : Entry F} (h : Acceptable py e)
    (hlast : Plain log.lastHash) :
    ∃ w : Written py, made py log e = .ok (w.record, Utf8.encode (w.line ++ ['\n'])) ∧
      w.record.payload = e.payload ∧ w.record.seq = log.seq + 1 ∧
      w.record.prevHash = log.lastHash := by
  obtain ⟨w, happend, hpayload, hseq, hprev⟩ := append_of_acceptable py h hlast
  obtain ⟨line, hmade, -⟩ := (append_eq_ok_iff py).1 happend
  obtain ⟨r, hrecord, hrest⟩ := bind_eq_ok.1 hmade
  obtain ⟨line', hline, heq⟩ := bind_eq_ok.1 hrest
  cases heq
  rw [lineBytes_eq py w.image_plain w.line_eq] at hline
  cases hline
  exact ⟨w, hmade, hpayload, hseq, hprev⟩

theorem returns_of_isSome (h : (attempt py d c).2.isSome = true) : c.Returns py := by
  by_cases hacc : Acceptable py c.entry
  · refine ⟨hacc, ?_⟩
    cases hfault : c.fault with
    | none => rfl
    | some fault =>
        cases hmade : made py d.log c.entry with
        | error error => simp [attempt_of_error py hmade] at h
        | ok found => simp [attempt_of_fault py hmade hfault] at h
  · simp [attempt_of_not_acceptable py d hacc] at h

theorem Call.Returns.not_disturbs (h : c.Returns py) : ¬ c.Disturbs py := by
  rintro ⟨-, fault, hfault, -⟩
  cases hfault.symm.trans h.2

theorem attemptAll_append (d : Device) (before : List (Call F)) (c : Call F) :
    attemptAll py d (before ++ [c]) =
      ((attempt py (attemptAll py d before).1 c).1,
        (attemptAll py d before).2 ++ (attempt py (attemptAll py d before).1 c).2.toList) := by
  induction before generalizing d with
  | nil => simp [attemptAll]
  | cons c' before ih => simp [attemptAll, ih]

/-! ## Undisturbed runs -/

/-- The journal holds these records, and the stream nothing. -/
structure Settled (d : Device) (ws : List (Written py)) : Prop where
  holds : Holds py d.log ws
  held : d.held = []

theorem Settled.closed : Settled py closed [] := ⟨Holds.fresh py, rfl⟩

theorem Settled.attempt_cases {ws : List (Written py)} (h : Settled py d ws)
    {c : Call F} (hc : ¬ c.Disturbs py) :
    (c.Returns py ∧ ∃ (w : Written py) (d' : Device), attempt py d c = (d', some w.record) ∧
        w.record.payload = c.entry.payload ∧ Settled py d' (ws ++ [w])) ∨
      (¬ c.Returns py ∧ attempt py d c = (d, none)) := by
  obtain ⟨log, held⟩ := d
  obtain ⟨hholds, rfl⟩ := h
  rcases hholds.append_cases py c.entry with ⟨hacc, w, log', happend, hpayload, hholds'⟩ |
    ⟨hacc, -⟩
  · cases hfault : c.fault with
    | none =>
        refine Or.inl ⟨⟨hacc, hfault⟩, w, ⟨log', []⟩, ?_, hpayload, hholds', rfl⟩
        rw [← attempt_closed_eq_append py happend, ← hfault]
    | some fault =>
        refine Or.inr ⟨fun hreturns => ?_, ?_⟩
        · cases hfault.symm.trans hreturns.2
        · obtain ⟨landed, rfl⟩ : ∃ landed, fault = .write 0 landed := by
            by_contra hnone
            refine hc ⟨hacc, fault, hfault, fun taken landed heq => ?_⟩
            apply Nat.pos_of_ne_zero
            rintro rfl
            exact hnone ⟨landed, heq⟩
          obtain ⟨line, hmade, -⟩ := (append_eq_ok_iff py).1 happend
          rw [attempt_of_fault py hmade hfault, fail_nothing]
  · exact Or.inr ⟨fun hreturns => hacc hreturns.1, attempt_of_not_acceptable py _ hacc⟩

theorem Settled.attemptAll {d : Device} {ws : List (Written py)} (h : Settled py d ws)
    {calls : List (Call F)} (hcalls : ∀ c ∈ calls, ¬ c.Disturbs py) :
    ∃ ws', Settled py (attemptAll py d calls).1 (ws ++ ws') ∧
      (Audit.attemptAll py d calls).2 = ws'.map (fun w => w.record) ∧
      ∀ w ∈ ws', ∃ c ∈ calls, c.Returns py ∧ w.record.payload = c.entry.payload := by
  induction calls generalizing d ws with
  | nil => exact ⟨[], by simpa [Audit.attemptAll] using h, rfl, by simp⟩
  | cons c calls ih =>
      obtain ⟨hc, hrest⟩ := List.forall_mem_cons.1 hcalls
      rcases h.attempt_cases py hc with ⟨hreturns, w, d', hattempt, hpayload, hsettled⟩ |
        ⟨-, hattempt⟩
      · obtain ⟨ws', hsettled', hrecords, hfrom⟩ := ih hsettled hrest
        refine ⟨w :: ws', ?_, ?_, ?_⟩
        · have hassoc : ws ++ w :: ws' = (ws ++ [w]) ++ ws' := List.append_cons ws w ws'
          rw [Audit.attemptAll, hattempt, hassoc]
          exact hsettled'
        · rw [Audit.attemptAll, hattempt]
          simp [hrecords]
        · rw [List.forall_mem_cons]
          refine ⟨⟨c, by simp, hreturns, hpayload⟩, fun w' hw' => ?_⟩
          obtain ⟨c', hc', hfrom'⟩ := hfrom w' hw'
          exact ⟨c', List.mem_cons_of_mem c hc', hfrom'⟩
      · obtain ⟨ws', hsettled', hrecords, hfrom⟩ := ih h hrest
        refine ⟨ws', ?_, ?_, fun w' hw' => ?_⟩
        · rw [Audit.attemptAll, hattempt]
          exact hsettled'
        · rw [Audit.attemptAll, hattempt]
          exact hrecords
        · obtain ⟨c', hc', hfrom'⟩ := hfrom w' hw'
          exact ⟨c', List.mem_cons_of_mem c hc', hfrom'⟩

theorem Chained.seq_of_getElem {n : ℤ} {prev : Text} {ws : List (Written py)}
    (h : Written.Chained py n prev ws) {i : ℕ} {w : Written py} (hw : ws[i]? = some w) :
    w.record.seq = n + i := by
  induction ws generalizing n prev i with
  | nil => simp at hw
  | cons w' ws ih =>
      obtain ⟨hseq, -, hrest⟩ := h
      cases i with
      | zero =>
          cases hw
          simpa using hseq
      | succ i =>
          have hlater := ih hrest hw
          push_cast
          omega

theorem Holds.standsOnce {log : AuditLog} {ws : List (Written py)} (h : Holds py log ws)
    {w : Written py} (hw : w ∈ ws) : StandsOnce py log.file w.record := by
  obtain ⟨i, hi⟩ := List.mem_iff_getElem?.1 hw
  refine ⟨i, ⟨w.plain, w.image_plain, ?_⟩, ?_⟩
  · rw [h.file, iterRecords_text, List.getElem?_map, hi]
    rfl
  · rintro j ⟨plain, -, hj⟩
    rw [h.file, iterRecords_text, List.getElem?_map, Option.map_eq_some_iff] at hj
    obtain ⟨w', hw', hread⟩ := hj
    have hseq : w'.record.seq = w.record.seq := by
      have hitem : (Except.ok (.int w'.record.seq) : Except PyError (Json F)) =
          .ok (.int w.record.seq) := congrArg (fun r => item r "seq") hread
      simpa using hitem
    have hi' := Chained.seq_of_getElem py h.chained hi
    have hj' := Chained.seq_of_getElem py h.chained hw'
    omega

theorem sound_of_undisturbed {calls : List (Call F)} (hcalls : Undisturbed py calls)
    (hkeys : ∀ c ∈ calls, c.Returns py → c.entry.payload.KeysInOrder py.toFloatOps) :
    Sound py calls := by
  intro before c hinitial hreturned
  have hreturns := returns_of_isSome py hreturned
  have hquiet : ∀ c' ∈ before ++ [c], ¬ c'.Disturbs py := by
    rw [List.forall_mem_append, List.forall_mem_singleton]
    exact ⟨hcalls before c hinitial hreturns, hreturns.not_disturbs py⟩
  obtain ⟨ws, ⟨hholds, -⟩, hrecords, hfrom⟩ :=
    (Settled.closed py).attemptAll py hquiet
  constructor
  · apply hholds.verifies_of_keysInOrder
    intro w hw
    obtain ⟨c', hc', hreturns', hpayload⟩ := hfrom w hw
    rw [hpayload]
    exact hkeys c' (hinitial.subset hc') hreturns'
  · intro r hr
    rw [hrecords] at hr
    obtain ⟨w, hw, rfl⟩ := List.mem_map.1 hr
    exact hholds.standsOnce py hw

/-! ## Lines left behind -/

/-- The file and the stream hold whole lines, `surplus` of them more than the
journal has counted. -/
def Piled (d : Device) (surplus : ℕ) : Prop :=
  ∃ ws : List (Written py), d.log.file ++ d.held = Utf8.encode (Written.text py ws) ∧
    (ws.length : ℤ) = d.log.seq + surplus ∧ Plain d.log.lastHash

theorem encode_text_concat {file held : Bytes} {ws : List (Written py)}
    (h : file ++ held = Utf8.encode (Written.text py ws)) (w : Written py) :
    file ++ (held ++ Utf8.encode (w.line ++ ['\n'])) =
      Utf8.encode (Written.text py (ws ++ [w])) := by
  rw [← List.append_assoc, h, ← Utf8.encode_append, text_append]
  simp [Written.text]

theorem Piled.attempt {d : Device} {surplus : ℕ} (h : Piled py d surplus) {c : Call F}
    (hwhole : ∀ taken landed, c.fault = some (.write taken landed) → taken = 0) :
    ∃ surplus', Piled py (attempt py d c).1 surplus' ∧ surplus ≤ surplus' ∧
      (c.Disturbs py → surplus < surplus') := by
  obtain ⟨ws, hbytes, hcount, hlast⟩ := h
  by_cases hacc : Acceptable py c.entry
  · obtain ⟨w, hmade, -, hseq, -⟩ := made_of_acceptable py hacc hlast
    have hmore : d.log.file ++ (d.held ++ Utf8.encode (w.line ++ ['\n'])) =
        Utf8.encode (Written.text py (ws ++ [w])) := encode_text_concat py hbytes w
    cases hfault : c.fault with
    | none =>
        rw [attempt_of_made py hmade hfault]
        refine ⟨surplus, ⟨ws ++ [w], ?_, ?_, plain_hash py w⟩, le_rfl, fun hdisturbs => ?_⟩
        · exact (List.append_nil _).trans hmore
        · rw [Device.finish, hseq, List.length_append, List.length_singleton]
          push_cast
          omega
        · exact absurd hdisturbs (Call.Returns.not_disturbs py ⟨hacc, hfault⟩)
    | some fault =>
        rw [attempt_of_fault py hmade hfault]
        by_cases hnothing : ∃ landed, fault = .write 0 landed
        · obtain ⟨landed, rfl⟩ := hnothing
          refine ⟨surplus, ⟨ws, ?_, hcount, hlast⟩, le_rfl, ?_⟩
          · rw [file_held_fail, Fault.taken, List.take_zero, List.append_nil]
            exact hbytes
          · rintro ⟨-, fault, hfault', htaken⟩
            cases hfault.symm.trans hfault'
            exact absurd (htaken 0 landed rfl) (lt_irrefl 0)
        · have htaken : fault.taken (Utf8.encode (w.line ++ ['\n'])) =
              Utf8.encode (w.line ++ ['\n']) := by
            cases fault with
            | write taken landed =>
                cases hwhole taken landed hfault
                exact absurd ⟨landed, rfl⟩ hnothing
            | flush landed => rfl
            | fsync => rfl
          refine ⟨surplus + 1, ⟨ws ++ [w], ?_, ?_, hlast⟩, Nat.le_succ surplus,
            fun _ => Nat.lt_succ_self surplus⟩
          · rw [file_held_fail, htaken]
            exact hmore
          · rw [Device.fail, List.length_append, List.length_singleton]
            push_cast
            omega
  · rw [attempt_of_not_acceptable py d hacc]
    exact ⟨surplus, ⟨ws, hbytes, hcount, hlast⟩, le_rfl, fun hdisturbs => absurd hdisturbs.1 hacc⟩

theorem Piled.attemptAll {d : Device} {surplus : ℕ} (h : Piled py d surplus)
    {calls : List (Call F)} (hwhole : WholeLines calls) :
    ∃ surplus', Piled py (attemptAll py d calls).1 surplus' ∧ surplus ≤ surplus' ∧
      ∀ c ∈ calls, c.Disturbs py → surplus < surplus' := by
  induction calls generalizing d surplus with
  | nil => exact ⟨surplus, h, le_rfl, by simp⟩
  | cons c calls ih =>
      obtain ⟨hc, hrest⟩ := List.forall_mem_cons.1 hwhole
      obtain ⟨surplus', hpiled, hle, hdisturbs⟩ := h.attempt py hc
      obtain ⟨surplus'', hpiled', hle', hdisturbs'⟩ := ih hpiled hrest
      refine ⟨surplus'', hpiled', hle.trans hle', List.forall_mem_cons.2 ⟨fun h => ?_, ?_⟩⟩
      · exact (hdisturbs h).trans_le hle'
      · exact fun c' hc' h => hle.trans_lt (hdisturbs' c' hc' h)

theorem Piled.isSome_attempt {surplus : ℕ} (h : Piled py d surplus) {c : Call F}
    (hreturns : c.Returns py) : (Audit.attempt py d c).2.isSome = true := by
  obtain ⟨ws, -, -, hlast⟩ := h
  obtain ⟨w, hmade, -⟩ := made_of_acceptable py hreturns.1 hlast
  rw [attempt_of_made py hmade hreturns.2]
  rfl

theorem Walked.checked_last {n : ℤ} {prev : Text} {rs : List (Json F)} {r : Json F}
    (h : Walked py n prev (rs ++ [r])) : ∃ prev' h, Checked py (n + rs.length) prev' r h := by
  induction rs generalizing n prev with
  | nil =>
      obtain ⟨h, hchecked, -⟩ := h
      exact ⟨prev, h, by simpa using hchecked⟩
  | cons r' rs ih =>
      obtain ⟨h', -, hrest⟩ := h
      obtain ⟨prev', h, hchecked⟩ := ih hrest
      refine ⟨prev', h, ?_⟩
      rw [List.length_cons]
      push_cast
      rwa [add_comm (rs.length : ℤ) 1, ← add_assoc]

theorem Piled.eq_zero {surplus : ℕ} (h : Piled py d surplus) {c : Call F}
    (hreturns : c.Returns py) (hverifies : Verifies py (Audit.attempt py d c).1.log.file) :
    surplus = 0 := by
  obtain ⟨ws, hbytes, hcount, hlast⟩ := h
  obtain ⟨w, hmade, -, hseq, -⟩ := made_of_acceptable py hreturns.1 hlast
  have hfile : (Audit.attempt py d c).1.log.file = Utf8.encode (Written.text py (ws ++ [w])) := by
    rw [attempt_of_made py hmade hreturns.2]
    exact encode_text_concat py hbytes w
  rw [verifies_iff, hfile, iterRecords_text, List.map_append] at hverifies
  obtain ⟨prev, h, hchecked⟩ := hverifies.checked_last
  obtain ⟨hnumber, -⟩ := (checked_readBack_iff py w).1 hchecked
  rw [List.length_map] at hnumber
  omega

theorem undisturbed_of_sound {calls : List (Call F)} (hwhole : WholeLines calls)
    (hsound : Sound py calls) : Undisturbed py calls := by
  intro before c hinitial hreturns c' hc' hdisturbs
  have hbefore : WholeLines before := fun c' hc' => hwhole c' (hinitial.subset (by simp [hc']))
  have hclosed : Piled py closed 0 := ⟨[], rfl, rfl, plain_ofChars _⟩
  obtain ⟨surplus, hpiled, -, hmore⟩ := hclosed.attemptAll py hbefore
  have hreturned := hpiled.isSome_attempt py hreturns
  have hverifies := (hsound before c hinitial hreturned).1
  rw [attemptAll_append] at hverifies
  have hzero := hpiled.eq_zero py hreturns hverifies
  exact absurd (hmore c' hc' hdisturbs) (by omega)

/-- `append` under faults: a run that nothing disturbs before a call that returns
is sound, and where the stream takes whole lines no other run is. -/
theorem sound_under_faults :
    (Undisturbed py calls →
        (∀ c ∈ calls, c.Returns py → c.entry.payload.KeysInOrder py.toFloatOps) →
        Sound py calls) ∧
      (WholeLines calls → Sound py calls → Undisturbed py calls) :=
  ⟨sound_of_undisturbed py, undisturbed_of_sound py⟩

/-- `write` raises before it took anything, and the next call returns. -/
theorem sound_under_faults_writeFails :
    Sound hexPython [⟨namesEntry, some (.write 0 0)⟩, ⟨namesEntry, none⟩] := by
  refine (sound_under_faults hexPython _).1 ?_ ?_
  · rintro before c ⟨rest, hrest⟩ - c' hc' ⟨-, fault, hfault, htaken⟩
    rcases before with _ | ⟨first, _ | ⟨second, more⟩⟩
    · cases hc'
    · cases List.mem_singleton.1 hc'
      simp only [List.cons_append, List.cons.injEq] at hrest
      cases hrest.1
      cases hfault
      exact absurd (htaken 0 0 rfl) (lt_irrefl 0)
    · have hlength := congrArg List.length hrest
      simp only [List.length_append, List.length_cons, List.length_nil] at hlength
      omega
  · simp only [List.forall_mem_cons]
    exact ⟨fun _ => namesEntry_keysInOrder, fun _ => namesEntry_keysInOrder, by simp⟩

/-- `os.fsync` raises, and the next call returns. -/
def fsyncFails : List (Call FloatText) := [⟨namesEntry, some .fsync⟩, ⟨namesEntry, none⟩]

theorem fsyncFails_not_sound : ¬ Sound hexPython fsyncFails := by
  intro hsound
  have hwhole : WholeLines fsyncFails := by
    simp [WholeLines, fsyncFails]
  have hundisturbed := undisturbed_of_sound hexPython hwhole hsound
  refine hundisturbed [⟨namesEntry, some .fsync⟩] ⟨namesEntry, none⟩ (List.prefix_refl _)
    ⟨namesEntry_acceptable, rfl⟩ _ (List.mem_singleton.2 rfl)
    ⟨namesEntry_acceptable, .fsync, rfl, ?_⟩
  simp

end Audit
end Sentinel
