import Sentinel.Licensing.Enforcement

/-!
# What the clock guard remembers over many runs

Runs of the gate: evaluations with any clock and any licence file, and restarts
of the process.  While every state file that is met authenticates under the key
in use, the recorded high-water mark never falls and a licence recorded as
expired is never valid again.
-/

namespace Sentinel

variable {κ τ : Type*} [DecidableEq τ]

/-- One step of an installation. -/
inductive LicenceMove where
  /-- A new process, with the fingerprint its gate is built with. -/
  | restart (fingerprint : MachineMap)
  | evaluate (e : Evaluation)

namespace GateState

def listed (s : GateState τ) : List String :=
  (s.guardFile.map fun f => f.state.expiredLicences).getD []

def highWater (s : GateState τ) : ℤ :=
  (s.guardFile.map fun f => f.state.highWaterNs).getD 0

def step (g : LicenseGate κ τ) (s : GateState τ) : LicenceMove → GateState τ
  | .restart fingerprint => { s with bound := fingerprint }
  | .evaluate e => (g.evaluate s e).2

end GateState

namespace LicenseGate

variable (g : LicenseGate κ τ) (s : GateState τ) (e : Evaluation)

def memory : GuardState :=
  ClockGuard.remembered g.keys (g.keys.deriveKey (keyMap s e)) e.readable s.guardFile

def FileFits (f : GuardFile τ) : Prop :=
  e.readable = true ∧ ClockGuard.Authenticates g.keys (g.keys.deriveKey (keyMap s e)) f

instance (f : GuardFile τ) : Decidable (g.FileFits s e f) :=
  inferInstanceAs (Decidable (_ ∧ _))

def recordedId : Option String :=
  if g.peekedExpired e && e.file.peekedId != "" then some e.file.peekedId else none

variable {g s e}

theorem listed_of_not_runsGuard (h : ¬g.RunsGuard e) :
    (s.step g (.evaluate e)).listed = s.listed := by
  rw [GateState.step, evaluate_of_not_runsGuard h]

theorem highWater_of_not_runsGuard (h : ¬g.RunsGuard e) :
    (s.step g (.evaluate e)).highWater = s.highWater := by
  rw [GateState.step, evaluate_of_not_runsGuard h]

theorem guardFile_of_not_writable (h : g.RunsGuard e) (hwrite : e.writable = false) :
    (s.step g (.evaluate e)).guardFile = s.guardFile := by
  rw [GateState.step, evaluate_of_runsGuard h]
  simp [guardAnswer, ClockGuard.file_evaluate, ClockGuard.write, guardCall, hwrite]

theorem guardFile_of_writable (h : g.RunsGuard e) (hwrite : e.writable = true) :
    (s.step g (.evaluate e)).guardFile.map GuardFile.state =
      some ((g.memory s e).advance e.now e.file.peekedId (g.peekedExpired e)).toDict := by
  rw [GateState.step, evaluate_of_runsGuard h]
  simp [guardAnswer, ClockGuard.file_evaluate, ClockGuard.write, guardCall, hwrite, memory]

theorem listed_of_writable (h : g.RunsGuard e) (hwrite : e.writable = true) :
    (s.step g (.evaluate e)).listed =
      ((g.memory s e).recordExpired e.file.peekedId (g.peekedExpired e)).eraseDups := by
  have hfile := guardFile_of_writable (s := s) h hwrite
  obtain ⟨f, hf, hstate⟩ := Option.map_eq_some_iff.mp hfile
  rw [GateState.listed, hf]
  simp [hstate, GuardState.toDict, GuardState.advance]

theorem highWater_of_writable (h : g.RunsGuard e) (hwrite : e.writable = true) :
    (s.step g (.evaluate e)).highWater = max (g.memory s e).highWaterNs e.now := by
  have hfile := guardFile_of_writable (s := s) h hwrite
  obtain ⟨f, hf, hstate⟩ := Option.map_eq_some_iff.mp hfile
  rw [GateState.highWater, hf]
  simp [hstate, GuardState.toDict, GuardState.advance]

theorem memory_of_fits {f : GuardFile τ} (hf : s.guardFile = some f) (h : g.FileFits s e f) :
    g.memory s e = f.state := by
  rw [memory, hf, h.1]
  exact ClockGuard.remembered_of_authenticates h.2

theorem memory_of_not_fits {f : GuardFile τ} (hf : s.guardFile = some f)
    (h : ¬g.FileFits s e f) : g.memory s e = {} := by
  rw [memory, hf]
  exact ClockGuard.remembered_of_not h

theorem memory_of_missing (hf : s.guardFile = none) : g.memory s e = {} := by
  rw [memory, hf]
  rfl

omit [DecidableEq τ] in
theorem recordedId_eq_some_iff {id : String} :
    g.recordedId e = some id ↔
      g.peekedExpired e = true ∧ e.file.peekedId ≠ "" ∧ id = e.file.peekedId := by
  rw [recordedId]
  split_ifs with h
  · have h' : g.peekedExpired e = true ∧ e.file.peekedId ≠ "" := by simpa using h
    simp [h', eq_comm]
  · constructor
    · intro hnone
      cases hnone
    · rintro ⟨hexpired, hid, -⟩
      exact absurd (by simp [hexpired, hid]) h

end LicenseGate

/-! ## The recorded history -/

/-- An installation, with every id its state file has ever listed. -/
structure GateHistory (τ : Type*) where
  gate : GateState τ
  recorded : List String

namespace GateHistory

/-- A new installation. -/
def start (fingerprint : MachineMap) : GateHistory τ :=
  { gate := { guardFile := none, bound := fingerprint }, recorded := [] }

def step (g : LicenseGate κ τ) (h : GateHistory τ) (m : LicenceMove) : GateHistory τ :=
  { gate := h.gate.step g m, recorded := h.recorded ++ (h.gate.step g m).listed }

def HistoryKept (g : LicenseGate κ τ) (h : GateHistory τ) (m : LicenceMove) : Prop :=
  h.gate.highWater ≤ (h.gate.step g m).highWater ∧
    match m with
    | .restart _ => True
    | .evaluate e =>
        ∀ status ∈ (g.evaluate h.gate e).1, status.valid = true →
          ∀ licence ∈ status.licence, licence.licenceId ∉ h.recorded

def HistoryRead (g : LicenseGate κ τ) (h : GateHistory τ) : LicenceMove → Prop
  | .restart _ => True
  | .evaluate e => g.RunsGuard e →
      (∀ f ∈ h.gate.guardFile,
        g.FileFits h.gate e f ∨ f.state.expiredLicences = [] ∧ f.state.highWaterNs ≤ e.now) ∧
      ∀ id ∈ g.recordedId e, id ∉ h.gate.listed → h.gate.listed.length < expiredBound

instance (g : LicenseGate κ τ) (h : GateHistory τ) (m : LicenceMove) :
    Decidable (h.HistoryKept g m) :=
  match m with
  | .restart _ => inferInstanceAs (Decidable (_ ∧ True))
  | .evaluate _ => inferInstanceAs (Decidable (_ ∧ _))

instance (g : LicenseGate κ τ) (h : GateHistory τ) (m : LicenceMove) :
    Decidable (h.HistoryRead g m) :=
  match m with
  | .restart _ => isTrue trivial
  | .evaluate _ => inferInstanceAs (Decidable (_ → _ ∧ _))

structure Remembers (h : GateHistory τ) : Prop where
  listed : ∀ id ∈ h.recorded, id ∈ h.gate.listed
  bounded : h.gate.listed.length ≤ expiredBound
  named : "" ∉ h.gate.listed

omit [DecidableEq τ] in
theorem remembers_start (fingerprint : MachineMap) :
    Remembers (start fingerprint : GateHistory τ) :=
  ⟨by simp [start], by simp [start, GateState.listed], by simp [start, GateState.listed]⟩

variable {g : LicenseGate κ τ} {h : GateHistory τ} {e : Evaluation}

theorem expiredLicences_memory (hread : h.HistoryRead g (.evaluate e))
    (hruns : g.RunsGuard e) :
    (g.memory h.gate e).expiredLicences = h.gate.listed := by
  cases hf : h.gate.guardFile with
  | none =>
      rw [LicenseGate.memory_of_missing hf, GateState.listed, hf]
      rfl
  | some f =>
      have hlisted : h.gate.listed = f.state.expiredLicences := by
        rw [GateState.listed, hf]
        rfl
      by_cases hfits : g.FileFits h.gate e f
      · rw [LicenseGate.memory_of_fits hf hfits, hlisted]
      · obtain ⟨hempty, -⟩ := ((hread hruns).1 f hf).resolve_left hfits
        rw [LicenseGate.memory_of_not_fits hf hfits, hlisted, hempty]

theorem highWater_le_step (hread : h.HistoryRead g (.evaluate e)) :
    h.gate.highWater ≤ (h.gate.step g (.evaluate e)).highWater := by
  by_cases hruns : g.RunsGuard e
  · cases hwrite : e.writable with
    | false =>
        rw [GateState.highWater, GateState.highWater,
          LicenseGate.guardFile_of_not_writable hruns hwrite]
    | true =>
        rw [LicenseGate.highWater_of_writable hruns hwrite]
        cases hf : h.gate.guardFile with
        | none =>
            rw [LicenseGate.memory_of_missing hf, GateState.highWater, hf]
            exact le_max_left _ _
        | some f =>
            have hmark : h.gate.highWater = f.state.highWaterNs := by
              rw [GateState.highWater, hf]
              rfl
            rw [hmark]
            by_cases hfits : g.FileFits h.gate e f
            · rw [LicenseGate.memory_of_fits hf hfits]
              exact le_max_left _ _
            · obtain ⟨-, hmark⟩ := ((hread hruns).1 f hf).resolve_left hfits
              exact hmark.trans (le_max_right _ _)
  · rw [LicenseGate.highWater_of_not_runsGuard hruns]

theorem Remembers.evaluate (hh : h.Remembers) (hread : h.HistoryRead g (.evaluate e)) :
    (∀ id ∈ h.gate.listed, id ∈ (h.gate.step g (.evaluate e)).listed) ∧
      (h.gate.step g (.evaluate e)).listed.length ≤ expiredBound ∧
      "" ∉ (h.gate.step g (.evaluate e)).listed := by
  by_cases hruns : g.RunsGuard e
  · cases hwrite : e.writable with
    | false =>
        rw [GateState.listed, GateState.listed,
          LicenseGate.guardFile_of_not_writable hruns hwrite]
        exact ⟨fun id hid => hid, hh.bounded, hh.named⟩
    | true =>
        have hmemory := expiredLicences_memory hread hruns
        have hbound : (g.memory h.gate e).expiredLicences.length ≤ expiredBound := by
          rw [hmemory]
          exact hh.bounded
        rw [LicenseGate.listed_of_writable hruns hwrite]
        refine ⟨?_, ?_, ?_⟩
        · intro id hid
          rw [List.mem_eraseDups]
          apply GuardState.mem_recordExpired_of_mem hbound
          · intro hexpired hne hnew
            rw [hmemory] at hnew ⊢
            exact (hread hruns).2 _
              (LicenseGate.recordedId_eq_some_iff.mpr ⟨hexpired, hne, rfl⟩) hnew
          · rw [hmemory]
            exact hid
        · exact (length_eraseDups_le _).trans (GuardState.length_recordExpired_le hbound)
        · rw [List.mem_eraseDups]
          intro hnameless
          rcases GuardState.mem_recordExpired hnameless with hold | ⟨-, hne, hid⟩
          · rw [hmemory] at hold
            exact hh.named hold
          · exact hne hid.symm
  · rw [LicenseGate.listed_of_not_runsGuard hruns]
    exact ⟨fun id hid => hid, hh.bounded, hh.named⟩

theorem Remembers.step (hh : h.Remembers) {m : LicenceMove} (hread : h.HistoryRead g m) :
    (h.step g m).Remembers := by
  cases m with
  | restart fingerprint =>
      refine ⟨?_, hh.bounded, hh.named⟩
      intro id hid
      rw [GateHistory.step, List.mem_append] at hid
      exact hid.elim (hh.listed id) fun hlisted => hlisted
  | evaluate e =>
      obtain ⟨hkept, hbounded, hnamed⟩ := hh.evaluate hread
      refine ⟨?_, hbounded, hnamed⟩
      intro id hid
      rw [GateHistory.step, List.mem_append] at hid
      exact hid.elim (fun hrec => hkept id (hh.listed id hrec)) fun hlisted => hlisted

theorem Remembers.historyKept (hh : h.Remembers) {m : LicenceMove}
    (hread : h.HistoryRead g m) : h.HistoryKept g m := by
  cases m with
  | restart fingerprint => exact ⟨le_refl h.gate.highWater, trivial⟩
  | evaluate e =>
      refine ⟨highWater_le_step hread, ?_⟩
      intro status hstatus hvalid licence hlicence hrec
      obtain ⟨hruns, hfile, hok⟩ := LicenseGate.of_valid hstatus hvalid hlicence
      have hlisted := hh.listed _ hrec
      have hne : licence.licenceId ≠ "" := by
        intro hnameless
        rw [hnameless] at hlisted
        exact hh.named hlisted
      have hid : (g.guardCall e).licenceId = licence.licenceId := by
        rw [LicenseGate.guardCall, hfile]
        rfl
      have hnot := ClockGuard.not_remembered_of_ok hok (by rw [hid]; exact hne)
      have hmemory : (ClockGuard.remembered g.keys
          (g.keys.deriveKey (LicenseGate.keyMap h.gate e)) (g.guardCall e).readable
          h.gate.guardFile).expiredLicences = h.gate.listed :=
        expiredLicences_memory hread hruns
      rw [hid, hmemory] at hnot
      exact hnot hlisted

/-- In every run of evaluations and restarts that can always read the state
file, the high-water mark never falls and no recorded licence is valid again. -/
theorem historyKept_run (g : LicenseGate κ τ) (fingerprint : MachineMap)
    (moves : List LicenceMove)
    (hread : Along (step g) (HistoryRead g) (start fingerprint : GateHistory τ) moves) :
    Along (step g) (HistoryKept g) (start fingerprint : GateHistory τ) moves :=
  Along.mono (I := Remembers) (fun _ _ hh hm => hh.step hm)
    (fun _ _ hh hm => hh.historyKept hm) (remembers_start fingerprint) hread

end GateHistory

/-! ## One licence, seen past its expiry -/

def openKeys : GuardKeys MachineMap (MachineMap × GuardState) :=
  { deriveKey := fun machine => machine, tag := fun key state => (key, state) }

def openGate : LicenseGate MachineMap (MachineMap × GuardState) :=
  { keys := openKeys }

def boundLicence : License :=
  { licenceId := "L1", issued := 0, expiry := some (30 * dayNs), machine := [("machine_id", "a")],
    activationUrl := none, activationIntervalHours := 0 }

def evaluatedOn (day : ℤ) (file : LicenceFile) : LicenceMove :=
  .evaluate
    { now := day * dayNs, file := file, current := [("machine_id", "a")], readable := true,
      writable := true,
      activation := { required := false, ok := true, lease := none, refreshed := false,
                      networkError := none, rolledBack := false, checkedAt := day * dayNs } }

/-- The licence is seen past its expiry, the process restarts and the clock is
put back: the licence stays expired. -/
theorem historyKept_run_clockBack :
    Along (GateHistory.step openGate) (GateHistory.HistoryKept openGate) (GateHistory.start [])
      [evaluatedOn 100 (.document boundLicence true), .restart [],
        evaluatedOn 10 (.document boundLicence true)] :=
  GateHistory.historyKept_run openGate [] _ (by decide +kernel)

def lostHistory : List LicenceMove :=
  [evaluatedOn 100 (.document boundLicence true), .restart [], evaluatedOn 10 .absent]

/-- The evaluation without a licence file writes a new history under the key of
no machine: the high-water mark falls and the expired licence is valid again. -/
theorem not_historyKept_fileAbsent :
    ¬Along (GateHistory.step openGate) (GateHistory.HistoryKept openGate)
        (GateHistory.start []) lostHistory ∧
      ¬Along (GateHistory.step openGate) (GateHistory.HistoryKept openGate)
        (lostHistory.foldl (GateHistory.step openGate) (GateHistory.start []))
        [evaluatedOn 10 (.document boundLicence true)] := by
  decide +kernel

end Sentinel
