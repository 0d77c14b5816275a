import Sentinel.Licensing.ClockHistory

/-!
# Whose ids the expired list holds

Runs of the gate over arbitrary licence files.  An id that enters the list
should be that of a licence whose signature verified, and an unsigned file
should drive none out.  A step does so exactly when an unsigned file neither
carries a new id past its expiry nor makes the guard forget the list.
-/

namespace Sentinel

variable {κ τ : Type*} [DecidableEq τ]

namespace LicenseGate

variable {g : LicenseGate κ τ} {s : GateState τ} {e : Evaluation}

theorem mem_listed_of_mem_memory {id : String}
    (h : id ∈ (g.memory s e).expiredLicences) : id ∈ s.listed := by
  cases hf : s.guardFile with
  | none =>
      rw [memory_of_missing hf] at h
      simp at h
  | some f =>
      by_cases hfits : g.FileFits s e f
      · rw [memory_of_fits hf hfits] at h
        rw [GateState.listed, hf]
        exact h
      · rw [memory_of_not_fits hf hfits] at h
        simp at h

theorem length_memory_le :
    (g.memory s e).expiredLicences.length ≤ s.listed.length := by
  cases hf : s.guardFile with
  | none => simp [memory_of_missing hf]
  | some f =>
      by_cases hfits : g.FileFits s e f
      · rw [memory_of_fits hf hfits, GateState.listed, hf]
        exact le_refl f.state.expiredLicences.length
      · simp [memory_of_not_fits hf hfits]

theorem memory_of_all_fit (h : ∀ f ∈ s.guardFile, g.FileFits s e f) :
    (g.memory s e).expiredLicences = s.listed := by
  cases hf : s.guardFile with
  | none =>
      rw [memory_of_missing hf, GateState.listed, hf]
      rfl
  | some f =>
      rw [memory_of_fits hf (h f hf), GateState.listed, hf]
      rfl

theorem length_listed_step_le (h : s.listed.length ≤ expiredBound) (m : LicenceMove) :
    (s.step g m).listed.length ≤ expiredBound := by
  cases m with
  | restart fingerprint => exact h
  | evaluate e =>
      by_cases hruns : g.RunsGuard e
      · cases hwrite : e.writable with
        | false =>
            rw [GateState.listed, guardFile_of_not_writable hruns hwrite]
            exact h
        | true =>
            rw [listed_of_writable hruns hwrite]
            apply (length_eraseDups_le _).trans
            exact GuardState.length_recordExpired_le (length_memory_le.trans h)
      · rw [listed_of_not_runsGuard hruns]
        exact h

omit [DecidableEq τ] in
theorem mem_recordExpired_of_recordedId {state : GuardState}
    (hbound : state.expiredLicences.length ≤ expiredBound) {id : String}
    (h : g.recordedId e = some id) :
    id ∈ state.recordExpired e.file.peekedId (g.peekedExpired e) := by
  obtain ⟨hexpired, hne, rfl⟩ := recordedId_eq_some_iff.mp h
  by_cases hlisted : e.file.peekedId ∈ state.expiredLicences
  · apply GuardState.mem_recordExpired_of_mem hbound _ hlisted
    intro _ _ hnew
    exact absurd hlisted hnew
  · rw [hexpired]
    exact state.self_mem_recordExpired hne hlisted

omit [DecidableEq τ] in
theorem signedId_of_recordedId {id : String} (h : g.recordedId e = some id)
    (hsigned : ¬e.file.Unsigned) : e.file.signedId = some id := by
  obtain ⟨hexpired, -, rfl⟩ := recordedId_eq_some_iff.mp h
  cases hfile : e.file with
  | absent => simp [peekedExpired, hfile] at hexpired
  | unreadable => simp [peekedExpired, hfile] at hexpired
  | malformed => simp [peekedExpired, hfile] at hexpired
  | document licence signed =>
      rw [hfile] at hsigned
      have hgenuine : signed = true := by simpa [LicenceFile.Unsigned] using hsigned
      rw [hgenuine]
      rfl

end LicenseGate

/-- An installation, with the ids of the licences whose signature verified. -/
structure ListHistory (τ : Type*) where
  gate : GateState τ
  genuine : List String

namespace ListHistory

variable (fingerprint : MachineMap)

/-- A new installation. -/
def start : ListHistory τ :=
  { gate := { guardFile := none, bound := fingerprint }, genuine := [] }

variable (g : LicenseGate κ τ)

def step (g : LicenseGate κ τ) (h : ListHistory τ) (m : LicenceMove) : ListHistory τ :=
  { gate := h.gate.step g m
    genuine := match m with
      | .restart _ => h.genuine
      | .evaluate e => h.genuine ++ e.file.signedId.toList }

def SignedOnly (h : ListHistory τ) : LicenceMove → Prop
  | .restart _ => True
  | .evaluate e =>
      (∀ id ∈ (h.gate.step g (.evaluate e)).listed, id ∉ h.gate.listed →
        e.file.signedId = some id) ∧
      (e.file.Unsigned → ∀ id ∈ h.gate.listed, id ∈ h.genuine →
        id ∈ (h.gate.step g (.evaluate e)).listed)

def UnsignedHarmless (h : ListHistory τ) : LicenceMove → Prop
  | .restart _ => True
  | .evaluate e => g.RunsGuard e → e.file.Unsigned → e.writable = true →
      (∀ id ∈ g.recordedId e, id ∈ h.gate.listed) ∧
      ((∀ f ∈ h.gate.guardFile, g.FileFits h.gate e f) ∨
        ∀ id ∈ h.gate.listed, g.recordedId e = some id)

instance (g : LicenseGate κ τ) (h : ListHistory τ) (m : LicenceMove) :
    Decidable (h.SignedOnly g m) :=
  match m with
  | .restart _ => isTrue trivial
  | .evaluate _ => inferInstanceAs (Decidable (_ ∧ _))

structure AllGenuine (h : ListHistory τ) : Prop where
  genuine : ∀ id ∈ h.gate.listed, id ∈ h.genuine
  bounded : h.gate.listed.length ≤ expiredBound

omit [DecidableEq τ] in
theorem allGenuine_start : AllGenuine (start fingerprint : ListHistory τ) :=
  ⟨by simp [start, GateState.listed], by simp [start, GateState.listed]⟩

variable {g : LicenseGate κ τ} {h : ListHistory τ}

theorem AllGenuine.step (hh : h.AllGenuine) {m : LicenceMove} (hsigned : h.SignedOnly g m) :
    (h.step g m).AllGenuine := by
  refine ⟨?_, LicenseGate.length_listed_step_le hh.bounded m⟩
  intro id hid
  cases m with
  | restart fingerprint => exact hh.genuine id hid
  | evaluate e =>
      rw [ListHistory.step, List.mem_append]
      by_cases hold : id ∈ h.gate.listed
      · exact .inl (hh.genuine id hold)
      · right
        rw [hsigned.1 id hid hold]
        exact List.mem_singleton_self id

theorem signedOnly_of_listed_eq {e : Evaluation}
    (heq : (h.gate.step g (.evaluate e)).listed = h.gate.listed) :
    h.SignedOnly g (.evaluate e) := by
  constructor
  · intro id hid hnew
    rw [heq] at hid
    exact absurd hid hnew
  · intro _ id hid _
    rw [heq]
    exact hid

theorem signedOnly_of_signed {e : Evaluation} (hruns : g.RunsGuard e)
    (hwrite : e.writable = true) (hsigned : ¬e.file.Unsigned) :
    h.SignedOnly g (.evaluate e) := by
  refine ⟨?_, fun hunsigned => absurd hunsigned hsigned⟩
  intro id hid hnew
  rw [LicenseGate.listed_of_writable hruns hwrite, List.mem_eraseDups] at hid
  rcases GuardState.mem_recordExpired hid with hold | hrec
  · exact absurd (LicenseGate.mem_listed_of_mem_memory hold) hnew
  · exact LicenseGate.signedId_of_recordedId (LicenseGate.recordedId_eq_some_iff.mpr hrec)
      hsigned

theorem AllGenuine.signedOnly_iff_unsigned (hh : h.AllGenuine) {e : Evaluation}
    (hruns : g.RunsGuard e) (hwrite : e.writable = true) (hunsigned : e.file.Unsigned) :
    h.SignedOnly g (.evaluate e) ↔
      (∀ id ∈ g.recordedId e, id ∈ h.gate.listed) ∧
        ((∀ f ∈ h.gate.guardFile, g.FileFits h.gate e f) ∨
          ∀ id ∈ h.gate.listed, g.recordedId e = some id) := by
  have hlisted := LicenseGate.listed_of_writable (s := h.gate) hruns hwrite
  have hbound : (g.memory h.gate e).expiredLicences.length ≤ expiredBound :=
    LicenseGate.length_memory_le.trans hh.bounded
  constructor
  · intro hsigned
    have hkept : ∀ id ∈ (h.gate.step g (.evaluate e)).listed, id ∈ h.gate.listed := by
      intro id hid
      by_contra hnew
      have hsome := hsigned.1 id hid hnew
      rw [LicenceFile.signedId_of_unsigned hunsigned] at hsome
      cases hsome
    constructor
    · intro id hid
      apply hkept
      rw [hlisted, List.mem_eraseDups]
      exact LicenseGate.mem_recordExpired_of_recordedId hbound hid
    · rw [or_iff_not_imp_left]
      intro hnot id hid
      have hforgotten : (g.memory h.gate e).expiredLicences = [] := by
        cases hf : h.gate.guardFile with
        | none => rw [LicenseGate.memory_of_missing hf]
        | some f =>
            have hfits : ¬g.FileFits h.gate e f := by
              intro hfits
              apply hnot
              rw [hf]
              rintro f' ⟨⟩
              exact hfits
            rw [LicenseGate.memory_of_not_fits hf hfits]
      have hstays := hsigned.2 hunsigned id hid (hh.genuine id hid)
      rw [hlisted, List.mem_eraseDups] at hstays
      rcases GuardState.mem_recordExpired hstays with hold | hrec
      · rw [hforgotten] at hold
        cases hold
      · exact LicenseGate.recordedId_eq_some_iff.mpr hrec
  · rintro ⟨hrecorded, hread⟩
    constructor
    · intro id hid hnew
      rw [hlisted, List.mem_eraseDups] at hid
      rcases GuardState.mem_recordExpired hid with hold | hrec
      · exact absurd (LicenseGate.mem_listed_of_mem_memory hold) hnew
      · exact absurd (hrecorded id (LicenseGate.recordedId_eq_some_iff.mpr hrec)) hnew
    · intro _ id hid _
      rw [hlisted, List.mem_eraseDups]
      rcases hread with hfits | honly
      · have hmemory := LicenseGate.memory_of_all_fit hfits
        apply GuardState.mem_recordExpired_of_mem hbound
        · intro hexpired hne hnew
          rw [hmemory] at hnew
          exact absurd (hrecorded _
            (LicenseGate.recordedId_eq_some_iff.mpr ⟨hexpired, hne, rfl⟩)) hnew
        · rw [hmemory]
          exact hid
      · exact LicenseGate.mem_recordExpired_of_recordedId hbound (honly id hid)

theorem AllGenuine.signedOnly_iff (hh : h.AllGenuine) (m : LicenceMove) :
    h.SignedOnly g m ↔ h.UnsignedHarmless g m := by
  cases m with
  | restart fingerprint => exact Iff.rfl
  | evaluate e =>
      by_cases hruns : g.RunsGuard e
      · cases hwrite : e.writable with
        | false =>
            have heq : (h.gate.step g (.evaluate e)).listed = h.gate.listed := by
              rw [GateState.listed, LicenseGate.guardFile_of_not_writable hruns hwrite]
              rfl
            have hfalse : ¬e.writable = true := by simp [hwrite]
            exact ⟨fun _ _ _ htrue => absurd htrue hfalse, fun _ => signedOnly_of_listed_eq heq⟩
        | true =>
            by_cases hunsigned : e.file.Unsigned
            · rw [hh.signedOnly_iff_unsigned hruns hwrite hunsigned]
              exact ⟨fun hcond _ _ _ => hcond, fun hcond => hcond hruns hunsigned hwrite⟩
            · exact ⟨fun _ _ hbad => absurd hbad hunsigned,
                fun _ => signedOnly_of_signed hruns hwrite hunsigned⟩
      · exact ⟨fun _ hbad => absurd hbad hruns,
          fun _ => signedOnly_of_listed_eq (LicenseGate.listed_of_not_runsGuard hruns)⟩

/-- In every run of evaluations over arbitrary licence files the expired list
gains only ids of signed licences and loses none to an unsigned file, exactly
when every unsigned file met in it is harmless. -/
theorem signedOnly_run_iff (moves : List LicenceMove) :
    Along (step g) (SignedOnly g) (start fingerprint : ListHistory τ) moves ↔
      Along (step g) (UnsignedHarmless g) (start fingerprint : ListHistory τ) moves :=
  Along.iff_of_kept (I := AllGenuine) (fun _ _ hh hm => hh.step hm)
    (fun _ m hh => hh.signedOnly_iff m) (allGenuine_start fingerprint)

end ListHistory

def forgedLicence : License :=
  { boundLicence with expiry := some 0 }

def unboundForgery : License :=
  { boundLicence with machine := [], expiry := none }

/-- The forged file adds the id of the genuine licence, and the file that is
bound to no machine drives out the id of the expired one. -/
theorem not_signedOnly_forged :
    ¬Along (ListHistory.step openGate) (ListHistory.SignedOnly openGate) (ListHistory.start [])
        [evaluatedOn 20 (.document boundLicence true),
          evaluatedOn 20 (.document forgedLicence false)] ∧
      ¬Along (ListHistory.step openGate) (ListHistory.SignedOnly openGate) (ListHistory.start [])
        [evaluatedOn 100 (.document boundLicence true),
          evaluatedOn 100 (.document unboundForgery false)] := by
  decide +kernel

end Sentinel
