import Mathlib.Data.List.Basic

/-!
# Runs of a step function and of a loop that may raise

A run folds a step function over a list of moves.  `Along` says that a
condition holds of every step of a run, each in the state it is taken in; what
the steps that meet a condition preserve, every such run preserves.  The last
section is the same for a loop whose body may raise.
-/

namespace Sentinel

variable {σ μ ε : Type*}

/-- Every step of the run meets `P` in the state it is taken in. -/
def Along (step : σ → μ → σ) (P : σ → μ → Prop) : σ → List μ → Prop
  | _, [] => True
  | s, m :: ms => P s m ∧ Along step P (step s m) ms

namespace Along

variable {step : σ → μ → σ} {P Q : σ → μ → Prop} {I : σ → Prop}

@[simp] theorem nil (s : σ) : Along step P s [] := trivial

@[simp] theorem cons_iff (s : σ) (m : μ) (ms : List μ) :
    Along step P s (m :: ms) ↔ P s m ∧ Along step P (step s m) ms := Iff.rfl

theorem append_iff {s : σ} {ms ms' : List μ} :
    Along step P s (ms ++ ms') ↔ Along step P s ms ∧ Along step P (ms.foldl step s) ms' := by
  induction ms generalizing s with
  | nil => simp
  | cons m ms ih => simp only [List.cons_append, cons_iff, ih, and_assoc, List.foldl_cons]

instance decidable [∀ s m, Decidable (P s m)] :
    ∀ (s : σ) (ms : List μ), Decidable (Along step P s ms)
  | _, [] => isTrue trivial
  | s, m :: ms =>
      have := decidable (step s m) ms
      inferInstanceAs (Decidable (P s m ∧ Along step P (step s m) ms))

theorem of_forall (h : ∀ s m, P s m) (s : σ) (ms : List μ) : Along step P s ms := by
  induction ms generalizing s with
  | nil => trivial
  | cons m ms ih => exact ⟨h s m, ih (step s m)⟩

theorem invariant (hstep : ∀ s m, I s → P s m → I (step s m)) {s : σ} (hs : I s)
    {ms : List μ} (hms : Along step P s ms) : I (ms.foldl step s) := by
  induction ms generalizing s with
  | nil => exact hs
  | cons m ms ih => exact ih (hstep s m hs hms.1) hms.2

theorem mono (hstep : ∀ s m, I s → P s m → I (step s m))
    (hPQ : ∀ s m, I s → P s m → Q s m) {s : σ} (hs : I s) {ms : List μ}
    (hms : Along step P s ms) : Along step Q s ms := by
  induction ms generalizing s with
  | nil => trivial
  | cons m ms ih => exact ⟨hPQ s m hs hms.1, ih (hstep s m hs hms.1) hms.2⟩

theorem iff_of_kept (hstep : ∀ s m, I s → P s m → I (step s m))
    (hPQ : ∀ s m, I s → (P s m ↔ Q s m)) {s : σ} (hs : I s) {ms : List μ} :
    Along step P s ms ↔ Along step Q s ms := by
  constructor
  · exact mono hstep (fun s m hI hP => (hPQ s m hI).mp hP) hs
  · exact mono (fun s m hI hQ => hstep s m hI ((hPQ s m hI).mpr hQ))
      (fun s m hI hQ => (hPQ s m hI).mpr hQ) hs

theorem iff_of_invariant {I : σ → List μ → Prop}
    (hstep : ∀ s m ms, I s (m :: ms) → I (step s m) ms)
    (hPQ : ∀ s m ms, I s (m :: ms) → (P s m ↔ Q s m)) {s : σ} {ms : List μ} (hs : I s ms) :
    Along step P s ms ↔ Along step Q s ms := by
  induction ms generalizing s with
  | nil => exact Iff.rfl
  | cons m ms ih => exact and_congr (hPQ s m ms hs) (ih (hstep s m ms hs))

end Along

/-! ## A loop that may raise -/

theorem foldlM_ok_induction {α : Type*} {f : σ → α → Except ε σ}
    {I : List α → σ → Prop} {s t : σ} {l : List α} (h : l.foldlM f s = .ok t)
    (hs : I [] s)
    (hstep : ∀ done a u u', I done u → f u a = .ok u' → I (done ++ [a]) u') : I l t := by
  suffices hgen : ∀ (todo done : List α) (u : σ), I done u → todo.foldlM f u = .ok t →
      I (done ++ todo) t by
    simpa using hgen l [] s hs h
  intro todo
  induction todo with
  | nil =>
      intro done u hu hend
      have hut : u = t := by simpa [pure, Except.pure] using hend
      simpa [← hut] using hu
  | cons a todo ih =>
      intro done u hu hend
      rw [List.foldlM_cons] at hend
      cases hf : f u a with
      | error e =>
          rw [hf] at hend
          cases hend
      | ok u' =>
          rw [hf] at hend
          have hnext := ih (done ++ [a]) u' (hstep done a u u' hu hf) hend
          simpa using hnext

theorem foldlM_returns {α : Type*} {f : σ → α → Except ε σ}
    (hf : ∀ s a, ∃ t, f s a = .ok t) (l : List α) (s : σ) :
    ∃ t, l.foldlM f s = .ok t := by
  induction l generalizing s with
  | nil => exact ⟨s, rfl⟩
  | cons a l ih =>
      obtain ⟨u, hu⟩ := hf s a
      obtain ⟨t, ht⟩ := ih u
      refine ⟨t, ?_⟩
      rw [List.foldlM_cons, hu]
      exact ht

theorem map_mapM {α β γ : Type*} (f : α → Except ε β) (g : α → Except ε γ) (h : β → γ)
    (hfg : ∀ a, (f a).map h = g a) (l : List α) :
    (l.mapM f).map (List.map h) = l.mapM g := by
  induction l with
  | nil => rfl
  | cons a l ih =>
      rw [List.mapM_cons, List.mapM_cons, ← ih, ← hfg a]
      rcases f a with why | b
      · rfl
      · rcases l.mapM f with why | bs <;> rfl

theorem exists_of_mem_mapM {α β ε : Type*} {f : α → Except ε β} {l : List α} {bs : List β}
    (h : l.mapM f = .ok bs) {b : β} (hb : b ∈ bs) : ∃ a ∈ l, f a = .ok b := by
  induction l generalizing bs with
  | nil =>
      rw [List.mapM_nil] at h
      rw [← Except.ok.inj h] at hb
      cases hb
  | cons a l ih =>
      rw [List.mapM_cons] at h
      rcases ha : f a with why | b'
      · rw [ha] at h
        cases h
      · rcases hl : l.mapM f with why | bs'
        · rw [ha, hl] at h
          cases h
        · rw [ha, hl] at h
          rw [← Except.ok.inj h] at hb
          rcases List.mem_cons.mp hb with rfl | hb
          · exact ⟨a, by simp, ha⟩
          · obtain ⟨a', ha', heq⟩ := ih hl hb
            exact ⟨a', by simp [ha'], heq⟩

end Sentinel
