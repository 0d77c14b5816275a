import Mathlib.Order.Defs.Unbundled

/-!
# Relational reasoning about stateful code

Code that changes a state and may raise, without undoing what it changed, is
an `EStateM` program.  `Moves R p` says that every run of `p`, however it
ends, takes the state along `R`.  For a preorder `R` the rules below follow
the structure of the program, so a frame property of a long method is proved
from the frame properties of its primitive steps.  `Ends P p Q E` is the triple
for such a program, with one postcondition for each way it can end.
-/

namespace Sentinel

variable {ε σ α β : Type}

variable (p : EStateM ε σ α)

def finalState (s : σ) : σ :=
  match p.run s with
  | .ok _ t => t
  | .error _ t => t

/-- Every run of `p` takes the state along `R`. -/
def Moves (R : σ → σ → Prop) (p : EStateM ε σ α) : Prop :=
  ∀ s, R s (finalState p s)

@[simp] theorem finalState_pure (a : α) (s : σ) :
    finalState (pure a : EStateM ε σ α) s = s := rfl

@[simp] theorem finalState_get (s : σ) :
    finalState (get : EStateM ε σ σ) s = s := rfl

@[simp] theorem finalState_modify (f : σ → σ) (s : σ) :
    finalState (modify f : EStateM ε σ PUnit) s = f s := rfl

@[simp] theorem finalState_throw (e : ε) (s : σ) :
    finalState (throw e : EStateM ε σ α) s = s := rfl

theorem run_bind (f : α → EStateM ε σ β) (s : σ) :
    (p >>= f).run s =
      match p.run s with
      | .ok a t => (f a).run t
      | .error e t => .error e t := rfl

theorem finalState_bind (f : α → EStateM ε σ β) (s : σ) :
    finalState (p >>= f) s =
      match p.run s with
      | .ok a t => finalState (f a) t
      | .error _ t => t := by
  simp only [finalState, run_bind]
  cases p.run s <;> rfl

theorem run_bind_get (f : σ → EStateM ε σ α) (s : σ) :
    ((get : EStateM ε σ σ) >>= f).run s = (f s).run s := rfl

theorem finalState_bind_get (f : σ → EStateM ε σ α) (s : σ) :
    finalState ((get : EStateM ε σ σ) >>= f) s = finalState (f s) s := rfl

theorem run_forM_cons {γ : Type} {f : γ → EStateM ε σ PUnit} {c : γ} {s t : σ}
    (h : (f c).run s = .ok ⟨⟩ t) (l : List γ) : ((c :: l).forM f).run s = (l.forM f).run t := by
  change (f c >>= fun _ => l.forM f).run s = _
  rw [run_bind, h]

theorem run_forM_error {γ : Type} {f : γ → EStateM ε σ PUnit} {c : γ} {s t : σ} {e : ε}
    (h : (f c).run s = .error e t) (l : List γ) : ((c :: l).forM f).run s = .error e t := by
  change (f c >>= fun _ => l.forM f).run s = _
  rw [run_bind, h]

theorem finalState_bind_modify (g : σ → σ) (f : PUnit → EStateM ε σ α) (s : σ) :
    finalState ((modify g : EStateM ε σ PUnit) >>= f) s = finalState (f ⟨⟩) (g s) := rfl

namespace Moves

variable {R : σ → σ → Prop}

theorem pure [Std.Refl R] (a : α) : Moves R (pure a : EStateM ε σ α) :=
  fun s => Std.Refl.refl s

theorem get [Std.Refl R] : Moves R (get : EStateM ε σ σ) :=
  fun s => Std.Refl.refl s

theorem throw [Std.Refl R] (e : ε) : Moves R (throw e : EStateM ε σ α) :=
  fun s => Std.Refl.refl s

theorem modify {f : σ → σ} (hf : ∀ s, R s (f s)) :
    Moves R (modify f : EStateM ε σ PUnit) :=
  hf

theorem bind [IsTrans σ R] {p : EStateM ε σ α} {f : α → EStateM ε σ β}
    (hp : Moves R p) (hf : ∀ a, Moves R (f a)) : Moves R (p >>= f) := by
  intro s
  have hstep := hp s
  rw [finalState_bind]
  unfold finalState at hstep
  cases hrun : p.run s with
  | ok a t =>
      rw [hrun] at hstep
      exact IsTrans.trans _ _ _ hstep (hf a t)
  | error e t =>
      rw [hrun] at hstep
      exact hstep

theorem bind_rest [Std.Refl R] (p : EStateM ε σ α) {f : α → EStateM ε σ β}
    (hf : ∀ a, Moves R (f a)) (s : σ) : R (finalState p s) (finalState (p >>= f) s) := by
  rw [finalState_bind]
  unfold finalState
  cases p.run s with
  | ok a t => exact hf a t
  | error e t => exact Std.Refl.refl t

theorem bind_get {f : σ → EStateM ε σ β}
    (hf : ∀ s, R s (finalState (f s) s)) :
    Moves R ((MonadState.get : EStateM ε σ σ) >>= f) := by
  intro s
  exact hf s

theorem ite {c : Prop} [Decidable c] {p q : EStateM ε σ α}
    (hp : c → Moves R p) (hq : ¬c → Moves R q) :
    Moves R (if c then p else q) := by
  by_cases h : c
  · simpa only [if_pos h] using hp h
  · simpa only [if_neg h] using hq h

theorem ite_bind [IsTrans σ R] {c : Prop} [Decidable c] {p : EStateM ε σ PUnit}
    {k : PUnit → EStateM ε σ β} (hp : c → Moves R p) (hk : ∀ u, Moves R (k u)) :
    Moves R (if c then p >>= k else k ⟨⟩) :=
  ite (fun hc => bind (hp hc) hk) fun _ => hk ⟨⟩

theorem forM [Std.Refl R] [IsTrans σ R] {γ : Type} {f : γ → EStateM ε σ PUnit}
    (hf : ∀ c, Moves R (f c)) (l : List γ) : Moves R (l.forM f) := by
  induction l with
  | nil => exact Moves.pure _
  | cons c l ih => exact Moves.bind (hf c) fun _ => ih

theorem mono {R' : σ → σ → Prop} (h : ∀ s t, R s t → R' s t)
    {p : EStateM ε σ α} (hp : Moves R p) : Moves R' p :=
  fun s => h _ _ (hp s)

end Moves

/-! ## Pre- and postconditions -/

/-- A run from a state in `P` ends in `Q` when it returns, and in `E` when it
raises. -/
def Ends (P : σ → Prop) (p : EStateM ε σ α) (Q : α → σ → Prop) (E : σ → Prop) : Prop :=
  ∀ s, P s →
    match p.run s with
    | .ok a t => Q a t
    | .error _ t => E t

namespace Ends

variable {P P' : σ → Prop} {Q : α → σ → Prop} {E : σ → Prop}

variable {p : EStateM ε σ α}

theorem iff_finalState : Ends P p (fun _ => E) E ↔ ∀ s, P s → E (finalState p s) := by
  refine forall₂_congr fun s _ => ?_
  unfold finalState
  cases p.run s <;> rfl

theorem pure {a : α} (h : ∀ s, P s → Q a s) : Ends P (pure a : EStateM ε σ α) Q E :=
  h

theorem throw {e : ε} (h : ∀ s, P s → E s) : Ends P (throw e : EStateM ε σ α) Q E :=
  h

theorem modify {f : σ → σ} {Q : PUnit → σ → Prop} (h : ∀ s, P s → Q ⟨⟩ (f s)) :
    Ends P (modify f : EStateM ε σ PUnit) Q E :=
  h

theorem bind {p : EStateM ε σ β} {f : β → EStateM ε σ α} {R : β → σ → Prop}
    (hp : Ends P p R E) (hf : ∀ b, Ends (R b) (f b) Q E) : Ends P (p >>= f) Q E := by
  intro s hs
  have hmid := hp s hs
  rw [run_bind]
  cases hrun : p.run s with
  | ok b t =>
      rw [hrun] at hmid
      exact hf b t hmid
  | error e t =>
      rw [hrun] at hmid
      exact hmid

theorem bind_get {f : σ → EStateM ε σ α} (hf : ∀ s, P s → Ends (fun t => t = s) (f s) Q E) :
    Ends P ((MonadState.get : EStateM ε σ σ) >>= f) Q E :=
  fun s hs => hf s hs s rfl

theorem bind_get_of {f : σ → EStateM ε σ α} (hf : ∀ s, P s → Ends P (f s) Q E) :
    Ends P ((MonadState.get : EStateM ε σ σ) >>= f) Q E :=
  fun s hs => hf s hs s hs

theorem of_imp (h : Ends P p Q E) (hP : ∀ s, P' s → P s) : Ends P' p Q E :=
  fun s hs => h s (hP s hs)

theorem post {Q' : α → σ → Prop} {E' : σ → Prop} (h : Ends P p Q E)
    (hQ : ∀ a s, Q a s → Q' a s) (hE : ∀ s, E s → E' s) : Ends P p Q' E' := by
  intro s hs
  have hend := h s hs
  cases hrun : p.run s with
  | ok a t =>
      rw [hrun] at hend
      exact hQ a t hend
  | error e t =>
      rw [hrun] at hend
      exact hE t hend

theorem ite {c : Prop} [Decidable c] {p q : EStateM ε σ α} (hp : c → Ends P p Q E)
    (hq : ¬c → Ends P q Q E) : Ends P (if c then p else q) Q E := by
  by_cases h : c
  · simpa only [if_pos h] using hp h
  · simpa only [if_neg h] using hq h

theorem ite_bind {c : Prop} [Decidable c] {p : EStateM ε σ PUnit}
    {k : PUnit → EStateM ε σ α} (hp : c → Ends P p (fun _ => P) E)
    (hk : ∀ u, Ends P (k u) Q E) : Ends P (if c then p >>= k else k ⟨⟩) Q E :=
  ite (fun hc => bind (hp hc) hk) fun _ => hk ⟨⟩

theorem forM {γ : Type} {f : γ → EStateM ε σ PUnit} {l : List γ}
    (hf : ∀ c ∈ l, Ends P (f c) (fun _ => P) E) : Ends P (l.forM f) (fun _ => P) E := by
  induction l with
  | nil => exact pure fun _ hs => hs
  | cons c l ih =>
      refine bind (hf c List.mem_cons_self) fun _ => ?_
      exact ih fun c' hc' => hf c' (List.mem_cons_of_mem c hc')

end Ends

end Sentinel
