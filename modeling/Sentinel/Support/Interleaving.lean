import Mathlib.Data.Rat.Defs
import Mathlib.Logic.Function.Basic
import Sentinel.Support.Runs

/-!
# Calls whose atomic sections interleave

A call is a program: a tree of atomic actions, each followed by what the call
does with the answer.  The calls of a pool share one state.  A move starts a
call, lets one of them take its next action, or lets the world outside change
the state.

The rule of this module is the usual one for shared state: each call says what
it relies on from the others and what its own actions leave to them.  It is
proved once for a program, action by action, and holds for every interleaving.
-/

namespace Sentinel

inductive Prog {α : Type} (Ans : α → Type) (ρ : Type) : Type
  | ret (r : ρ)
  | act (a : α) (k : Ans a → Prog Ans ρ)

namespace Prog

variable {α : Type} {Ans : α → Type} {ρ τ : Type}

def bind : Prog Ans ρ → (ρ → Prog Ans τ) → Prog Ans τ
  | ret r, f => f r
  | act a k, f => act a fun b => (k b).bind f

instance : Monad (Prog Ans) where
  pure := ret
  bind := bind

def perform (a : α) : Prog Ans (Ans a) := act a ret

@[simp] theorem pure_eq (r : ρ) : (pure r : Prog Ans ρ) = ret r := rfl

@[simp] theorem ret_bind (r : ρ) (f : ρ → Prog Ans τ) : (ret r >>= f) = f r := rfl

@[simp] theorem act_bind (a : α) (k : Ans a → Prog Ans ρ) (f : ρ → Prog Ans τ) :
    (act a k >>= f) = act a fun b => k b >>= f := rfl

@[simp] theorem perform_bind (a : α) (f : Ans a → Prog Ans τ) :
    (perform a >>= f) = act a f := rfl

/-- Every action the program may take satisfies `S`. -/
def All (S : α → Prop) : Prog Ans ρ → Prop
  | ret _ => True
  | act a k => S a ∧ ∀ b, All S (k b)

theorem All.ret (S : α → Prop) (r : ρ) : All S (pure r : Prog Ans ρ) := trivial

theorem All.perform {S : α → Prop} {a : α} (h : S a) : All S (perform a : Prog Ans _) :=
  ⟨h, fun _ => trivial⟩

theorem All.bind {S : α → Prop} {p : Prog Ans ρ} {f : ρ → Prog Ans τ} (hp : All S p)
    (hf : ∀ r, All S (f r)) : All S (p >>= f) := by
  induction p with
  | ret r => exact hf r
  | act a k ih => exact ⟨hp.1, fun b => ih b (hp.2 b)⟩

end Prog

/-- The operations a pool of calls may run, what an action does to the shared
state (nothing while it has to wait) and what the world outside may do to it.
An action also reads `ε`: a clock, or whether a write goes through. -/
structure Machine (σ ε ι χ ρ : Type) {α : Type} (Ans : α → Type) where
  code : ι → Prog Ans ρ
  perform : ℕ → (a : α) → ε → σ → Option (σ × Ans a)
  outside : χ → σ → σ

structure OpenCall (ι ρ : Type) {α : Type} (Ans : α → Type) where
  op : ι
  rest : Prog Ans ρ

/-- The shared state and the calls in flight, by thread. -/
structure Pool (σ ι ρ : Type) {α : Type} (Ans : α → Type) where
  shared : σ
  calls : ℕ → Option (OpenCall ι ρ Ans)

inductive PoolMove (ε ι χ : Type) : Type
  | start (t : ℕ) (op : ι)
  | step (t : ℕ) (e : ε)
  | outside (x : χ)

namespace Machine

variable {σ ε ι χ ρ α : Type} {Ans : α → Type} (M : Machine σ ε ι χ ρ Ans)

def idle (p : Pool σ ι ρ Ans) (t : ℕ) : Bool :=
  match p.calls t with
  | some ⟨_, .act _ _⟩ => false
  | _ => true

def step (p : Pool σ ι ρ Ans) : PoolMove ε ι χ → Pool σ ι ρ Ans
  | .start t op =>
      if idle p t then { p with calls := Function.update p.calls t (some ⟨op, M.code op⟩) } else p
  | .step t e =>
      match p.calls t with
      | some ⟨op, .act a k⟩ =>
          match M.perform t a e p.shared with
          | some (s, b) => ⟨s, Function.update p.calls t (some ⟨op, k b⟩)⟩
          | none => p
      | _ => p
  | .outside x => { p with shared := M.outside x p.shared }

theorem shared_step (p : Pool σ ι ρ Ans) (m : PoolMove ε ι χ) :
    (M.step p m).shared = p.shared ∨
      (∃ t e op a k s b, m = .step t e ∧ p.calls t = some ⟨op, .act a k⟩ ∧
        M.perform t a e p.shared = some (s, b) ∧ (M.step p m).shared = s) ∨
      ∃ x, m = .outside x ∧ (M.step p m).shared = M.outside x p.shared := by
  rcases m with ⟨t, op⟩ | ⟨t, e⟩ | x
  · left
    rw [step]
    split <;> rfl
  · rw [step]
    split
    · rename_i op a k hcall
      split
      · rename_i s b hperform
        exact .inr (.inl ⟨t, e, op, a, k, s, b, rfl, hcall, hperform, rfl⟩)
      · exact .inl rfl
    · exact .inl rfl
  · exact .inr (.inr ⟨x, rfl, rfl⟩)

/-- No call is in flight. -/
def quiet (s : σ) : Pool σ ι ρ Ans := ⟨s, fun _ => none⟩

theorem calls_foldl_of_unstarted {t : ℕ} {p : Pool σ ι ρ Ans} (hp : p.calls t = none)
    {ms : List (PoolMove ε ι χ)} (hms : ∀ op, .start t op ∉ ms) :
    (ms.foldl M.step p).calls t = none := by
  induction ms generalizing p with
  | nil => exact hp
  | cons m ms ih =>
      refine ih ?_ fun op hmem => hms op (List.mem_cons_of_mem _ hmem)
      rcases m with ⟨u, op⟩ | ⟨u, e⟩ | x
      · have hu : t ≠ u := by
          rintro rfl
          exact hms op List.mem_cons_self
        rw [step]
        split
        · exact (Function.update_of_ne hu _ _).trans hp
        · exact hp
      · rw [step]
        split
        · rename_i op a k hcall
          have hu : t ≠ u := by
            rintro rfl
            rw [hp] at hcall
            cases hcall
          split
          · exact (Function.update_of_ne hu _ _).trans hp
          · exact hp
        · exact hp
      · exact hp

def alone (t : ℕ) {τ : Type} : Prog Ans τ → List ε → σ → Option (σ × τ)
  | .ret r, _, s => some (s, r)
  | .act _ _, [], _ => none
  | .act a k, e :: es, s =>
      match M.perform t a e s with
      | some (s', b) => alone t (k b) es s'
      | none => none

variable {t : ℕ} {τ : Type}

variable {M} in
theorem alone_act {a : α} {k : Ans a → Prog Ans τ} {es : List ε} {s s' : σ}
    {r : τ} (h : M.alone t (.act a k) es s = some (s', r)) :
    ∃ e es' s₁ b, es = e :: es' ∧ M.perform t a e s = some (s₁, b) ∧
      M.alone t (k b) es' s₁ = some (s', r) := by
  rcases es with - | ⟨e, es⟩
  · cases h
  · rw [alone] at h
    split at h
    · rename_i s₁ b hperform
      exact ⟨e, es, s₁, b, rfl, hperform, h⟩
    · cases h

variable {M} in
theorem alone_of_perform {a : α} {k : Ans a → Prog Ans τ} {e : ε}
    {es : List ε} {s s' : σ} {b : Ans a} (h : M.perform t a e s = some (s', b)) :
    M.alone t (.act a k) (e :: es) s = M.alone t (k b) es s' := by
  rw [alone, h]

variable {M} in
theorem alone_ret {es : List ε} {s s' : σ} {r r' : τ}
    (h : M.alone t (.ret r) es s = some (s', r')) : s' = s ∧ r' = r := by
  simp only [alone, Option.some.injEq, Prod.mk.injEq] at h
  exact ⟨h.1.symm, h.2.symm⟩

variable {M} in
theorem alone_keeps {t : ℕ} {I : σ → List ε → Prop} {S : α → Prop}
    (h : ∀ a e es s s' b, S a → I s (e :: es) → M.perform t a e s = some (s', b) → I s' es)
    {τ : Type} {p : Prog Ans τ} {es : List ε} {s s' : σ} {r : τ} (hp : p.All S)
    (hs : I s es) (halone : M.alone t p es s = some (s', r)) : ∃ rest, I s' rest := by
  induction p generalizing es s with
  | ret r₁ =>
      obtain ⟨rfl, -⟩ := alone_ret halone
      exact ⟨es, hs⟩
  | act a k ih =>
      obtain ⟨e, es, s₁, b, rfl, hperform, hrest⟩ := alone_act halone
      exact ih b (hp.2 b) (h a e es s s₁ b hp.1 hs hperform) hrest

def recorded {κ : Type} (record : (a : α) → ε → Ans a → κ → κ) :
    Machine (σ × κ) ε ι χ ρ Ans where
  code := M.code
  perform t a e s := (M.perform t a e s.1).map fun r => ((r.1, record a e r.2 s.2), r.2)
  outside x s := (M.outside x s.1, s.2)

variable {M} in
theorem recorded_perform {κ : Type} {record : (a : α) → ε → Ans a → κ → κ} {t : ℕ} {a : α}
    {e : ε} {s s' : σ × κ} {b : Ans a} (h : (M.recorded record).perform t a e s = some (s', b)) :
    M.perform t a e s.1 = some (s'.1, b) ∧ s'.2 = record a e b s.2 := by
  simp only [recorded, Option.map_eq_some_iff] at h
  obtain ⟨⟨s₁, b₁⟩, hperform, hpair⟩ := h
  rw [Prod.mk.injEq] at hpair
  obtain ⟨rfl, rfl⟩ := hpair
  exact ⟨hperform, rfl⟩

theorem alone_recorded {κ : Type} (record : (a : α) → ε → Ans a → κ → κ) (t : ℕ) {τ : Type}
    (p : Prog Ans τ) (es : List ε) (s : σ) (c : κ) :
    ((M.recorded record).alone t p es (s, c)).map (fun x => (x.1.1, x.2)) =
      M.alone t p es s := by
  induction p generalizing es s c with
  | ret r => rfl
  | act a k ih =>
      rcases es with - | ⟨e, es⟩
      · rfl
      · simp only [alone, recorded]
        rcases hperform : M.perform t a e s with - | ⟨s₁, b⟩
        · rfl
        · exact ih b es s₁ _

abbrev timed (time : ε → ℚ) : Machine (σ × ℚ) ε ι χ ρ Ans :=
  M.recorded fun _ e _ _ => time e

end Machine

/-! ## Calls in sequence -/

inductive SequenceMove (ε ι χ : Type) : Type
  | call (op : ι) (readings : List ε)
  | outside (x : χ)

def Machine.inSequence {σ ε ι χ ρ α : Type} {Ans : α → Type} (M : Machine σ ε ι χ ρ Ans)
    (s : σ) : SequenceMove ε ι χ → σ
  | .call op es =>
      match M.alone 0 (M.code op) es s with
      | some (s', _) => s'
      | none => s
  | .outside x => M.outside x s

theorem Machine.inSequence_call {σ ε ι χ ρ α : Type} {Ans : α → Type}
    {M : Machine σ ε ι χ ρ Ans} {op : ι} {es : List ε} {s s' : σ} {r : ρ}
    (h : M.alone 0 (M.code op) es s = some (s', r)) : M.inSequence s (.call op es) = s' := by
  rw [inSequence, h]

theorem Machine.inSequence_recorded {σ ε ι χ ρ α κ : Type} {Ans : α → Type}
    (M : Machine σ ε ι χ ρ Ans) {record : (a : α) → ε → Ans a → κ → κ} (s : σ × κ)
    (m : SequenceMove ε ι χ) :
    ((M.recorded record).inSequence s m).1 = M.inSequence s.1 m := by
  obtain ⟨s, c⟩ := s
  rcases m with ⟨op, es⟩ | x
  · have halone : ((M.recorded record).alone 0 ((M.recorded record).code op) es (s, c)).map
        (fun x => (x.1.1, x.2)) = M.alone 0 (M.code op) es s :=
      M.alone_recorded record 0 (M.code op) es s c
    simp only [inSequence]
    generalize (M.recorded record).alone 0 ((M.recorded record).code op) es (s, c) = res
      at halone ⊢
    rw [← halone]
    rcases res with - | ⟨⟨s', c'⟩, r⟩ <;> rfl
  · rfl

theorem Machine.foldl_inSequence_recorded {σ ε ι χ ρ α κ : Type} {Ans : α → Type}
    (M : Machine σ ε ι χ ρ Ans) {record : (a : α) → ε → Ans a → κ → κ} (s : σ × κ)
    (ms : List (SequenceMove ε ι χ)) :
    (ms.foldl (M.recorded record).inSequence s).1 = ms.foldl M.inSequence s.1 := by
  induction ms generalizing s with
  | nil => rfl
  | cons m ms ih => rw [List.foldl_cons, List.foldl_cons, ih, M.inSequence_recorded]

/-! ## The rule of interleaved calls -/

/-- What every call keeps, what a call relies on while others move, the
condition under which a call is started, an action is taken or something
outside happens, and what an action does then. -/
structure Discipline {σ ε ι χ ρ α : Type} {Ans : α → Type} (M : Machine σ ε ι χ ρ Ans) where
  inv : σ → Prop
  rely : ℕ → σ → σ → Prop
  meetsStart : σ → ι → Prop
  meets : σ → ℕ → ι → α → ε → Prop
  meetsOutside : σ → χ → Prop
  effect : ℕ → ι → α → σ → σ → Prop
  rely_refl : ∀ t s, rely t s s
  rely_trans : ∀ t s₁ s₂ s₃, rely t s₁ s₂ → rely t s₂ s₃ → rely t s₁ s₃
  outside_keeps : ∀ s x, inv s → meetsOutside s x →
    inv (M.outside x s) ∧ ∀ t, rely t s (M.outside x s)

namespace Discipline

variable {σ ε ι χ ρ α : Type} {Ans : α → Type} {M : Machine σ ε ι χ ρ Ans}
  (D : Discipline M)

/-- From here on, whatever the others do meanwhile, each action of the program
has its effect, keeps the invariant and leaves the others what they rely on;
where the program returns, `Q` holds. -/
def Safe (t : ℕ) (op : ι) {τ : Type} (Q : τ → σ → Prop) : Prog Ans τ → σ → Prop
  | .ret r, s => Q r s
  | .act a k, s => ∀ s', D.rely t s s' → D.inv s' → ∀ e, D.meets s' t op a e →
      ∀ s'' b, M.perform t a e s' = some (s'', b) →
        D.effect t op a s' s'' ∧ D.inv s'' ∧ (∀ u, u ≠ t → D.rely u s' s'') ∧
          Safe t op Q (k b) s''

/-- The program is safe wherever `P` holds. -/
def Triple (t : ℕ) (op : ι) {τ : Type} (P : σ → Prop) (p : Prog Ans τ) (Q : τ → σ → Prop) :
    Prop :=
  ∀ s, P s → D.Safe t op Q p s

def Stable (t : ℕ) (P : σ → Prop) : Prop := ∀ s s', D.rely t s s' → P s → P s'

def Meets (p : Pool σ ι ρ Ans) : PoolMove ε ι χ → Prop
  | .start _ op => D.meetsStart p.shared op
  | .step t e =>
      match p.calls t with
      | some ⟨op, .act a _⟩ => D.meets p.shared t op a e
      | _ => True
  | .outside x => D.meetsOutside p.shared x

/-- The invariant holds and every call in flight is safe from here on. -/
def Sound (p : Pool σ ι ρ Ans) : Prop :=
  D.inv p.shared ∧ ∀ t c, p.calls t = some c → D.Safe t c.op (fun _ _ => True) c.rest p.shared

def Verified : Prop :=
  ∀ t op, D.Triple t op (fun s => D.inv s ∧ D.meetsStart s op) (M.code op) fun _ _ => True

variable {D}

variable {t : ℕ} {op : ι}

theorem Safe.of_rely {p : Prog Ans ρ} {s s' : σ}
    (h : D.Safe t op (fun _ _ => True) p s) (hrely : D.rely t s s') :
    D.Safe t op (fun _ _ => True) p s' := by
  cases p with
  | ret r => trivial
  | act a k =>
      intro s'' hrely'
      exact h s'' (D.rely_trans t _ _ _ hrely hrely')

theorem Safe.bind {τ υ : Type} {R : τ → σ → Prop} {Q : υ → σ → Prop}
    {f : τ → Prog Ans υ} (hf : ∀ r s, R r s → D.Safe t op Q (f r) s) {p : Prog Ans τ} {s : σ}
    (hp : D.Safe t op R p s) : D.Safe t op Q (p >>= f) s := by
  induction p generalizing s with
  | ret r => exact hf r s hp
  | act a k ih =>
      intro s' hrely hinv e hmeets s'' b hperform
      obtain ⟨heffect, hinv', hrely', hnext⟩ := hp s' hrely hinv e hmeets s'' b hperform
      exact ⟨heffect, hinv', hrely', ih b hnext⟩

theorem Safe.imp {τ : Type} {Q R : τ → σ → Prop} (h : ∀ r s, Q r s → R r s)
    {p : Prog Ans τ} {s : σ} (hp : D.Safe t op Q p s) : D.Safe t op R p s := by
  induction p generalizing s with
  | ret r => exact h r s hp
  | act a k ih =>
      intro s' hrely hinv e hmeets s'' b hperform
      obtain ⟨heffect, hinv', hrely', hnext⟩ := hp s' hrely hinv e hmeets s'' b hperform
      exact ⟨heffect, hinv', hrely', ih b hnext⟩

/-! ## Rules for programs -/

section Rules

variable {t : ℕ} {op : ι} {τ υ : Type} {P P' : σ → Prop} {R : τ → σ → Prop} {Q : υ → σ → Prop}

theorem Triple.ret {r : υ} (h : ∀ s, P s → Q r s) : D.Triple t op P (pure r) Q := h

theorem Triple.bind {p : Prog Ans τ} {f : τ → Prog Ans υ} (hp : D.Triple t op P p R)
    (hf : ∀ r, D.Triple t op (R r) (f r) Q) : D.Triple t op P (p >>= f) Q := by
  intro s hs
  exact Safe.bind (fun r s hr => hf r s hr) (hp s hs)

theorem Triple.weaken {p : Prog Ans υ} (h : D.Triple t op P p Q) (hP : ∀ s, P' s → P s) :
    D.Triple t op P' p Q :=
  fun s hs => h s (hP s hs)

theorem Triple.imp {R : υ → σ → Prop} {p : Prog Ans υ} (h : D.Triple t op P p Q)
    (hR : ∀ r s, Q r s → R r s) : D.Triple t op P p R :=
  fun s hs => (h s hs).imp hR

theorem Triple.action {a : α} {Q : Ans a → σ → Prop} (hstable : D.Stable t P)
    (haction : ∀ s e s' b, P s → D.inv s → D.meets s t op a e →
      M.perform t a e s = some (s', b) →
        D.effect t op a s s' ∧ D.inv s' ∧ (∀ u, u ≠ t → D.rely u s s') ∧ Q b s') :
    D.Triple t op P (Prog.perform a) Q := by
  intro s hs s' hrely hinv e hmeets s'' b hperform
  exact haction s' e s'' b (hstable s s' hrely hs) hinv hmeets hperform

end Rules

/-! ## Runs -/

theorem sound_quiet {s : σ} (hs : D.inv s) : D.Sound (Machine.quiet s) := by
  refine ⟨hs, ?_⟩
  intro t c hc
  cases hc

theorem sound_update {p : Pool σ ι ρ Ans} (hp : D.Sound p) {t : ℕ} {s : σ}
    {c : OpenCall ι ρ Ans} (hinv : D.inv s) (hrely : ∀ u, u ≠ t → D.rely u p.shared s)
    (hc : D.Safe t c.op (fun _ _ => True) c.rest s) :
    D.Sound ⟨s, Function.update p.calls t (some c)⟩ := by
  refine ⟨hinv, ?_⟩
  intro u d hd
  by_cases hu : u = t
  · subst hu
    simp only [Function.update_self, Option.some.injEq] at hd
    subst hd
    exact hc
  · simp only [Function.update_of_ne hu] at hd
    exact (hp.2 u d hd).of_rely (hrely u hu)

theorem Sound.step (hcode : D.Verified)
    {p : Pool σ ι ρ Ans} {m : PoolMove ε ι χ} (hp : D.Sound p) (hm : D.Meets p m) :
    D.Sound (M.step p m) := by
  rcases m with ⟨t, op⟩ | ⟨t, e⟩ | x
  · rw [Machine.step]
    split
    · exact sound_update hp hp.1 (fun u _ => D.rely_refl u p.shared) (hcode t op _ ⟨hp.1, hm⟩)
    · exact hp
  · rw [Machine.step]
    split
    · rename_i op a k hcall
      split
      · rename_i s b hperform
        have hmeets : D.meets p.shared t op a e := by
          rw [Meets, hcall] at hm
          exact hm
        obtain ⟨-, hinv, hrely, hnext⟩ :=
          hp.2 t _ hcall p.shared (D.rely_refl t p.shared) hp.1 e hmeets s b hperform
        exact sound_update hp hinv hrely hnext
      · exact hp
    · exact hp
  · obtain ⟨hinv, hrely⟩ := D.outside_keeps p.shared x hp.1 hm
    refine ⟨hinv, ?_⟩
    intro u c hc
    exact (hp.2 u c hc).of_rely (hrely u)

theorem Sound.effect {p : Pool σ ι ρ Ans} (hp : D.Sound p) {t : ℕ} {e : ε} {op : ι} {a : α}
    {k : Ans a → Prog Ans ρ} (hcall : p.calls t = some ⟨op, .act a k⟩)
    (hmeets : D.meets p.shared t op a e) {s : σ} {b : Ans a}
    (hperform : M.perform t a e p.shared = some (s, b)) : D.effect t op a p.shared s :=
  (hp.2 t _ hcall p.shared (D.rely_refl t p.shared) hp.1 e hmeets s b hperform).1

theorem sound_run (hcode : D.Verified)
    {p : Pool σ ι ρ Ans} (hp : D.Sound p) {ms : List (PoolMove ε ι χ)}
    (hms : Along M.step D.Meets p ms) : D.Sound (ms.foldl M.step p) := by
  apply Along.invariant _ hp hms
  intro q m hq hm
  exact hq.step hcode hm

end Discipline

end Sentinel
