import Sentinel.Agent.Proposals
import Sentinel.Support.Dict
import Sentinel.Support.Runs

/-!
# The proposal queue

A proposal waits for a human, then for a validation run, then is applied.  The
queue is a dictionary under the proposals' ids, and a proposal carries the time
it expires, which only `expire_stale` compares with a clock.
-/

namespace Sentinel

variable {δ : Type}

/-- A proposal as `propose` makes it. -/
structure NewProposal (δ : Type) extends ParamProposal δ where
  status_eq : status = .pending

namespace ParamProposal

def Current (p : ParamProposal δ) (nowNs : ℤ) : Prop := p.expiresNs = 0 ∨ nowNs ≤ p.expiresNs

def SameAs (p p' : ParamProposal δ) : Prop :=
  p' = { p with
    status := p'.status
    validationRunId := p'.validationRunId
    reviewedBy := p'.reviewedBy
    reviewedNs := p'.reviewedNs }

end ParamProposal

def ProposalStatus.MayBecome (s t : ProposalStatus) : Prop :=
  s = t ∨ (s, t) ∈ [(pending, approved), (pending, rejected), (pending, expired),
    (approved, validated), (approved, rejected), (validated, applied)]

inductive QueueError where
  | unknown (id : String)
  | notPending (id : String) (status : ProposalStatus)
  | notApproved
  | notValidated
  deriving DecidableEq

structure ProposalQueue (δ : Type) where
  items : Dict String (ParamProposal δ) := Dict.empty

namespace ProposalQueue

def superseded (path : String) (p : ParamProposal δ) : ParamProposal δ :=
  if p.path = path ∧ p.status = .pending then { p with status := .expired } else p

variable (b : ProposalQueue δ)

def add (p : NewProposal δ) : ProposalQueue δ where
  items := (b.items.mapValues (superseded p.path)).set p.id p.toParamProposal

def staled (nowNs : ℤ) (p : ParamProposal δ) : ParamProposal δ :=
  if p.status = .pending ∧ p.expiresNs ≠ 0 ∧ p.expiresNs < nowNs then
    { p with status := .expired }
  else p

/-- `expire_stale`, which `pending` calls. -/
def expireStale (nowNs : ℤ) : ProposalQueue δ where items := b.items.mapValues (staled nowNs)

/-- What `review`, `mark_validated` and `mark_applied` share: the proposal under
the id is changed when it is at the stage the call asks for. -/
def advance (id : String) (stage : ProposalStatus)
    (error : ProposalStatus → QueueError) (f : ParamProposal δ → ParamProposal δ) :
    ProposalQueue δ × Except QueueError (ParamProposal δ) :=
  match b.items.get? id with
  | none => (b, .error (.unknown id))
  | some p =>
      if p.status = stage then ({ items := b.items.set id (f p) }, .ok (f p))
      else (b, .error (error p.status))

def reviewed (approve : Bool) (reviewer : String) (nowNs : ℤ) (p : ParamProposal δ) :
    ParamProposal δ :=
  { p with
    status := if approve then .approved else .rejected
    reviewedBy := some reviewer
    reviewedNs := some nowNs }

def review (id : String) (approve : Bool) (reviewer : String) (nowNs : ℤ) :
    ProposalQueue δ × Except QueueError (ParamProposal δ) :=
  b.advance id .pending (.notPending id) (reviewed approve reviewer nowNs)

def validated (runId : String) (passed : Bool) (p : ParamProposal δ) : ParamProposal δ :=
  { p with
    status := if passed then .validated else .rejected
    validationRunId := some runId }

def markValidated (id runId : String) (passed : Bool) :
    ProposalQueue δ × Except QueueError (ParamProposal δ) :=
  b.advance id .approved (fun _ => .notApproved) (validated runId passed)

def applied (p : ParamProposal δ) : ParamProposal δ := { p with status := .applied }

def markApplied (id : String) : ProposalQueue δ × Except QueueError (ParamProposal δ) :=
  b.advance id .validated (fun _ => .notValidated) applied

end ProposalQueue

/-! ## Runs -/

/-- The calls on a queue; `mark_applied` reads no clock, its time is when it is
called. -/
inductive ProposalMove (δ : Type) where
  | add (p : NewProposal δ)
  | review (id : String) (approve : Bool) (reviewer : String) (nowNs : ℤ)
  | validate (id runId : String) (passed : Bool)
  | apply (id : String) (nowNs : ℤ)
  | expire (nowNs : ℤ)

namespace ProposalQueue

def step (b : ProposalQueue δ) : ProposalMove δ → ProposalQueue δ
  | .add p => b.add p
  | .review id approve reviewer nowNs => (b.review id approve reviewer nowNs).1
  | .validate id runId passed => (b.markValidated id runId passed).1
  | .apply id _ => (b.markApplied id).1
  | .expire nowNs => b.expireStale nowNs

/-- What a call leaves behind: every proposal that was in the queue, at its stage
or the next; beside them the one that is added; and none approved or applied
past its time. -/
structure Kept (b : ProposalQueue δ) (m : ProposalMove δ) : Prop where
  held : ∀ id p, b.items.get? id = some p → ∃ p', (b.step m).items.get? id = some p' ∧
    p.SameAs p' ∧ p.status.MayBecome p'.status
  fresh : ∀ id p', b.items.get? id = none → (b.step m).items.get? id = some p' →
    p'.status = .pending
  added : ∀ p, m = .add p → (b.step m).items.get? p.id = some p.toParamProposal ∧
    (b.step m).items.items.length = b.items.items.length + 1
  approved : ∀ id approve reviewer nowNs, m = .review id approve reviewer nowNs →
    ∀ p p', b.items.get? id = some p → (b.step m).items.get? id = some p' →
      p.status ≠ p'.status → p'.status = .approved → p.Current nowNs
  applied : ∀ id nowNs, m = .apply id nowNs →
    ∀ p p', b.items.get? id = some p → (b.step m).items.get? id = some p' →
      p.status ≠ p'.status → p'.status = .applied → p.Current nowNs

def InTime (b : ProposalQueue δ) : ProposalMove δ → Prop
  | .add p => b.items.get? p.id = none
  | .review id approve _ nowNs =>
      approve = true → ∀ p, b.items.get? id = some p → p.status = .pending → p.Current nowNs
  | .apply id nowNs =>
      ∀ p, b.items.get? id = some p → p.status = .validated → p.Current nowNs
  | .validate _ _ _ => True
  | .expire _ => True

end ProposalQueue

/-! ## Stages -/

namespace ProposalQueue

def Advances (p p' : ParamProposal δ) : Prop := p.SameAs p' ∧ p.status.MayBecome p'.status

theorem advances_refl (p : ParamProposal δ) : Advances p p := ⟨rfl, .inl rfl⟩

theorem advances_superseded (path : String) (p : ParamProposal δ) :
    Advances p (superseded path p) := by
  rw [superseded]
  split_ifs with h
  · exact ⟨rfl, by simp [ProposalStatus.MayBecome, h.2]⟩
  · exact advances_refl p

theorem advances_staled (nowNs : ℤ) (p : ParamProposal δ) : Advances p (staled nowNs p) := by
  rw [staled]
  split_ifs with h
  · exact ⟨rfl, by simp [ProposalStatus.MayBecome, h.1]⟩
  · exact advances_refl p

theorem advances_reviewed (approve : Bool) (reviewer : String) (nowNs : ℤ) {p : ParamProposal δ}
    (h : p.status = .pending) : Advances p (reviewed approve reviewer nowNs p) := by
  refine ⟨rfl, ?_⟩
  cases approve <;> simp [ProposalStatus.MayBecome, reviewed, h]

theorem advances_validated (runId : String) (passed : Bool) {p : ParamProposal δ}
    (h : p.status = .approved) : Advances p (validated runId passed p) := by
  refine ⟨rfl, ?_⟩
  cases passed <;> simp [ProposalStatus.MayBecome, validated, h]

theorem advances_applied {p : ParamProposal δ} (h : p.status = .validated) :
    Advances p (applied p) :=
  ⟨rfl, by simp [ProposalStatus.MayBecome, applied, h]⟩

variable (b : ProposalQueue δ)

theorem get?_advance (id : String) (stage : ProposalStatus)
    (error : ProposalStatus → QueueError) (f : ParamProposal δ → ParamProposal δ) (id' : String) :
    (b.advance id stage error f).1.items.get? id' =
      if id' = id then (b.items.get? id').map fun p => if p.status = stage then f p else p
      else b.items.get? id' := by
  rw [advance]
  by_cases hid : id' = id
  · subst hid
    rw [if_pos rfl]
    split
    · rename_i hp
      simp [hp]
    · rename_i p hp
      rw [hp]
      by_cases hstage : p.status = stage
      · simp [hstage]
      · simp [hstage, hp]
  · rw [if_neg hid]
    split
    · rfl
    · split_ifs
      · exact Dict.get?_set_of_ne _ hid _
      · rfl

theorem held_advance (id : String) (stage : ProposalStatus)
    (error : ProposalStatus → QueueError) {f : ParamProposal δ → ParamProposal δ}
    (hf : ∀ p : ParamProposal δ, p.status = stage → Advances p (f p)) (id' : String)
    (p : ParamProposal δ)
    (hp : b.items.get? id' = some p) :
    ∃ p', (b.advance id stage error f).1.items.get? id' = some p' ∧ Advances p p' := by
  rw [get?_advance, hp]
  split_ifs with hid
  · refine ⟨if p.status = stage then f p else p, rfl, ?_⟩
    split_ifs with hstage
    · exact hf p hstage
    · exact advances_refl p
  · exact ⟨p, rfl, advances_refl p⟩

/-! ## Each call and whole runs -/

variable (m : ProposalMove δ)

theorem held_step (hm : b.InTime m) (id : String)
    (p : ParamProposal δ) (hp : b.items.get? id = some p) :
    ∃ p', (b.step m).items.get? id = some p' ∧ Advances p p' := by
  cases m with
  | add q =>
      have hne : id ≠ q.id := by
        rintro rfl
        rw [InTime, hp] at hm
        cases hm
      refine ⟨superseded q.path p, ?_, advances_superseded q.path p⟩
      rw [step, add, Dict.get?_set_of_ne _ hne, Dict.get?_mapValues, hp, Option.map_some]
  | review id' approve reviewer nowNs =>
      exact b.held_advance id' _ _ (fun q hq => advances_reviewed approve reviewer nowNs hq) id p hp
  | validate id' runId passed =>
      exact b.held_advance id' _ _ (fun q hq => advances_validated runId passed hq) id p hp
  | apply id' nowNs =>
      exact b.held_advance id' _ _ (fun q hq => advances_applied hq) id p hp
  | expire nowNs =>
      refine ⟨staled nowNs p, ?_, advances_staled nowNs p⟩
      rw [step, expireStale, Dict.get?_mapValues, hp, Option.map_some]

theorem fresh_step (id : String) (p' : ParamProposal δ)
    (hnone : b.items.get? id = none) (hp' : (b.step m).items.get? id = some p') :
    p'.status = .pending := by
  have hadvance : ∀ id' stage error (f : ParamProposal δ → ParamProposal δ),
      (b.advance id' stage error f).1.items.get? id = none := by
    intro id' stage error f
    rw [get?_advance, hnone]
    split_ifs <;> rfl
  cases m with
  | add q =>
      rw [step, add, Dict.get?_set, Dict.get?_mapValues, hnone] at hp'
      split_ifs at hp' with hid
      · rw [← Option.some.inj hp']
        exact q.status_eq
      · cases hp'
  | review id' approve reviewer nowNs => cases (hadvance _ _ _ _).symm.trans hp'
  | validate id' runId passed => cases (hadvance _ _ _ _).symm.trans hp'
  | apply id' nowNs => cases (hadvance _ _ _ _).symm.trans hp'
  | expire nowNs =>
      rw [step, expireStale, Dict.get?_mapValues, hnone] at hp'
      cases hp'

theorem length_add (p : NewProposal δ) :
    (b.add p).items.items.length =
      b.items.items.length + if b.items.get? p.id = none then 1 else 0 := by
  have hlength : (b.items.mapValues (superseded p.path)).items.length = b.items.items.length :=
    List.length_map _
  rw [add]
  cases hold : b.items.get? p.id with
  | none =>
      have hnew : (b.items.mapValues (superseded p.path)).get? p.id = none := by
        rw [Dict.get?_mapValues, hold, Option.map_none]
      rw [Dict.items_set_of_notMem ((Dict.get?_eq_none_iff _ _).1 hnew), List.length_append,
        hlength]
      rfl
  | some old =>
      have hnew : (b.items.mapValues (superseded p.path)).get? p.id =
          some (superseded p.path old) := by
        rw [Dict.get?_mapValues, hold, Option.map_some]
      obtain ⟨pre, post, hitems, hset⟩ := Dict.exists_items_set hnew
      rw [hset, ← hlength, hitems]
      simp

theorem kept_iff : b.Kept m ↔ b.InTime m := by
  constructor
  · intro h
    cases m with
    | add p =>
        have hlength := (h.added p rfl).2
        rw [step, length_add] at hlength
        rw [InTime]
        by_contra hold
        rw [if_neg hold] at hlength
        omega
    | review id approve reviewer nowNs =>
        intro happrove p hp hstage
        have hafter : (b.step (.review id approve reviewer nowNs)).items.get? id =
            some (reviewed approve reviewer nowNs p) := by
          rw [step, review, get?_advance, if_pos rfl, hp, Option.map_some, if_pos hstage]
        subst happrove
        apply h.approved id true reviewer nowNs rfl p _ hp hafter
        · simp [reviewed, hstage]
        · rfl
    | validate id runId passed => trivial
    | apply id nowNs =>
        intro p hp hstage
        have hafter : (b.step (.apply id nowNs)).items.get? id = some (applied p) := by
          rw [step, markApplied, get?_advance, if_pos rfl, hp, Option.map_some, if_pos hstage]
        apply h.applied id nowNs rfl p _ hp hafter
        · simp [applied, hstage]
        · rfl
    | expire nowNs => trivial
  · intro h
    constructor
    · exact b.held_step m h
    · exact b.fresh_step m
    · rintro p rfl
      constructor
      · exact Dict.get?_set_self _ _ _
      · rw [InTime] at h
        rw [step, length_add, if_pos h]
    · rintro id approve reviewer nowNs rfl p p' hp hp' hchange hstatus
      rw [step, review, get?_advance, if_pos rfl, hp, Option.map_some] at hp'
      split_ifs at hp' with hstage
      · obtain rfl := Option.some.inj hp'
        cases approve with
        | true => exact h rfl p hp hstage
        | false => cases hstatus
      · exact absurd (congrArg ParamProposal.status (Option.some.inj hp')) hchange
    · rintro id nowNs rfl p p' hp hp' hchange hstatus
      rw [step, markApplied, get?_advance, if_pos rfl, hp, Option.map_some] at hp'
      split_ifs at hp' with hstage
      · exact h p hp hstage
      · exact absurd (congrArg ParamProposal.status (Option.some.inj hp')) hchange

/-- In runs of any length from any queue: nothing is lost, stages are passed in
order and nothing is approved or applied past its time, exactly when every added
id is new and no expired proposal is approved or applied. -/
theorem queueKept_run_iff (ms : List (ProposalMove δ)) :
    Along ProposalQueue.step Kept b ms ↔ Along ProposalQueue.step InTime b ms := by
  apply Along.iff_of_kept (I := fun _ => True)
  · exact fun _ _ _ _ => trivial
  · exact fun b m _ => b.kept_iff m
  · trivial

/-- Two proposals of one millisecond: the first is gone. -/
theorem not_kept_sameMillisecond :
    let first : NewProposal Unit :=
      { id := proposalId 5000000, createdNs := 5000000, path := "risk.partial_take_r"
        currentValue := some (.number (3 / 2)), proposedValue := .number (9 / 8), status_eq := rfl }
    let second : NewProposal Unit :=
      { id := proposalId 5000300, createdNs := 5000300, path := "risk.breakeven_trigger_r"
        currentValue := some (.number 1), proposedValue := .number (4 / 5), status_eq := rfl }
    ¬Along ProposalQueue.step Kept {} [.add first, .add second] := by
  intro first second h
  obtain ⟨p', hp', hsame, -⟩ := h.2.1.held first.id first.toParamProposal (by decide +kernel)
  have hsecond : p' = second.toParamProposal := by
    have hget : (((({} : ProposalQueue Unit).step (.add first)).step (.add second)).items.get?
        first.id) = some second.toParamProposal := by
      decide +kernel
    exact Option.some.inj (hp'.symm.trans hget)
  have hpath := congrArg ParamProposal.path hsame
  rw [hsecond] at hpath
  simp [first, second] at hpath

end ProposalQueue

end Sentinel
