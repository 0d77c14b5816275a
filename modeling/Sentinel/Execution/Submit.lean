import Sentinel.Execution.Frame

/-!
# A whole call of the order manager

`submit` and `resolve_unknown` from beginning to end, as a caller that holds
the lock sees them: the same pieces as in `Calls`, one after the other.  The
venue's answers to each attempt are given in advance.
-/

namespace Sentinel

namespace OrderManager

def resolveUnknown (c : String) (reply : Reply) : OmsM Unit := do
  match ← toResolve c with
  | none => pure ()
  | some order =>
      match reply.query with
      | .returned result =>
          applyResult order.intent.clientOrderId order.intent result none reply.apply
          liftQuarantine order.intent.clientOrderId
      | .notFound => journalEvent .orderUnknown (some order.intent.clientOrderId)
      | .brokerError _ => journalEvent .orderUnknown (some order.intent.clientOrderId)
      | .otherError message => throw (.brokerRaised message)

variable (intent : OrderIntent) (decisionPrice : Option Dec) (replies : ℕ → Reply)

/-- The retry loop of `submit` after `attempt` attempts, with `left` to go. -/
def attempts (intent : OrderIntent) (decisionPrice : Option Dec) (replies : ℕ → Reply) :
    (left attempt : ℕ) → OmsM Unit
  | 0, _ => exhausted intent.clientOrderId intent.instrument
  | left + 1, attempt => do
      beginAttempt intent.clientOrderId (attempt + 1)
      match (replies attempt).submit with
      | .returned result =>
          applyResult intent.clientOrderId intent result decisionPrice (replies attempt).apply
      | .unknownOutcome message =>
          quarantineUnknown intent.clientOrderId intent.instrument message
          resolveUnknown intent.clientOrderId (replies attempt)
      | .transient message =>
          noteError intent.clientOrderId message
          attempts intent decisionPrice replies left (attempt + 1)
      | .permanent message => rejectPermanently intent.clientOrderId message
      | .brokerError message =>
          noteError intent.clientOrderId message
          exhausted intent.clientOrderId intent.instrument
      | .otherError message => throw (.brokerRaised message)

/-- What follows the first lock block of `submit`. -/
def place :
    Admission → OmsM Unit
  | .duplicate => pure ()
  | .fresh => do
      let om ← get
      attempts intent decisionPrice replies (om.maxRetries + 1) 0

def stored (c : String) : OmsM (Option Order) := do
  let om ← get
  pure (om.order? c)

/-- `submit`, with the order it returns. -/
def submit : OmsM (Option Order) := do
  let admission ← register intent
  place intent decisionPrice replies admission
  stored intent.clientOrderId

def resolveAllUnknown (replies : String → Reply) : OmsM Unit := do
  let om ← get
  om.unresolved.forM fun o =>
    resolveUnknown o.intent.clientOrderId (replies o.intent.clientOrderId)

/-! ## The ids that are held -/

def SameIds (om om' : OrderManager) : Prop :=
  ∀ c, (om'.order? c).isSome = (om.order? c).isSome

instance : Std.Refl SameIds := ⟨fun _ _ => rfl⟩

instance : IsTrans OrderManager SameIds := ⟨fun _ _ _ h h' c => (h' c).trans (h c)⟩

theorem Confined.sameIds {c instrument : String} {om om' : OrderManager}
    (h : Confined c instrument om om') : SameIds om om' :=
  h.isSome_eq

section Ids

variable {c instrument : String}

theorem sameIds_of_confined {α : Type} {p : OmsM α} (h : Moves (Confined c instrument) p) :
    Moves SameIds p :=
  Moves.mono (fun _ _ => Confined.sameIds) h

theorem sameIds_journalEvent (event : EventType) (c' : Option String) :
    Moves SameIds (journalEvent event c') :=
  fun _ _ => rfl

theorem sameIds_liftQuarantine : Moves SameIds (liftQuarantine c) := by
  intro om
  obtain ⟨om', hrun, -, -, horders, -⟩ := liftQuarantine_cases c om
  simp [finalState, hrun, SameIds, order?, horders]

theorem sameIds_resolveUnknown (reply : Reply) : Moves SameIds (resolveUnknown c reply) := by
  have htoResolve : Moves SameIds (toResolve c) := Moves.bind Moves.get fun _ => Moves.pure _
  refine Moves.bind htoResolve fun found => ?_
  cases found with
  | none => exact Moves.pure _
  | some order =>
      simp only
      cases reply.query with
      | returned result =>
          exact Moves.bind (sameIds_of_confined (confined_applyResult _ _ _ _))
            fun _ => sameIds_liftQuarantine
      | notFound => exact sameIds_journalEvent _ _
      | brokerError message => exact sameIds_journalEvent _ _
      | otherError message => exact Moves.throw _

theorem moves_attempts {R : OrderManager → OrderManager → Prop} [Std.Refl R]
    [IsTrans OrderManager R] {intent : OrderIntent}
    (hframe : ∀ om om', Confined intent.clientOrderId intent.instrument om om' → R om om')
    (hresolve : ∀ reply, Moves R (resolveUnknown intent.clientOrderId reply))
    (decisionPrice : Option Dec) (replies : ℕ → Reply) (left attempt : ℕ) :
    Moves R (attempts intent decisionPrice replies left attempt) := by
  have hexhausted : Moves R (exhausted intent.clientOrderId intent.instrument) :=
    Moves.mono hframe confined_exhausted
  have hnote : ∀ message, Moves R (noteError intent.clientOrderId message) :=
    fun message => Moves.mono hframe (confined_noteError message)
  induction left generalizing attempt with
  | zero => exact hexhausted
  | succ left ih =>
      unfold attempts
      refine Moves.bind (Moves.mono hframe (confined_beginAttempt _)) fun _ => ?_
      cases (replies attempt).submit with
      | returned result => exact Moves.mono hframe (confined_applyResult _ _ _ _)
      | unknownOutcome message =>
          exact Moves.bind (Moves.mono hframe (confined_quarantineUnknown _))
            fun _ => hresolve _
      | transient message => exact Moves.bind (hnote _) fun _ => ih (attempt + 1)
      | permanent message => exact Moves.mono hframe (confined_rejectPermanently _)
      | brokerError message => exact Moves.bind (hnote _) fun _ => hexhausted
      | otherError message => exact Moves.throw _

theorem sameIds_attempts (left attempt : ℕ) :
    Moves SameIds (attempts intent decisionPrice replies left attempt) :=
  moves_attempts (fun _ _ => Confined.sameIds) sameIds_resolveUnknown decisionPrice replies
    left attempt

theorem sameIds_resolveAllUnknown (replies : String → Reply) :
    Moves SameIds (resolveAllUnknown replies) :=
  Moves.bind_get fun om =>
    Moves.forM (fun _ => sameIds_resolveUnknown _) om.unresolved om

end Ids

theorem orders_releaseQuarantine (instrument : String) (om : OrderManager) :
    (finalState (releaseQuarantine instrument) om).orders = om.orders := by
  have hreleased : Moves (fun om om' : OrderManager => om'.orders = om.orders)
      (releaseQuarantine instrument) := by
    refine Moves.bind_get fun om => ?_
    by_cases hheld : instrument ∈ om.quarantine
    · rw [if_pos hheld]
      rfl
    · rw [if_neg hheld]
      rfl
  exact hreleased om

/-! ## The ends of `submit` -/

def blocked (om : OrderManager) (c : String) : OrderManager :=
  { om with journal := om.journal ++ [⟨.orderDuplicateBlocked, some c⟩] }

theorem submit_cases (om : OrderManager) :
    (intent.instrument ∈ om.quarantine ∧
      (submit intent decisionPrice replies).run om =
        .error (.quarantined intent.instrument) om) ∨
    (intent.instrument ∉ om.quarantine ∧ ∃ order, om.order? intent.clientOrderId = some order ∧
      (submit intent decisionPrice replies).run om =
        .ok (some order) (om.blocked intent.clientOrderId)) ∨
    (intent.instrument ∉ om.quarantine ∧ om.order? intent.clientOrderId = none ∧
      ((∃ order om', (submit intent decisionPrice replies).run om = .ok (some order) om' ∧
          om'.order? intent.clientOrderId = some order ∧ SameIds (om.registered intent) om') ∨
        ∃ e om', (submit intent decisionPrice replies).run om = .error e om' ∧
          SameIds (om.registered intent) om')) := by
  rcases register_cases intent om with ⟨hq, hregister⟩ | ⟨hq, hheld, hregister⟩ |
      ⟨hq, hnew, hregister⟩
  · exact .inl ⟨hq, by rw [submit, run_bind, hregister]⟩
  · obtain ⟨order, horder⟩ := Option.isSome_iff_exists.1 hheld
    refine .inr (.inl ⟨hq, order, horder, ?_⟩)
    rw [submit, run_bind, hregister, ← horder]
    rfl
  · refine .inr (.inr ⟨hq, hnew, ?_⟩)
    have hids := sameIds_attempts intent decisionPrice replies
      ((om.registered intent).maxRetries + 1) 0 (om.registered intent)
    have hplace : (place intent decisionPrice replies .fresh).run (om.registered intent) =
        (attempts intent decisionPrice replies ((om.registered intent).maxRetries + 1) 0).run
          (om.registered intent) := rfl
    unfold finalState at hids
    rw [submit, run_bind, hregister]
    simp only [run_bind, hplace]
    cases hattempts : (attempts intent decisionPrice replies
        ((om.registered intent).maxRetries + 1) 0).run (om.registered intent) with
    | error e om' =>
        rw [hattempts] at hids
        exact .inr ⟨e, om', rfl, hids⟩
    | ok u om' =>
        rw [hattempts] at hids
        have hsome : (om'.order? intent.clientOrderId).isSome := by
          rw [hids intent.clientOrderId, order?_registered, if_pos rfl]
          rfl
        obtain ⟨order, horder⟩ := Option.isSome_iff_exists.1 hsome
        exact .inl ⟨order, om', by rw [← horder]; rfl, horder, hids⟩

end OrderManager

end Sentinel
