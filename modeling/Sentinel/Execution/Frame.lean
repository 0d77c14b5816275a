import Sentinel.Execution.OrderManager

/-!
# What one piece of a call may change

Every piece works on one order of one instrument.  `Confined` says what it
leaves alone, and what it owes: an order it makes UNKNOWN is quarantined in the
same piece, and an order whose outcome is settled is never made sendable again.
The registration of a new order and the lifting of a quarantine are the two
pieces outside this frame, and are described by their runs.

A call of `submit` or `resolve_unknown` is a sequence of uninterrupted pieces.
`Call` is the point a call has reached, `Call.step` runs its next piece, and a
`Session` holds any number of calls that a scheduler advances in any order.

Each `broker.submit` puts a request in flight.  The venue may turn a request
into an order at any later time, or never, whatever the caller was told; a
venue that supports client order ids refuses a second order under an id it
already has.
-/

namespace Sentinel

inductive Call where
  /-- `submit` before its first lock block -/
  | submit (intent : OrderIntent) (decisionPrice : Option Dec)
  /-- at the head of the retry loop, after `attempt` attempts -/
  | attempting (intent : OrderIntent) (decisionPrice : Option Dec) (attempt : ℕ)
  /-- inside `broker.submit` -/
  | onWire (intent : OrderIntent) (decisionPrice : Option Dec) (attempt : ℕ)
  /-- `broker.submit` has ended -/
  | settling (intent : OrderIntent) (decisionPrice : Option Dec) (attempt : ℕ)
      (outcome : SubmitOutcome)
  /-- the loop was left by `break` -/
  | givingUp (intent : OrderIntent)
  /-- `resolve_unknown` before it reads the order -/
  | resolving (clientOrderId : String)
  /-- inside `broker.query_order` -/
  | querying (intent : OrderIntent)
  /-- `broker.query_order` has ended -/
  | settlingQuery (intent : OrderIntent) (outcome : QueryOutcome)
  /-- before the lock block that may lift the quarantine -/
  | releasing (intent : OrderIntent)

/-- What the venue answers to the piece of a call that runs next. -/
structure Reply where
  submit : SubmitOutcome
  query : QueryOutcome
  apply : ApplyReplies

open OrderManager in
/-- Run the next piece of a call; `none` when the call has returned. -/
def Call.step (reply : Reply) : Call → OmsM (Option Call)
  | .submit intent decisionPrice => do
      match ← register intent with
      | .fresh => pure (some (.attempting intent decisionPrice 0))
      | .duplicate => pure none
  | .attempting intent decisionPrice attempt => do
      let om ← get
      if attempt ≤ om.maxRetries then
        beginAttempt intent.clientOrderId (attempt + 1)
        pure (some (.onWire intent decisionPrice (attempt + 1)))
      else
        exhausted intent.clientOrderId intent.instrument
        pure none
  | .onWire intent decisionPrice attempt =>
      pure (some (.settling intent decisionPrice attempt reply.submit))
  | .settling intent decisionPrice attempt outcome => do
      match outcome with
      | .returned result =>
          applyResult intent.clientOrderId intent result decisionPrice reply.apply
          pure none
      | .unknownOutcome message =>
          quarantineUnknown intent.clientOrderId intent.instrument message
          pure (some (.resolving intent.clientOrderId))
      | .transient message =>
          -- past the last attempt this `break`s, which is the loop test itself
          noteError intent.clientOrderId message
          pure (some (.attempting intent decisionPrice attempt))
      | .permanent message =>
          rejectPermanently intent.clientOrderId message
          pure none
      | .brokerError message =>
          noteError intent.clientOrderId message
          pure (some (.givingUp intent))
      | .otherError message => throw (.brokerRaised message)
  | .givingUp intent => do
      exhausted intent.clientOrderId intent.instrument
      pure none
  | .resolving c => do
      match ← toResolve c with
      | none => pure none
      | some order => pure (some (.querying order.intent))
  | .querying intent => pure (some (.settlingQuery intent reply.query))
  | .settlingQuery intent outcome => do
      match outcome with
      | .returned result =>
          applyResult intent.clientOrderId intent result none reply.apply
          pure (some (.releasing intent))
      | .notFound =>
          journalEvent .orderUnknown (some intent.clientOrderId)
          pure none
      | .brokerError _ =>
          journalEvent .orderUnknown (some intent.clientOrderId)
          pure none
      | .otherError message => throw (.brokerRaised message)
  | .releasing intent => do
      liftQuarantine intent.clientOrderId
      pure none

def Call.wireId : Call → Option String
  | .onWire intent _ _ => some intent.clientOrderId
  | _ => none

/-- The order manager, the calls in progress, and the venue. -/
structure Session where
  oms : OrderManager
  calls : List Call
  /-- the id of every `broker.submit` call, oldest first -/
  submitted : List String
  /-- requests the venue has not acted on -/
  inFlight : List String
  /-- the id of every order the venue created -/
  venueOrders : List String

/-- One choice of the scheduler, the caller or the venue. -/
inductive Move where
  | submit (intent : OrderIntent) (decisionPrice : Option Dec)
  | resolve (clientOrderId : String)
  | advance (index : ℕ) (reply : Reply)
  | accept (clientOrderId : String)
  | lose (clientOrderId : String)

namespace Session

/-- Nothing submitted yet. -/
def start (supportsClientOrderId : Bool) (maxRetries : ℕ)
    (maxSlippagePips : Option Dec) : Session where
  oms := .new supportsClientOrderId maxRetries maxSlippagePips
  calls := []
  submitted := []
  inFlight := []
  venueOrders := []

variable (s : Session)

/-- Put `next` in the place of the call at `index`. -/
def replaceCall (index : ℕ) (next : Option Call) : List Call :=
  s.calls.take index ++ next.toList ++ s.calls.drop (index + 1)

/-- Advance the call at `index` by one piece. -/
def advance (index : ℕ) (reply : Reply) : Session :=
  match s.calls[index]? with
  | none => s
  | some call =>
      match (call.step reply).run s.oms with
      | .ok next om =>
          let sent := (next.bind Call.wireId).toList
          { s with
            oms := om
            calls := s.replaceCall index next
            submitted := s.submitted ++ sent
            inFlight := s.inFlight ++ sent }
      | .error _ om => { s with oms := om, calls := s.replaceCall index none }

def accept (c : String) : Session :=
  if c ∈ s.inFlight then
    { s with
      inFlight := s.inFlight.erase c
      venueOrders :=
        if s.oms.supportsClientOrderId ∧ c ∈ s.venueOrders then s.venueOrders
        else s.venueOrders ++ [c] }
  else s

def step : Move → Session
  | .submit intent decisionPrice =>
      { s with calls := s.calls ++ [.submit intent decisionPrice] }
  | .resolve c => { s with calls := s.calls ++ [.resolving c] }
  | .advance index reply => s.advance index reply
  | .accept c => s.accept c
  | .lose c => { s with inFlight := s.inFlight.erase c }

def run (s : Session) (moves : List Move) : Session := moves.foldl step s

def serialStep : Move → Session
  | .submit intent decisionPrice =>
      if s.calls = [] then s.step (.submit intent decisionPrice) else s
  | .resolve c => if s.calls = [] then s.step (.resolve c) else s
  | move => s.step move

def serialRun (moves : List Move) : Session :=
  moves.foldl serialStep s

theorem run_append (pre post : List Move) : s.run (pre ++ post) = (s.run pre).run post :=
  List.foldl_append

theorem run_induction {I : Session → Prop}
    (hstep : ∀ s move, I s → I (s.step move)) {s : Session} (hs : I s)
    (moves : List Move) : I (s.run moves) := by
  induction moves generalizing s with
  | nil => exact hs
  | cons move moves ih => exact ih (hstep s move hs)

theorem serialRun_induction {I : Session → Prop}
    (hstep : ∀ s move, I s → I (s.serialStep move)) {s : Session} (hs : I s)
    (moves : List Move) : I (s.serialRun moves) := by
  induction moves generalizing s with
  | nil => exact hs
  | cons move moves ih => exact ih (hstep s move hs)

end Session

end Sentinel

namespace Sentinel

/-- The order is past the states in which `submit` may write to the socket. -/
def OrderState.settled : OrderState → Bool
  | .pending | .sent => false
  | _ => true

theorem settled_of_mem_legal {old new : OrderState} (h : new ∈ legal old)
    (hold : old.settled) : new.settled := by
  cases old <;> cases new <;> simp_all [legal, OrderState.settled]

theorem sent_notMem_legal {old : OrderState} (h : old.settled) :
    .sent ∉ legal old := by
  cases old <;> simp_all [legal, OrderState.settled]

namespace OrderManager

/-- The order under `c` is UNKNOWN. -/
def IsUnknown (om : OrderManager) (c : String) : Prop :=
  ∃ o, om.order? c = some o ∧ o.state = .unknown

/-- The order under `c` is past the states that may be sent. -/
def IsSettled (om : OrderManager) (c : String) : Prop :=
  ∃ o, om.order? c = some o ∧ o.state.settled

theorem IsUnknown.isSettled {om : OrderManager} {c : String}
    (h : om.IsUnknown c) : om.IsSettled c := by
  obtain ⟨o, ho, hstate⟩ := h
  exact ⟨o, ho, by simp [hstate, OrderState.settled]⟩

/-- What a piece that works on order `c` of `instrument` may change. -/
structure Confined (c instrument : String) (om om' : OrderManager) : Prop where
  supports : om'.supportsClientOrderId = om.supportsClientOrderId
  maxRetries : om'.maxRetries = om.maxRetries
  others : ∀ c', c' ≠ c → om'.order? c' = om.order? c'
  intent : (om'.order? c).map Order.intent = (om.order? c).map Order.intent
  settled : om.IsSettled c → om'.IsSettled c
  quarantine : ∀ i ∈ om.quarantine, i ∈ om'.quarantine
  unknown : om'.IsUnknown c → om.IsUnknown c ∨ instrument ∈ om'.quarantine

namespace Confined

variable {c instrument : String}

theorem refl (om : OrderManager) : Confined c instrument om om where
  supports := rfl
  maxRetries := rfl
  others := fun _ _ => rfl
  intent := rfl
  settled := id
  quarantine := fun _ h => h
  unknown := Or.inl

theorem trans {om₁ om₂ om₃ : OrderManager}
    (h₁ : Confined c instrument om₁ om₂) (h₂ : Confined c instrument om₂ om₃) :
    Confined c instrument om₁ om₃ where
  supports := h₂.supports.trans h₁.supports
  maxRetries := h₂.maxRetries.trans h₁.maxRetries
  others := fun c' hc' => (h₂.others c' hc').trans (h₁.others c' hc')
  intent := h₂.intent.trans h₁.intent
  settled := fun h => h₂.settled (h₁.settled h)
  quarantine := fun i hi => h₂.quarantine i (h₁.quarantine i hi)
  unknown := by
    intro h
    rcases h₂.unknown h with hmid | hq
    · rcases h₁.unknown hmid with hold | hq
      · exact .inl hold
      · exact .inr (h₂.quarantine _ hq)
    · exact .inr hq

instance : Std.Refl (Confined c instrument) := ⟨refl⟩

instance : IsTrans OrderManager (Confined c instrument) := ⟨fun _ _ _ => trans⟩

variable {om om' : OrderManager}

theorem of_orders_eq (hs : om'.supportsClientOrderId = om.supportsClientOrderId)
    (hr : om'.maxRetries = om.maxRetries) (ho : om'.orders = om.orders)
    (hq : ∀ i ∈ om.quarantine, i ∈ om'.quarantine) :
    Confined c instrument om om' where
  supports := hs
  maxRetries := hr
  others := fun _ _ => by simp [order?, ho]
  intent := by simp [order?, ho]
  settled := fun h => by simpa [IsSettled, order?, ho] using h
  quarantine := hq
  unknown := fun h => .inl (by simpa [IsUnknown, order?, ho] using h)

theorem isSome_eq (h : Confined c instrument om om')
    (c' : String) : (om'.order? c').isSome = (om.order? c').isSome := by
  by_cases hc' : c' = c
  · subst hc'
    simpa using congrArg Option.isSome h.intent
  · rw [h.others c' hc']

theorem isSettled (h : Confined c instrument om om')
    {c' : String} (hset : om.IsSettled c') : om'.IsSettled c' := by
  by_cases hc' : c' = c
  · subst hc'
    exact h.settled hset
  · simpa [IsSettled, h.others c' hc'] using hset

end Confined

/-! ## The primitive writes -/

section Primitive

variable {c instrument : String}

theorem order?_adjust (om : OrderManager) (f : Order → Order) (c' : String) :
    { om with orders := om.orders.adjust c f }.order? c' =
      if c' = c then (om.order? c').map f else om.order? c' :=
  Dict.get?_adjust _ _ _ _

theorem confined_journalEvent (event : EventType) (c' : Option String) :
    Moves (Confined c instrument) (journalEvent event c') :=
  Moves.modify fun _ => Confined.of_orders_eq rfl rfl rfl fun _ h => h

theorem confined_modifyOrder {f : Order → Order}
    (hintent : ∀ o, (f o).intent = o.intent) (hstate : ∀ o, (f o).state = o.state) :
    Moves (Confined c instrument) (modifyOrder c f) :=
  Moves.modify fun om =>
    { supports := rfl
      maxRetries := rfl
      others := fun c' hc' => by rw [order?_adjust, if_neg hc']
      intent := by
        rw [order?_adjust, if_pos rfl, Option.map_map]
        exact congrArg (Option.map · _) (funext hintent)
      settled := by
        rintro ⟨o, ho, hset⟩
        exact ⟨f o, by rw [order?_adjust, if_pos rfl, ho]; rfl, by rw [hstate]; exact hset⟩
      quarantine := fun _ h => h
      unknown := by
        rintro ⟨o', ho', hunknown⟩
        rw [order?_adjust, if_pos rfl, Option.map_eq_some_iff] at ho'
        obtain ⟨o, ho, rfl⟩ := ho'
        exact .inl ⟨o, ho, by rw [← hstate]; exact hunknown⟩ }

theorem mem_addQuarantine (instrument : String) (om : OrderManager) (i : String) :
    i ∈ (finalState (addQuarantine instrument) om).quarantine ↔
      i ∈ om.quarantine ∨ i = instrument := by
  simp only [addQuarantine, finalState_modify]
  split
  · constructor
    · exact .inl
    · rintro (h | rfl)
      · exact h
      · assumption
  · simp

theorem confined_addQuarantine (i : String) :
    Moves (Confined c instrument) (addQuarantine i) :=
  fun om => Confined.of_orders_eq rfl rfl rfl fun j hj =>
    (mem_addQuarantine i om j).2 (.inl hj)

/-- The order manager after `_transition` has assigned a new state. -/
def withState (om : OrderManager) (c : String) (new : OrderState) : OrderManager :=
  { om with orders := om.orders.adjust c fun o => { o with state := new } }

theorem transition_cases (c : String) (new : OrderState) (om : OrderManager) :
    (om.order? c = none ∧ (transition c new).run om = .ok () om) ∨
    (∃ o, om.order? c = some o ∧ new = o.state ∧
      (transition c new).run om = .ok () om) ∨
    (∃ o, om.order? c = some o ∧ new ∈ legal o.state ∧
      (transition c new).run om = .ok () (om.withState c new)) ∨
    (∃ o, om.order? c = some o ∧ new ≠ o.state ∧ new ∉ legal o.state ∧
      (transition c new).run om =
        .error (.illegalTransition o.state new)
          (finalState (journalEvent .orderUnknown (some c)) om)) := by
  have hrun : (transition c new).run om =
      (match om.order? c with
        | none => pure ()
        | some order =>
            if new = order.state then pure ()
            else if new ∈ legal order.state then
              modifyOrder c fun o => { o with state := new }
            else do
              journalEvent .orderUnknown (some c)
              throw (.illegalTransition order.state new) : OmsM Unit).run om := rfl
  cases ho : om.order? c with
  | none =>
      refine .inl ⟨rfl, ?_⟩
      rw [hrun, ho]
      rfl
  | some o =>
      by_cases hsame : new = o.state
      · refine .inr (.inl ⟨o, rfl, hsame, ?_⟩)
        rw [hrun, ho]
        simp only [if_pos hsame]
        rfl
      · by_cases hlegal : new ∈ legal o.state
        · refine .inr (.inr (.inl ⟨o, rfl, hlegal, ?_⟩))
          rw [hrun, ho]
          simp only [if_neg hsame, if_pos hlegal]
          rfl
        · refine .inr (.inr (.inr ⟨o, rfl, hsame, hlegal, ?_⟩))
          rw [hrun, ho]
          simp only [if_neg hsame, if_neg hlegal]
          rfl

theorem order?_withState (om : OrderManager) (new : OrderState) (c' : String) :
    (om.withState c new).order? c' =
      if c' = c then (om.order? c').map fun o => { o with state := new }
      else om.order? c' :=
  order?_adjust om _ c'

theorem confined_withState {om : OrderManager} {new : OrderState} {o : Order}
    (ho : om.order? c = some o) (hlegal : new ∈ legal o.state)
    (hunknown : new = .unknown → instrument ∈ om.quarantine) :
    Confined c instrument om (om.withState c new) where
  supports := rfl
  maxRetries := rfl
  others := fun c' hc' => by rw [order?_withState, if_neg hc']
  intent := by rw [order?_withState, if_pos rfl, ho]; rfl
  settled := by
    rintro ⟨o', ho', hset⟩
    cases ho.symm.trans ho'
    refine ⟨{ o with state := new }, ?_, settled_of_mem_legal hlegal hset⟩
    rw [order?_withState, if_pos rfl, ho]
    rfl
  quarantine := fun _ h => h
  unknown := by
    rintro ⟨o', ho', hstate⟩
    rw [order?_withState, if_pos rfl, ho] at ho'
    cases ho'
    exact .inr (hunknown hstate)

theorem confined_transition {new : OrderState} (hnew : new ≠ .unknown) :
    Moves (Confined c instrument) (transition c new) := by
  intro om
  rcases transition_cases c new om with ⟨-, hrun⟩ | ⟨o, -, -, hrun⟩ |
      ⟨o, ho, hlegal, hrun⟩ | ⟨o, -, -, -, hrun⟩
  · simpa only [finalState, hrun] using Confined.refl om
  · simpa only [finalState, hrun] using Confined.refl om
  · simpa only [finalState, hrun] using
      confined_withState ho hlegal fun h => absurd h hnew
  · simpa only [finalState, hrun] using confined_journalEvent _ _ om

theorem confined_markUnknown :
    Moves (Confined c instrument) (markUnknown c instrument) := by
  intro om
  unfold markUnknown
  rw [finalState_bind]
  rcases transition_cases c .unknown om with ⟨-, hrun⟩ | ⟨o, -, -, hrun⟩ |
      ⟨o, ho, hlegal, hrun⟩ | ⟨o, -, -, -, hrun⟩
  · simpa only [hrun] using confined_addQuarantine instrument om
  · simpa only [hrun] using confined_addQuarantine instrument om
  · simp only [hrun]
    -- the two writes commute, and after the first the instrument is held
    have hquarantine := (mem_addQuarantine instrument om instrument).2 (.inr rfl)
    have hwithState : Confined c instrument (finalState (addQuarantine instrument) om)
        ((finalState (addQuarantine instrument) om).withState c .unknown) :=
      confined_withState ho hlegal fun _ => hquarantine
    exact (confined_addQuarantine instrument om).trans hwithState
  · simpa only [hrun] using confined_journalEvent _ _ om

end Primitive

/-! ## The pieces of a call -/

section Pieces

variable {c : String} {instrument : String} (intent : OrderIntent)

theorem confined_applyFill (decisionPrice : Option Dec) (replies : ApplyReplies) (fill : Fill) :
    Moves (Confined c instrument) (applyFill c intent decisionPrice replies fill) := by
  refine Moves.bind Moves.get fun om => ?_
  cases om.order? c with
  | none => exact Moves.pure _
  | some order =>
      refine Moves.ite (fun _ => Moves.pure _) fun _ => ?_
      refine Moves.bind (confined_modifyOrder (fun _ => rfl) fun _ => rfl) fun _ => ?_
      cases slippage intent decisionPrice replies fill with
      | error e => exact Moves.throw e
      | ok slip =>
          refine Moves.bind (confined_journalEvent _ _) fun _ => ?_
          refine Moves.ite (fun _ => ?_) fun _ => Moves.pure _
          refine Moves.bind (Moves.modify fun _ => ?_) fun _ => confined_journalEvent _ _
          exact Confined.of_orders_eq rfl rfl rfl fun _ h => h

theorem confined_reassertStop (replies : ApplyReplies) :
    Moves (Confined c instrument) (reassertStop c intent replies) := by
  refine Moves.bind (confined_modifyOrder (fun _ => rfl) fun _ => rfl) fun _ => ?_
  refine Moves.bind (confined_journalEvent _ _) fun _ => ?_
  refine Moves.ite_bind (fun _ => confined_journalEvent _ _) fun _ => ?_
  refine Moves.bind (confined_modifyOrder (fun _ => rfl) fun _ => rfl) fun _ => ?_
  refine Moves.ite (fun _ => ?_) fun _ => Moves.pure _
  exact Moves.bind (confined_addQuarantine _) fun _ => confined_journalEvent _ _

theorem appliedTarget_ne_unknown (state : OrderState) :
    appliedTarget state ≠ .unknown := by
  cases state <;> simp [appliedTarget]

theorem confined_finishResult (result : SubmitResult)
    (replies : ApplyReplies) :
    Moves (Confined c intent.instrument) (finishResult c intent result replies) := by
  refine Moves.bind Moves.get fun om => ?_
  refine Moves.ite (fun _ => ?_) fun _ => ?_
  · exact Moves.bind confined_markUnknown fun _ => confined_journalEvent _ _
  refine Moves.ite_bind (fun _ => confined_reassertStop _ _) fun _ => ?_
  refine Moves.bind (confined_transition (appliedTarget_ne_unknown _)) fun _ => ?_
  exact Moves.ite (fun _ => confined_journalEvent _ _) fun _ => Moves.pure _

theorem confined_applyResult (result : SubmitResult)
    (decisionPrice : Option Dec) (replies : ApplyReplies) :
    Moves (Confined c intent.instrument)
      (applyResult c intent result decisionPrice replies) := by
  refine Moves.bind (confined_modifyOrder (fun _ => rfl) fun _ => rfl) fun _ => ?_
  refine Moves.ite (fun _ => ?_) fun _ => Moves.ite (fun _ => ?_) fun _ => ?_
  · refine Moves.bind (confined_transition (by simp)) fun _ => ?_
    exact Moves.bind (confined_modifyOrder (fun _ => rfl) fun _ => rfl)
      fun _ => confined_journalEvent _ _
  · exact Moves.bind confined_markUnknown fun _ => confined_journalEvent _ _
  · exact Moves.bind (Moves.forM (fun _ => confined_applyFill _ _ _ _) _)
      fun _ => confined_finishResult _ _ _

theorem confined_beginAttempt (attempt : ℕ) :
    Moves (Confined c instrument) (beginAttempt c attempt) := by
  refine Moves.bind (confined_modifyOrder (fun _ => rfl) fun _ => rfl) fun _ => ?_
  exact Moves.bind (confined_transition (by simp)) fun _ => confined_journalEvent _ _

theorem confined_exhausted : Moves (Confined c instrument) (exhausted c instrument) :=
  Moves.bind confined_markUnknown fun _ => confined_journalEvent _ _

theorem confined_rejectPermanently (message : String) :
    Moves (Confined c instrument) (rejectPermanently c message) := by
  refine Moves.bind (confined_transition (by simp)) fun _ => ?_
  exact Moves.bind (confined_modifyOrder (fun _ => rfl) fun _ => rfl)
    fun _ => confined_journalEvent _ _

theorem confined_quarantineUnknown (message : String) :
    Moves (Confined c instrument) (quarantineUnknown c instrument message) := by
  refine Moves.bind confined_markUnknown fun _ => ?_
  exact Moves.bind (confined_modifyOrder (fun _ => rfl) fun _ => rfl)
    fun _ => confined_journalEvent _ _

theorem confined_noteError (message : String) :
    Moves (Confined c instrument) (noteError c message) :=
  confined_modifyOrder (fun _ => rfl) fun _ => rfl

theorem beginAttempt_of_isSettled {om : OrderManager} (h : om.IsSettled c)
    (attempt : ℕ) :
    ∃ e om', (beginAttempt c attempt).run om = .error e om' := by
  obtain ⟨o, ho, hset⟩ := h
  let noted := { om with orders := om.orders.adjust c fun o => { o with attempts := attempt } }
  have hnoted : noted.order? c = some { o with attempts := attempt } := by
    rw [order?_adjust, if_pos rfl, ho]
    rfl
  have hne : OrderState.sent ≠ o.state := by
    intro hsent
    rw [← hsent] at hset
    cases hset
  have hrun : (beginAttempt c attempt).run om =
      (transition c .sent >>= fun _ => journalEvent .orderSent (some c)).run noted := rfl
  rcases transition_cases c .sent noted with ⟨hnone, -⟩ | ⟨o', ho', hsame, -⟩ |
      ⟨o', ho', hlegal, -⟩ | ⟨o', -, -, -, hthrow⟩
  · cases hnone.symm.trans hnoted
  · cases ho'.symm.trans hnoted
    exact absurd hsame hne
  · cases ho'.symm.trans hnoted
    exact absurd hlegal (sent_notMem_legal hset)
  · exact ⟨_, _, by rw [hrun, run_bind, hthrow]⟩

/-! ### The two pieces outside the frame -/

def registered (om : OrderManager) (intent : OrderIntent) : OrderManager :=
  { om with
    orders := om.orders.set intent.clientOrderId { intent }
    journal := om.journal ++ [⟨.orderIntent, some intent.clientOrderId⟩] }

theorem register_cases (om : OrderManager) :
    (intent.instrument ∈ om.quarantine ∧
      (register intent).run om = .error (.quarantined intent.instrument) om) ∨
    (intent.instrument ∉ om.quarantine ∧
      (om.order? intent.clientOrderId).isSome ∧
      (register intent).run om = .ok .duplicate
        (finalState (journalEvent .orderDuplicateBlocked (some intent.clientOrderId)) om)) ∨
    (intent.instrument ∉ om.quarantine ∧ om.order? intent.clientOrderId = none ∧
      (register intent).run om = .ok .fresh (om.registered intent)) := by
  have hrun : (register intent).run om =
      (if intent.instrument ∈ om.quarantine then
        throw (.quarantined intent.instrument)
      else if (om.order? intent.clientOrderId).isSome then do
        journalEvent .orderDuplicateBlocked (some intent.clientOrderId)
        pure .duplicate
      else do
        modify fun om =>
          { om with orders := om.orders.set intent.clientOrderId { intent } }
        journalEvent .orderIntent (some intent.clientOrderId)
        pure .fresh : OmsM Admission).run om := rfl
  by_cases hq : intent.instrument ∈ om.quarantine
  · refine .inl ⟨hq, ?_⟩
    rw [hrun, if_pos hq]
    rfl
  · by_cases hdup : (om.order? intent.clientOrderId).isSome
    · refine .inr (.inl ⟨hq, hdup, ?_⟩)
      rw [hrun, if_neg hq, if_pos hdup]
      rfl
    · refine .inr (.inr ⟨hq, by simpa using hdup, ?_⟩)
      rw [hrun, if_neg hq, if_neg hdup]
      rfl

theorem order?_registered (om : OrderManager) (intent : OrderIntent) (c' : String) :
    (om.registered intent).order? c' =
      if c' = intent.clientOrderId then some { intent } else om.order? c' := by
  by_cases hc' : c' = intent.clientOrderId
  · rw [if_pos hc', hc']
    exact Dict.get?_set_self _ _ _
  · rw [if_neg hc']
    exact Dict.get?_set_of_ne _ hc' _

theorem liftQuarantine_cases (c : String) (om : OrderManager) :
    ∃ om', (liftQuarantine c).run om = .ok () om' ∧
      om'.supportsClientOrderId = om.supportsClientOrderId ∧
      om'.maxRetries = om.maxRetries ∧ om'.orders = om.orders ∧
      (om'.quarantine = om.quarantine ∨
        ∃ o, om.order? c = some o ∧ o.state.terminal ∧
          om'.quarantine = om.quarantine.filter fun i => i ≠ o.intent.instrument) := by
  have hrun : (liftQuarantine c).run om =
      (match om.order? c with
        | none => pure ()
        | some order => do
            if order.state.terminal then discardQuarantine order.intent.instrument
            journalEvent .reconcile (some c) : OmsM Unit).run om := rfl
  cases ho : om.order? c with
  | none =>
      rw [ho] at hrun
      exact ⟨om, hrun, rfl, rfl, rfl, .inl rfl⟩
  | some o =>
      rw [ho] at hrun
      by_cases hterm : o.state.terminal
      · simp only [hterm] at hrun
        exact ⟨_, hrun, rfl, rfl, rfl, .inr ⟨o, rfl, hterm, rfl⟩⟩
      · simp only [hterm] at hrun
        exact ⟨_, hrun, rfl, rfl, rfl, .inl rfl⟩

end Pieces

end OrderManager

/-! ## The next piece of a call -/

open OrderManager

def Call.intent? : Call → Option OrderIntent
  | .attempting i _ _ | .onWire i _ _ | .settling i _ _ _ => some i
  | .givingUp i | .querying i | .settlingQuery i _ | .releasing i => some i
  | .submit _ _ | .resolving _ => none

/-- How many attempts for the order `c` a call in the retry loop has begun. -/
def Call.attempts? (c : String) : Call → Option ℕ
  | .attempting i _ k | .onWire i _ k | .settling i _ k _ =>
      if i.clientOrderId = c then some k else none
  | _ => none

/-- `next` goes on with the order of `call` without writing to the socket. -/
def Call.Continues (call : Call) (next : Option Call) : Prop :=
  ∀ n, next = some n →
    n.wireId = none ∧ (n.intent? = none ∨ n.intent? = call.intent?) ∧
      ∀ c, n.attempts? c = none ∨ n.attempts? c = call.attempts? c

inductive Call.Effect (om : OrderManager) : Call → Option Call → OrderManager → Prop
  /-- a new order on an instrument that is not quarantined -/
  | registers (intent : OrderIntent) (decisionPrice : Option Dec)
      (hquarantine : intent.instrument ∉ om.quarantine)
      (hnew : om.order? intent.clientOrderId = none) :
      Effect om (.submit intent decisionPrice)
        (some (.attempting intent decisionPrice 0)) (om.registered intent)
  /-- the only piece that writes to the socket -/
  | sends (intent : OrderIntent) (decisionPrice : Option Dec) (k : ℕ)
      (hk : k ≤ om.maxRetries) (hopen : ¬om.IsSettled intent.clientOrderId)
      {om' : OrderManager}
      (hframe : Confined intent.clientOrderId intent.instrument om om') :
      Effect om (.attempting intent decisionPrice k)
        (some (.onWire intent decisionPrice (k + 1))) om'
  | works {call : Call} (intent : OrderIntent) (hcall : call.intent? = some intent)
      {next : Option Call} (hnext : call.Continues next) {om' : OrderManager}
      (hframe : Confined intent.clientOrderId intent.instrument om om') :
      Effect om call next om'
  | declines {call : Call} {om' : OrderManager} (horders : om'.orders = om.orders)
      (hsupports : om'.supportsClientOrderId = om.supportsClientOrderId)
      (hretries : om'.maxRetries = om.maxRetries)
      (hquarantine : om'.quarantine = om.quarantine) :
      Effect om call none om'
  | queries {c : String} {order : Order} (horder : om.order? c = some order)
      (hunknown : order.state = .unknown) :
      Effect om (.resolving c) (some (.querying order.intent)) om
  /-- a terminal order gives its quarantine up -/
  | lifts (intent : OrderIntent) {order : Order}
      (horder : om.order? intent.clientOrderId = some order)
      (hterminal : order.state.terminal) {om' : OrderManager}
      (horders : om'.orders = om.orders)
      (hsupports : om'.supportsClientOrderId = om.supportsClientOrderId)
      (hretries : om'.maxRetries = om.maxRetries)
      (hquarantine : om'.quarantine =
        om.quarantine.filter fun i => i ≠ order.intent.instrument) :
      Effect om (.releasing intent) none om'

/-- The call after its next piece; `none` once it has returned or raised. -/
def Call.after (reply : Reply) (call : Call) (om : OrderManager) : Option Call :=
  match (call.step reply).run om with
  | .ok next _ => next
  | .error _ _ => none

namespace Call

variable {om : OrderManager} {call : Call}

theorem continues_none : call.Continues none := by
  intro n hn
  cases hn

theorem effect_of_confined {reply : Reply} (intent : OrderIntent)
    (hcall : call.intent? = some intent) {p : OmsM Unit} {next : Option Call}
    (hstep : call.step reply = (p >>= fun _ => pure next))
    (hnext : call.Continues next)
    (hp : Moves (Confined intent.clientOrderId intent.instrument) p) :
    Effect om call (call.after reply om) (finalState (call.step reply) om) := by
  have hframe := hp om
  simp only [after, finalState, hstep, run_bind] at hframe ⊢
  cases hrun : p.run om with
  | ok u om' =>
      rw [hrun] at hframe
      exact .works intent hcall hnext hframe
  | error e om' =>
      rw [hrun] at hframe
      exact .works intent hcall continues_none hframe

variable (reply : Reply) (intent : OrderIntent) (decisionPrice : Option Dec)

theorem effect_submit (om : OrderManager) :
    Effect om (.submit intent decisionPrice)
      ((Call.submit intent decisionPrice).after reply om)
      (finalState ((Call.submit intent decisionPrice).step reply) om) := by
  rcases register_cases intent om with ⟨-, hrun⟩ | ⟨-, -, hrun⟩ | ⟨hq, hnew, hrun⟩
  · simp only [after, finalState, Call.step, run_bind, hrun]
    exact .declines rfl rfl rfl rfl
  · simp only [after, finalState, Call.step, run_bind, hrun]
    exact .declines rfl rfl rfl rfl
  · simp only [after, finalState, Call.step, run_bind, hrun]
    exact .registers intent decisionPrice hq hnew

theorem effect_attempting (k : ℕ) (om : OrderManager) :
    Effect om (.attempting intent decisionPrice k)
      ((Call.attempting intent decisionPrice k).after reply om)
      (finalState ((Call.attempting intent decisionPrice k).step reply) om) := by
  have hstep : ((Call.attempting intent decisionPrice k).step reply).run om =
      (if k ≤ om.maxRetries then do
        beginAttempt intent.clientOrderId (k + 1)
        pure (some (.onWire intent decisionPrice (k + 1)))
      else do
        exhausted intent.clientOrderId intent.instrument
        pure none : OmsM (Option Call)).run om := rfl
  by_cases hk : k ≤ om.maxRetries
  · rw [if_pos hk, run_bind] at hstep
    have hframe : Confined intent.clientOrderId intent.instrument om
        (finalState (beginAttempt intent.clientOrderId (k + 1)) om) :=
      confined_beginAttempt (k + 1) om
    unfold finalState at hframe
    simp only [after, finalState, hstep]
    cases hrun : (beginAttempt intent.clientOrderId (k + 1)).run om with
    | error e om' =>
        rw [hrun] at hframe
        exact .works intent rfl continues_none hframe
    | ok u om' =>
        rw [hrun] at hframe
        refine .sends intent decisionPrice k hk ?_ hframe
        intro hsettled
        obtain ⟨e, om'', hthrow⟩ := beginAttempt_of_isSettled hsettled (k + 1)
        rw [hrun] at hthrow
        cases hthrow
  · rw [if_neg hk, run_bind] at hstep
    have hframe : Confined intent.clientOrderId intent.instrument om
        (finalState (exhausted intent.clientOrderId intent.instrument) om) :=
      confined_exhausted om
    unfold finalState at hframe
    simp only [after, finalState, hstep]
    cases hrun : (exhausted intent.clientOrderId intent.instrument).run om with
    | error e om' =>
        rw [hrun] at hframe
        exact .works intent rfl continues_none hframe
    | ok u om' =>
        rw [hrun] at hframe
        exact .works intent rfl continues_none hframe

theorem effect_settling (k : ℕ) (outcome : SubmitOutcome)
    (om : OrderManager) :
    Effect om (.settling intent decisionPrice k outcome)
      ((Call.settling intent decisionPrice k outcome).after reply om)
      (finalState ((Call.settling intent decisionPrice k outcome).step reply) om) := by
  cases outcome with
  | returned result =>
      exact effect_of_confined intent rfl rfl continues_none
        (confined_applyResult _ _ _ _)
  | unknownOutcome message =>
      refine effect_of_confined intent rfl rfl ?_ (confined_quarantineUnknown message)
      rintro n ⟨⟩
      exact ⟨rfl, .inl rfl, fun _ => .inl rfl⟩
  | transient message =>
      refine effect_of_confined intent rfl rfl ?_ (confined_noteError message)
      rintro n ⟨⟩
      exact ⟨rfl, .inr rfl, fun _ => .inr rfl⟩
  | permanent message =>
      exact effect_of_confined intent rfl rfl continues_none
        (confined_rejectPermanently message)
  | brokerError message =>
      refine effect_of_confined intent rfl rfl ?_ (confined_noteError message)
      rintro n ⟨⟩
      exact ⟨rfl, .inr rfl, fun _ => .inl rfl⟩
  | otherError message => exact .declines rfl rfl rfl rfl

theorem effect_resolving (c : String) (om : OrderManager) :
    Effect om (.resolving c) ((Call.resolving c).after reply om)
      (finalState ((Call.resolving c).step reply) om) := by
  have hstep : ((Call.resolving c).step reply).run om =
      (match (om.order? c).filter fun o => o.state = .unknown with
        | none => pure none
        | some order => pure (some (.querying order.intent)) :
          OmsM (Option Call)).run om := rfl
  cases hfound : (om.order? c).filter fun o => o.state = .unknown with
  | none =>
      rw [hfound] at hstep
      simp only [after, finalState, hstep]
      exact .declines rfl rfl rfl rfl
  | some order =>
      rw [hfound] at hstep
      simp only [after, finalState, hstep]
      rw [Option.filter_eq_some_iff] at hfound
      exact .queries hfound.1 (of_decide_eq_true hfound.2)

theorem effect_settlingQuery (outcome : QueryOutcome) (om : OrderManager) :
    Effect om (.settlingQuery intent outcome)
      ((Call.settlingQuery intent outcome).after reply om)
      (finalState ((Call.settlingQuery intent outcome).step reply) om) := by
  cases outcome with
  | returned result =>
      refine effect_of_confined intent rfl rfl ?_ (confined_applyResult _ _ _ _)
      rintro n ⟨⟩
      exact ⟨rfl, .inr rfl, fun _ => .inl rfl⟩
  | notFound => exact .declines rfl rfl rfl rfl
  | brokerError message => exact .declines rfl rfl rfl rfl
  | otherError message => exact .declines rfl rfl rfl rfl

theorem effect_releasing (om : OrderManager) :
    Effect om (.releasing intent) ((Call.releasing intent).after reply om)
      (finalState ((Call.releasing intent).step reply) om) := by
  obtain ⟨om', hrun, hsupports, hretries, horders, hquarantine⟩ :=
    liftQuarantine_cases intent.clientOrderId om
  simp only [after, finalState, Call.step, run_bind, hrun]
  rcases hquarantine with hsame | ⟨order, horder, hterminal, hlifted⟩
  · exact .declines horders hsupports hretries hsame
  · exact .lifts intent horder hterminal horders hsupports hretries hlifted

theorem step_effect (call : Call) (om : OrderManager) :
    Effect om call (call.after reply om) (finalState (call.step reply) om) := by
  cases call with
  | submit intent decisionPrice => exact effect_submit reply intent decisionPrice om
  | attempting intent decisionPrice k =>
      exact effect_attempting reply intent decisionPrice k om
  | onWire intent decisionPrice k =>
      refine .works intent rfl ?_ (Confined.refl om)
      rintro n ⟨⟩
      exact ⟨rfl, .inr rfl, fun _ => .inr rfl⟩
  | settling intent decisionPrice k outcome =>
      exact effect_settling reply intent decisionPrice k outcome om
  | givingUp intent =>
      exact effect_of_confined intent rfl rfl continues_none confined_exhausted
  | resolving c => exact effect_resolving reply c om
  | querying intent =>
      refine .works intent rfl ?_ (Confined.refl om)
      rintro n ⟨⟩
      exact ⟨rfl, .inr rfl, fun _ => .inl rfl⟩
  | settlingQuery intent outcome => exact effect_settlingQuery reply intent outcome om
  | releasing intent => exact effect_releasing reply intent om

end Call

namespace Session

def sent (next : Option Call) : List String := (next.bind Call.wireId).toList

theorem advance_eq {s : Session} {index : ℕ} {call : Call}
    (hcall : s.calls[index]? = some call) (reply : Reply) :
    s.advance index reply =
      { s with
        oms := finalState (call.step reply) s.oms
        calls := s.replaceCall index (call.after reply s.oms)
        submitted := s.submitted ++ sent (call.after reply s.oms)
        inFlight := s.inFlight ++ sent (call.after reply s.oms) } := by
  simp only [advance, hcall, Call.after, finalState]
  cases (call.step reply).run s.oms with
  | ok next om => rfl
  | error e om => simp [sent]

end Session

end Sentinel
