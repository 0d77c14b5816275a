import Mathlib.Logic.Relation
import Sentinel.Execution.OwnOrder
import Sentinel.Execution.PendingRisk

/-!
# The history of an order

Calls on one order may be in progress side by side.  Whatever their order, an
order is never dropped, keeps its intent, moves by legal transitions only, and
its fills are added to, each once.
-/

namespace Sentinel

/-- A legal transition. -/
def OrderState.Leads (old new : OrderState) : Prop := new ∈ legal old

/-- No path leaves a terminal state. -/
theorem OrderState.eq_of_terminal {old new : OrderState}
    (h : Relation.ReflTransGen Leads old new) (hold : old.terminal) : new = old := by
  induction h with
  | refl => rfl
  | tail _ hlegal ih =>
      rw [ih] at hlegal
      cases old <;> simp_all [Leads, legal, terminal]

/-- What may have become of an order. -/
structure Order.Later (o o' : Order) : Prop where
  intent : o'.intent = o.intent
  path : Relation.ReflTransGen OrderState.Leads o.state o'.state
  fills : o.fills <+: o'.fills
  once : (o.fills.map Fill.reported).Nodup → (o'.fills.map Fill.reported).Nodup

namespace Order.Later

theorem trans {o o' o'' : Order} (h : o.Later o') (h' : o'.Later o'') : o.Later o'' where
  intent := h'.intent.trans h.intent
  path := h.path.trans h'.path
  fills := h.fills.trans h'.fills
  once := fun hnodup => h'.once (h.once hnodup)

theorem of_fields {o o' : Order} (hintent : o'.intent = o.intent) (hstate : o'.state = o.state)
    (hfills : o'.fills = o.fills) : o.Later o' where
  intent := hintent
  path := by rw [hstate]
  fills := by rw [hfills]
  once := by rw [hfills]; exact id

theorem withFill {o : Order} {fill : Fill} (hnew : ¬ OrderManager.alreadyApplied o fill) :
    o.Later { o with fills := o.fills ++ [fill] } where
  intent := rfl
  path := .refl
  fills := List.prefix_append _ _
  once := by
    intro hnodup
    rw [List.map_append, List.map_singleton, ← List.concat_eq_append]
    exact hnodup.concat fun h => hnew ((OrderManager.alreadyApplied_iff o fill).2 h)

end Order.Later

namespace OrderManager

/-- Every order is still held, and an order that is new was registered under
its own id. -/
structure Follows (om om' : OrderManager) : Prop where
  kept : ∀ c o, om.order? c = some o → ∃ o', om'.order? c = some o' ∧ o.Later o'
  started : ∀ c o', om.order? c = none → om'.order? c = some o' →
    ∃ intent, intent.clientOrderId = c ∧ Order.Later { intent } o'

namespace Follows

theorem of_orders_eq {om om' : OrderManager} (h : om'.orders = om.orders) :
    om.Follows om' where
  kept := fun c o ho => ⟨o, by simpa only [order?, h] using ho, .of_fields rfl rfl rfl⟩
  started := by
    intro c o' hnone ho'
    rw [order?, h] at ho'
    cases hnone.symm.trans ho'

theorem trans {om₁ om₂ om₃ : OrderManager} (h : om₁.Follows om₂) (h' : om₂.Follows om₃) :
    om₁.Follows om₃ where
  kept := by
    intro c o ho
    obtain ⟨o', ho', hlater⟩ := h.kept c o ho
    obtain ⟨o'', ho'', hlater'⟩ := h'.kept c o' ho'
    exact ⟨o'', ho'', hlater.trans hlater'⟩
  started := by
    intro c o'' hnone ho''
    cases hmid : om₂.order? c with
    | none => exact h'.started c o'' hmid ho''
    | some o' =>
        obtain ⟨intent, hid, hlater⟩ := h.started c o' hnone hmid
        obtain ⟨o₃, ho₃, hlater'⟩ := h'.kept c o' hmid
        cases ho₃.symm.trans ho''
        exact ⟨intent, hid, hlater.trans hlater'⟩

instance : Std.Refl Follows := ⟨fun _ => of_orders_eq rfl⟩

instance : IsTrans OrderManager Follows := ⟨fun _ _ _ => trans⟩

/-- A write to one order. -/
theorem adjust (om : OrderManager) {c : String} {f : Order → Order}
    (hf : ∀ o, om.order? c = some o → o.Later (f o)) :
    om.Follows { om with orders := om.orders.adjust c f } where
  kept := by
    intro c' o ho
    rw [order?_adjust]
    by_cases hc' : c' = c
    · rw [if_pos hc', ho]
      exact ⟨f o, rfl, hf o (hc' ▸ ho)⟩
    · exact ⟨o, by rwa [if_neg hc'], .of_fields rfl rfl rfl⟩
  started := by
    intro c' o' hnone ho'
    rw [order?_adjust] at ho'
    by_cases hc' : c' = c
    · rw [if_pos hc', hnone] at ho'
      cases ho'
    · rw [if_neg hc', hnone] at ho'
      cases ho'

theorem registered (om : OrderManager) {intent : OrderIntent}
    (hnew : om.order? intent.clientOrderId = none) : om.Follows (om.registered intent) where
  kept := by
    intro c o ho
    have hne : c ≠ intent.clientOrderId := by
      rintro rfl
      cases hnew.symm.trans ho
    exact ⟨o, by rw [order?_registered, if_neg hne, ho], .of_fields rfl rfl rfl⟩
  started := by
    intro c o' hnone ho'
    rw [order?_registered] at ho'
    by_cases hc : c = intent.clientOrderId
    · rw [if_pos hc] at ho'
      cases ho'
      exact ⟨intent, hc.symm, .of_fields rfl rfl rfl⟩
    · rw [if_neg hc, hnone] at ho'
      cases ho'

/-! ## The pieces of a call -/

variable {c : String} {intent : OrderIntent}

theorem journalEvent (event : EventType) (c' : Option String) :
    Moves Follows (journalEvent event c') :=
  Moves.modify fun _ => of_orders_eq rfl

theorem modifyOrder {f : Order → Order} (hf : ∀ o : Order, o.Later (f o)) :
    Moves Follows (modifyOrder c f) :=
  Moves.modify fun om => adjust om fun o _ => hf o

theorem addQuarantine (instrument : String) : Moves Follows (addQuarantine instrument) :=
  Moves.modify fun _ => of_orders_eq rfl

theorem transition (new : OrderState) : Moves Follows (transition c new) := by
  intro om
  rcases transition_cases c new om with ⟨-, hrun⟩ | ⟨o, -, -, hrun⟩ |
      ⟨o, ho, hlegal, hrun⟩ | ⟨o, -, -, -, hrun⟩
  · simpa only [finalState, hrun] using of_orders_eq rfl
  · simpa only [finalState, hrun] using of_orders_eq rfl
  · simp only [finalState, hrun]
    refine adjust om fun o' ho' => ?_
    cases ho.symm.trans ho'
    exact ⟨rfl, .single hlegal, List.prefix_rfl, id⟩
  · simpa only [finalState, hrun] using journalEvent _ _ om

theorem markUnknown (instrument : String) : Moves Follows (markUnknown c instrument) :=
  Moves.bind (transition _) fun _ => addQuarantine _

theorem applyFill (decisionPrice : Option Dec) (replies : ApplyReplies) (fill : Fill) :
    Moves Follows (applyFill c intent decisionPrice replies fill) := by
  refine Moves.bind_get fun om => ?_
  cases ho : om.order? c with
  | none => exact of_orders_eq rfl
  | some order =>
      by_cases hknown : alreadyApplied order fill
      · simp only [if_pos hknown]
        exact of_orders_eq rfl
      · simp only [if_neg hknown, finalState_bind]
        -- the order that is written to is the one that was read
        have hfirst : om.Follows { om with
            orders := om.orders.adjust c fun o => { o with fills := o.fills ++ [fill] } } := by
          refine adjust om fun o ho' => ?_
          cases ho.symm.trans ho'
          exact .withFill hknown
        refine hfirst.trans ?_
        cases slippage intent decisionPrice replies fill with
        | error e => exact of_orders_eq rfl
        | ok slip =>
            refine Moves.bind (journalEvent _ _) (fun _ => ?_) _
            refine Moves.ite (fun _ => ?_) fun _ => Moves.pure _
            exact Moves.bind (Moves.modify fun _ => of_orders_eq rfl) fun _ => journalEvent _ _

theorem reassertStop (replies : ApplyReplies) :
    Moves Follows (reassertStop c intent replies) := by
  refine Moves.bind (modifyOrder fun _ => .of_fields rfl rfl rfl) fun _ => ?_
  refine Moves.bind (journalEvent _ _) fun _ => ?_
  refine Moves.ite_bind (fun _ => journalEvent _ _) fun _ => ?_
  refine Moves.bind (modifyOrder fun _ => .of_fields rfl rfl rfl) fun _ => ?_
  refine Moves.ite (fun _ => ?_) fun _ => Moves.pure _
  exact Moves.bind (addQuarantine _) fun _ => journalEvent _ _

theorem finishResult (result : SubmitResult) (replies : ApplyReplies) :
    Moves Follows (finishResult c intent result replies) := by
  refine Moves.bind Moves.get fun om => ?_
  refine Moves.ite (fun _ => ?_) fun _ => ?_
  · exact Moves.bind (markUnknown _) fun _ => journalEvent _ _
  refine Moves.ite_bind (fun _ => reassertStop _) fun _ => ?_
  refine Moves.bind (transition _) fun _ => ?_
  exact Moves.ite (fun _ => journalEvent _ _) fun _ => Moves.pure _

theorem applyResult (result : SubmitResult) (decisionPrice : Option Dec)
    (replies : ApplyReplies) :
    Moves Follows (applyResult c intent result decisionPrice replies) := by
  refine Moves.bind (modifyOrder fun _ => .of_fields rfl rfl rfl) fun _ => ?_
  refine Moves.ite (fun _ => ?_) fun _ => Moves.ite (fun _ => ?_) fun _ => ?_
  · refine Moves.bind (transition _) fun _ => ?_
    exact Moves.bind (modifyOrder fun _ => .of_fields rfl rfl rfl) fun _ => journalEvent _ _
  · exact Moves.bind (markUnknown _) fun _ => journalEvent _ _
  · exact Moves.bind (Moves.forM (fun _ => applyFill _ _ _) _) fun _ => finishResult _ _

theorem exhausted (instrument : String) : Moves Follows (exhausted c instrument) :=
  Moves.bind (markUnknown _) fun _ => journalEvent _ _

theorem noteError (message : String) : Moves Follows (noteError c message) :=
  modifyOrder fun _ => .of_fields rfl rfl rfl

/-- Whatever a piece does, the orders follow. -/
theorem callStep (call : Call) (reply : Reply) : Moves Follows (call.step reply) := by
  cases call with
  | submit intent decisionPrice =>
      intro om
      rcases register_cases intent om with ⟨-, hrun⟩ | ⟨-, -, hrun⟩ | ⟨-, hnew, hrun⟩
      · simp only [finalState, Call.step, run_bind, hrun]
        exact of_orders_eq rfl
      · simp only [finalState, Call.step, run_bind, hrun]
        exact of_orders_eq rfl
      · simp only [finalState, Call.step, run_bind, hrun]
        exact registered om hnew
  | attempting intent decisionPrice attempt =>
      refine Moves.bind Moves.get fun om => Moves.ite (fun _ => ?_) fun _ => ?_
      · refine Moves.bind ?_ fun _ => Moves.pure _
        refine Moves.bind (modifyOrder fun _ => .of_fields rfl rfl rfl) fun _ => ?_
        exact Moves.bind (transition _) fun _ => journalEvent _ _
      · exact Moves.bind (exhausted _) fun _ => Moves.pure _
  | onWire intent decisionPrice attempt => exact Moves.pure _
  | settling intent decisionPrice attempt outcome =>
      cases outcome with
      | returned result => exact Moves.bind (applyResult _ _ _) fun _ => Moves.pure _
      | unknownOutcome message =>
          refine Moves.bind (Moves.bind (markUnknown _) fun _ => ?_) fun _ => Moves.pure _
          exact Moves.bind (modifyOrder fun _ => .of_fields rfl rfl rfl) fun _ => journalEvent _ _
      | transient message => exact Moves.bind (noteError _) fun _ => Moves.pure _
      | permanent message =>
          refine Moves.bind (Moves.bind (transition _) fun _ => ?_) fun _ => Moves.pure _
          exact Moves.bind (modifyOrder fun _ => .of_fields rfl rfl rfl) fun _ => journalEvent _ _
      | brokerError message => exact Moves.bind (noteError _) fun _ => Moves.pure _
      | otherError message => exact Moves.throw _
  | givingUp intent => exact Moves.bind (exhausted _) fun _ => Moves.pure _
  | resolving c =>
      refine Moves.bind (Moves.bind Moves.get fun om => Moves.pure _) fun found => ?_
      cases found with
      | none => exact Moves.pure _
      | some order => exact Moves.pure _
  | querying intent => exact Moves.pure _
  | settlingQuery intent outcome =>
      cases outcome with
      | returned result => exact Moves.bind (applyResult _ _ _) fun _ => Moves.pure _
      | notFound => exact Moves.bind (journalEvent _ _) fun _ => Moves.pure _
      | brokerError message => exact Moves.bind (journalEvent _ _) fun _ => Moves.pure _
      | otherError message => exact Moves.throw _
  | releasing intent =>
      refine Moves.bind (fun om => ?_) fun _ => Moves.pure _
      obtain ⟨om', hrun, -, -, horders, -⟩ := liftQuarantine_cases intent.clientOrderId om
      simpa only [finalState, hrun] using of_orders_eq horders

end Follows

end OrderManager

/-! ## Runs -/

namespace Session

theorem follows_step (s : Session) (move : Move) : s.oms.Follows (s.step move).oms := by
  cases move with
  | submit intent decisionPrice => exact .of_orders_eq rfl
  | resolve c => exact .of_orders_eq rfl
  | advance index reply =>
      cases hcall : s.calls[index]? with
      | none => simpa only [Session.step, Session.advance, hcall] using .of_orders_eq rfl
      | some call =>
          simp only [Session.step, advance_eq hcall]
          exact .callStep call reply s.oms
  | accept c =>
      simp only [Session.step, Session.accept]
      split <;> exact .of_orders_eq rfl
  | lose c => exact .of_orders_eq rfl

/-- A step of the calls and the venue, or a quarantine lifted by hand. -/
inductive ManagedMove where
  | move (move : Move)
  | release (instrument : String)

def managed (s : Session) : ManagedMove → Session
  | .move move => s.step move
  | .release instrument => { s with oms := finalState (OrderManager.releaseQuarantine instrument) s.oms }

theorem follows_managed (s : Session) (move : ManagedMove) :
    s.oms.Follows (s.managed move).oms := by
  cases move with
  | move move => exact follows_step s move
  | release instrument => exact .of_orders_eq (OrderManager.orders_releaseQuarantine instrument s.oms)

theorem follows_run (s : Session) (moves : List ManagedMove) :
    s.oms.Follows (moves.foldl managed s).oms := by
  induction moves generalizing s with
  | nil => exact .of_orders_eq rfl
  | cons move moves ih => exact (follows_managed s move).trans (ih _)

/-- In every interleaving of the calls, of what the venue does and of quarantines lifted
by hand, each order of the order manager is held under its own id, came to its state from
PENDING by legal transitions and has no fill twice; and so it stays, with its intent and
its fills, and in its state if that is terminal. -/
theorem order_history (supports : Bool) (retries : ℕ) (slip : Option Dec)
    (moves more : List ManagedMove) {c : String} {o : Order}
    (ho : (moves.foldl managed (start supports retries slip)).oms.order? c = some o) :
    o.intent.clientOrderId = c ∧
      Relation.ReflTransGen OrderState.Leads .pending o.state ∧
      (o.fills.map Fill.reported).Nodup ∧
      ∃ o', ((moves ++ more).foldl managed (start supports retries slip)).oms.order? c =
          some o' ∧
        o'.intent = o.intent ∧
        Relation.ReflTransGen OrderState.Leads o.state o'.state ∧
        (o.state.terminal → o'.state = o.state) ∧
        o.fills <+: o'.fills ∧ (o'.fills.map Fill.reported).Nodup := by
  have hnone : (start supports retries slip).oms.order? c = none := rfl
  obtain ⟨intent, hid, hfirst⟩ := (follows_run _ moves).started c o hnone ho
  have honce := hfirst.once List.nodup_nil
  rw [List.foldl_append]
  obtain ⟨o', ho', hlater⟩ := (follows_run _ more).kept c o ho
  refine ⟨by rw [hfirst.intent, hid], hfirst.path, honce, o', ho', hlater.intent, hlater.path,
    OrderState.eq_of_terminal hlater.path, hlater.fills, hlater.once honce⟩

/-- An order that is registered, and then sent. -/
theorem order_history_limitBuy :
    let moves : List ManagedMove := [.move (.submit limitBuy none),
      .move (.advance 0 ⟨.transient "", .notFound, {}⟩), .release limitBuy.instrument]
    let more : List ManagedMove := [.move (.advance 0 ⟨.transient "", .notFound, {}⟩)]
    ∃ o', ((moves ++ more).foldl managed (start true 2 none)).oms.order? "SFX4" = some o' ∧
      o'.state = .sent ∧ o'.intent = limitBuy := by
  intro moves more
  obtain ⟨-, -, -, o', ho', hintent, -⟩ := order_history true 2 none moves more
    (c := "SFX4") (o := { intent := limitBuy }) rfl
  refine ⟨o', ho', ?_, hintent⟩
  rw [← Option.some.inj ho']

end Session

end Sentinel
