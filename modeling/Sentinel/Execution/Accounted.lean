import Sentinel.Execution.Submit
import Sentinel.Support.Runs
import Mathlib.Logic.Function.Basic

/-!
# The risk of orders that may still execute

`pending_risk` charges the whole risk of every order in a state that is neither
terminal nor unsent.  What the venue may still execute of an order is another
matter: that is the part of it that is not filled, while the order works at the
venue or its outcome is not known.
-/

namespace Sentinel

/-! ## What may still execute -/

def Order.unfilledRisk (o : Order) : Dec :=
  o.intent.riskAmount * ((o.intent.lots - o.filledLots) / o.intent.lots)

def Order.MayExecute (o : Order) (works : String → Bool) : Prop :=
  o.state = .unknown ∨ works o.intent.clientOrderId = true

instance (o : Order) (works : String → Bool) : Decidable (o.MayExecute works) := by
  rw [Order.MayExecute]
  exact inferInstance

/-- The risk of all that may still execute, when `works` tells which orders do
at the venue. -/
def OrderManager.owedRisk (om : OrderManager) (works : String → Bool) : Dec :=
  ((om.orders.values.filter fun o => o.MayExecute works).map Order.unfilledRisk).sum

def Order.Accounted (o : Order) (works : Bool) : Prop :=
  match o.state with
  | .pending | .filled | .rejected | .cancelled => works = false
  | .sent | .acked | .partlyFilled => works = true ∧ o.fills = []
  | .unknown => o.fills = []

variable {o : Order} {works : Bool}

theorem Order.Accounted.charged_iff (h : o.Accounted works) :
    o.state ∈ [OrderState.sent, .acked, .partlyFilled, .unknown] ↔
      o.state = .unknown ∨ works = true := by
  rw [Order.Accounted] at h
  split at h <;> simp_all

theorem Order.Accounted.fills_eq_nil (h : o.Accounted works)
    (hmay : o.state = .unknown ∨ works = true) : o.fills = [] := by
  rw [Order.Accounted] at h
  split at h <;> simp_all

theorem Order.accounted_of_unknown (hstate : o.state = .unknown)
    (hfills : o.fills = []) : o.Accounted works := by
  rw [Order.Accounted]
  rw [hstate]
  exact hfills

theorem Order.accounted_of_terminal
    (hstate : o.state.terminal = true) (hworks : works = false) : o.Accounted works := by
  rw [Order.Accounted]
  cases hcase : o.state <;> simp_all [OrderState.terminal]

namespace OrderManager

def Named (om : OrderManager) : Prop :=
  ∀ c o, om.order? c = some o → o.intent.clientOrderId = c

def Accounted (works : String → Bool) (om : OrderManager) : Prop :=
  ∀ c o, om.order? c = some o → o.intent.clientOrderId = c ∧ o.Accounted (works c)

theorem Accounted.named {works : String → Bool} {om : OrderManager} (h : om.Accounted works) :
    om.Named :=
  fun c o ho => (h c o ho).1

theorem Accounted.pendingRisk_eq {works : String → Bool} {om : OrderManager}
    (h : om.Accounted works) : om.pendingRisk = om.owedRisk works := by
  have horders : ∀ o ∈ om.orders.values, o.Accounted (works o.intent.clientOrderId) := by
    intro o ho
    obtain ⟨c, hc⟩ := (Dict.mem_values_iff _ _).1 ho
    obtain ⟨hid, haccounted⟩ := h c o hc
    rw [hid]
    exact haccounted
  have hcharged : ∀ o ∈ om.orders.values,
      decide (o.state ∈ [OrderState.sent, .acked, .partlyFilled, .unknown]) =
        decide (o.MayExecute works) :=
    fun o ho => decide_eq_decide.2 (horders o ho).charged_iff
  rw [pendingRisk, owedRisk]
  rw [List.filter_congr hcharged]
  congr 1
  refine List.map_congr_left fun o ho => ?_
  obtain ⟨hmem, hmay⟩ := List.mem_filter.1 ho
  -- nothing of a charged order is filled, so all of its risk is owed
  have hfills := (horders o hmem).fills_eq_nil (of_decide_eq_true hmay)
  have hlots : o.intent.lots ≠ 0 := ne_of_gt o.intent.lots_pos
  simp [Order.unfilledRisk, Order.filledLots, hfills, div_self hlots]

/-! ## Only the order of a call changes -/

/-- Orders that are held under their ids stay so, and only the order under `c`
changes. -/
def WorksOn (c : String) (om om' : OrderManager) : Prop :=
  om.Named → om'.Named ∧ ∀ c', c' ≠ c → om'.order? c' = om.order? c'

instance (c : String) : Std.Refl (WorksOn c) := ⟨fun _ h => ⟨h, fun _ _ => rfl⟩⟩

instance (c : String) : IsTrans OrderManager (WorksOn c) := by
  refine ⟨fun _ _ _ h h' hnamed => ?_⟩
  obtain ⟨hmid, hothers⟩ := h hnamed
  obtain ⟨hend, hothers'⟩ := h' hmid
  exact ⟨hend, fun c' hc' => (hothers' c' hc').trans (hothers c' hc')⟩

theorem WorksOn.of_orders_eq {c : String} {om om' : OrderManager} (h : om'.orders = om.orders) :
    WorksOn c om om' := by
  intro hnamed
  refine ⟨?_, fun c' _ => by simp only [order?, h]⟩
  intro c' o ho
  exact hnamed c' o (by simpa only [order?, h] using ho)

theorem Confined.worksOn {c instrument : String} {om om' : OrderManager}
    (h : Confined c instrument om om') : WorksOn c om om' := by
  intro hnamed
  refine ⟨?_, h.others⟩
  intro c' o ho
  by_cases hc' : c' = c
  · subst hc'
    have hintent := h.intent
    rw [ho, Option.map_some] at hintent
    obtain ⟨o', ho', hsame⟩ := Option.map_eq_some_iff.1 hintent.symm
    rw [← hsame]
    exact hnamed c' o' ho'
  · exact hnamed c' o (by rw [← h.others c' hc', ho])

theorem worksOn_liftQuarantine {c : String} (c' : String) :
    Moves (WorksOn c) (liftQuarantine c') := by
  intro om
  obtain ⟨om', hrun, -, -, horders, -⟩ := liftQuarantine_cases c' om
  simpa only [finalState, hrun] using WorksOn.of_orders_eq horders

theorem resolveUnknown_eq (om : OrderManager) (c : String) (reply : Reply) :
    (resolveUnknown c reply).run om =
      (match (om.order? c).filter fun o => o.state = .unknown with
        | none => pure ()
        | some order =>
            match reply.query with
            | .returned result => do
                applyResult order.intent.clientOrderId order.intent result none reply.apply
                liftQuarantine order.intent.clientOrderId
            | .notFound => journalEvent .orderUnknown (some order.intent.clientOrderId)
            | .brokerError _ => journalEvent .orderUnknown (some order.intent.clientOrderId)
            | .otherError message => throw (.brokerRaised message) : OmsM Unit).run om :=
  rfl

theorem resolveUnknown_run {om : OrderManager} {c : String}
    (hid : ∀ o, om.order? c = some o → o.intent.clientOrderId = c) (reply : Reply) :
    (resolveUnknown c reply).run om = .ok () om ∨
      ∃ o, om.order? c = some o ∧ o.state = .unknown ∧ (resolveUnknown c reply).run om =
        (match reply.query with
          | .returned result => do
              applyResult c o.intent result none reply.apply
              liftQuarantine c
          | .notFound => journalEvent .orderUnknown (some c)
          | .brokerError _ => journalEvent .orderUnknown (some c)
          | .otherError message => throw (.brokerRaised message) : OmsM Unit).run om := by
  have hrun := resolveUnknown_eq om c reply
  cases hfound : (om.order? c).filter fun o => o.state = .unknown with
  | none =>
      rw [hfound] at hrun
      exact .inl hrun
  | some o =>
      rw [hfound] at hrun
      rw [Option.filter_eq_some_iff] at hfound
      obtain ⟨ho, hunknown⟩ := hfound
      simp only [hid o ho] at hrun
      exact .inr ⟨o, ho, of_decide_eq_true hunknown, hrun⟩

theorem worksOn_resolveUnknown (c : String) (reply : Reply) :
    Moves (WorksOn c) (resolveUnknown c reply) := by
  intro om hnamed
  rcases resolveUnknown_run (hnamed c) reply with hrun | ⟨o, -, -, hrun⟩
  · rw [finalState]
    rw [hrun]
    exact ⟨hnamed, fun _ _ => rfl⟩
  · have hasked : Moves (WorksOn c)
        (match reply.query with
          | .returned result => do
              applyResult c o.intent result none reply.apply
              liftQuarantine c
          | .notFound => journalEvent .orderUnknown (some c)
          | .brokerError _ => journalEvent .orderUnknown (some c)
          | .otherError message => throw (.brokerRaised message) : OmsM Unit) := by
      cases reply.query with
      | returned result =>
          exact Moves.bind
            (Moves.mono (fun _ _ => Confined.worksOn) (confined_applyResult _ _ _ _))
            fun _ => worksOn_liftQuarantine c
      | notFound => exact fun _ => WorksOn.of_orders_eq rfl
      | brokerError message => exact fun _ => WorksOn.of_orders_eq rfl
      | otherError message => exact Moves.throw _
    have hmoved := hasked om hnamed
    rw [finalState] at hmoved ⊢
    rw [hrun]
    exact hmoved

theorem worksOn_attempts (intent : OrderIntent) (decisionPrice : Option Dec)
    (replies : ℕ → Reply) (left attempt : ℕ) :
    Moves (WorksOn intent.clientOrderId) (attempts intent decisionPrice replies left attempt) :=
  moves_attempts (fun _ _ => Confined.worksOn) (worksOn_resolveUnknown _) decisionPrice replies
    left attempt

end OrderManager

/-! ## What the venue answers -/

def SubmitResult.Whole (result : SubmitResult) (decisionPrice : Option Dec)
    (replies : ApplyReplies) : Prop :=
  result.fills ≠ [] →
    result.state = .rejected ∨ result.state = .unknown ∨
      (result.state = .filled ∧ (decisionPrice = none ∨ replies.instrument ≠ none))

def SubmitResult.Truthful (result : SubmitResult) (works : Bool) : Prop :=
  result.state.terminal = true → works = false

variable (reply : Reply)

def Reply.QueryTruthful (works : Bool) : Prop :=
  match reply.query with
  | .returned result => result.Truthful works
  | _ => True

def Reply.Truthful (works : Bool) : Prop :=
  match reply.submit with
  | .returned result => result.Truthful works
  | .permanent _ => works = false
  | .unknownOutcome _ => reply.QueryTruthful works
  | _ => True

def Reply.QueryWhole : Prop :=
  match reply.query with
  | .returned result => result.Whole none reply.apply
  | _ => True

/-- The answer to `broker.submit` reports no part of an order as filled; and an
order left as working, or sent with an exception outside the families of
`BrokerError`, does work. -/
def Reply.Whole (decisionPrice : Option Dec) (works : Bool) : Prop :=
  match reply.submit with
  | .returned result =>
      result.Whole decisionPrice reply.apply ∧
        (result.state ∈ [OrderState.pending, .sent, .acked, .cancelled] → works = true)
  | .unknownOutcome _ => reply.QueryWhole
  | .otherError _ => works = true
  | _ => True

/-- The reply that ends the retry loop of `submit`, if one does. -/
def decisiveReply (replies : ℕ → Reply) : (left attempt : ℕ) → Option Reply
  | 0, _ => none
  | left + 1, attempt =>
      match (replies attempt).submit with
      | .transient _ => decisiveReply replies left (attempt + 1)
      | _ => some (replies attempt)

theorem decisiveReply_of_not_transient {replies : ℕ → Reply} (left : ℕ) {attempt : ℕ}
    (h : ∀ message, (replies attempt).submit ≠ .transient message) :
    decisiveReply replies (left + 1) attempt = some (replies attempt) := by
  rw [decisiveReply]
  split
  · exact absurd ‹_› (h _)
  · rfl

namespace OrderManager

/-! ## What a call does to its own order -/

/-- The order under `c` is there, and `φ` holds of it. -/
def Holds (c : String) (φ : Order → Prop) (om : OrderManager) : Prop :=
  ∃ o, om.order? c = some o ∧ φ o

section Order

variable {c : String} {φ ψ : Order → Prop} {E : OrderManager → Prop}

theorem Holds.imp {om : OrderManager} (h : om.Holds c φ) (hφ : ∀ o, φ o → ψ o) :
    om.Holds c ψ := by
  obtain ⟨o, ho, hpre⟩ := h
  exact ⟨o, ho, hφ o hpre⟩

theorem Holds.of_orders_eq {om om' : OrderManager} (h : om.Holds c φ)
    (horders : om'.orders = om.orders) : om'.Holds c φ := by
  obtain ⟨o, ho, hpre⟩ := h
  exact ⟨o, by rw [order?, horders]; exact ho, hpre⟩

theorem ends_journalEvent (event : EventType) (c' : Option String) :
    Ends (Holds c φ) (journalEvent event c') (fun _ => Holds c φ) E :=
  Ends.modify fun _ h => h.of_orders_eq rfl

theorem ends_addQuarantine (instrument : String) :
    Ends (Holds c φ) (addQuarantine instrument) (fun _ => Holds c φ) E :=
  Ends.modify fun _ h => h.of_orders_eq rfl

theorem ends_liftQuarantine (c' : String) :
    Ends (Holds c φ) (liftQuarantine c') (fun _ => Holds c φ) E := by
  intro om h
  obtain ⟨om', hrun, -, -, horders, -⟩ := liftQuarantine_cases c' om
  rw [hrun]
  exact h.of_orders_eq horders

theorem ends_modifyOrder {f : Order → Order} (h : ∀ o, φ o → ψ (f o)) :
    Ends (Holds c φ) (modifyOrder c f) (fun _ => Holds c ψ) E := by
  refine Ends.modify fun om hom => ?_
  obtain ⟨o, ho, hφ⟩ := hom
  exact ⟨f o, by rw [order?_adjust, if_pos rfl, ho]; rfl, h o hφ⟩

theorem ends_transition {new : OrderState}
    (hlegal : ∀ o, φ o → new = o.state ∨ new ∈ legal o.state)
    (h : ∀ o, φ o → ψ { o with state := new }) :
    Ends (Holds c φ) (transition c new) (fun _ => Holds c ψ) E := by
  intro om hom
  obtain ⟨o, ho, hφ⟩ := hom
  rcases transition_cases c new om with ⟨hnone, -⟩ | ⟨o', ho', hsame, hrun⟩ |
      ⟨o', ho', -, hrun⟩ | ⟨o', ho', hne, hillegal, -⟩
  · cases hnone.symm.trans ho
  · cases ho'.symm.trans ho
    rw [hrun]
    refine ⟨o, ho, ?_⟩
    have hset := h o hφ
    rw [hsame] at hset
    exact hset
  · rw [hrun]
    refine ⟨{ o with state := new }, ?_, h o hφ⟩
    rw [order?_withState, if_pos rfl, ho]
    rfl
  · cases ho'.symm.trans ho
    rcases hlegal o hφ with hsame | hmem
    · exact absurd hsame hne
    · exact absurd hmem hillegal

theorem ends_transition_illegal {new : OrderState} {Q : Unit → OrderManager → Prop}
    (h : ∀ o, φ o → new ≠ o.state ∧ new ∉ legal o.state) :
    Ends (Holds c φ) (transition c new) Q (Holds c φ) := by
  intro om hom
  obtain ⟨o, ho, hφ⟩ := hom
  rcases transition_cases c new om with ⟨hnone, -⟩ | ⟨o', ho', hsame, -⟩ |
      ⟨o', ho', hmem, -⟩ | ⟨o', -, -, -, hrun⟩
  · cases hnone.symm.trans ho
  · cases ho'.symm.trans ho
    exact absurd hsame (h o hφ).1
  · cases ho'.symm.trans ho
    exact absurd hmem (h o hφ).2
  · rw [hrun]
    exact Holds.of_orders_eq ⟨o, ho, hφ⟩ rfl

theorem ends_markUnknown {instrument : String}
    (hlegal : ∀ o, φ o → OrderState.unknown = o.state ∨ .unknown ∈ legal o.state)
    (h : ∀ o, φ o → ψ { o with state := .unknown }) :
    Ends (Holds c φ) (markUnknown c instrument) (fun _ => Holds c ψ) E :=
  Ends.bind (ends_transition hlegal h) fun _ => ends_addQuarantine _

theorem ends_reassertStop (intent : OrderIntent) (replies : ApplyReplies)
    (hφ : ∀ o confirmed, φ o → φ { o with stopConfirmed := confirmed }) :
    Ends (Holds c φ) (reassertStop c intent replies) (fun _ => Holds c φ) E := by
  refine Ends.bind (ends_modifyOrder fun o => hφ o false) fun _ => ?_
  refine Ends.bind (ends_journalEvent _ _) fun _ => ?_
  refine Ends.ite_bind (fun _ => ends_journalEvent _ _) fun _ => ?_
  refine Ends.bind (ends_modifyOrder fun o => hφ o _) fun _ => ?_
  refine Ends.ite (fun _ => ?_) fun _ => Ends.pure fun _ h => h
  exact Ends.bind (ends_addQuarantine _) fun _ => ends_journalEvent _ _

variable {state : OrderState} {intent : OrderIntent}

variable {decisionPrice : Option Dec} {replies : ApplyReplies}

theorem ends_applyFill (hprice : decisionPrice = none ∨ replies.instrument ≠ none) (fill : Fill) :
    Ends (Holds c fun o => o.state = state) (applyFill c intent decisionPrice replies fill)
      (fun _ => Holds c fun o => o.state = state ∧ o.fills ≠ []) E := by
  have hslippage : ∃ slip, slippage intent decisionPrice replies fill = .ok slip := by
    unfold slippage
    rcases hprice with rfl | hinstrument
    · exact ⟨_, rfl⟩
    · cases decisionPrice with
      | none => exact ⟨_, rfl⟩
      | some price =>
          obtain ⟨inst, hinst⟩ := Option.ne_none_iff_exists'.1 hinstrument
          simp only [hinst]
          exact ⟨_, rfl⟩
  obtain ⟨slip, hslip⟩ := hslippage
  refine Ends.bind_get fun om hom => ?_
  obtain ⟨o, ho, hstate⟩ := hom
  simp only [ho, hslip]
  refine Ends.ite (fun hknown => ?_) fun _ => ?_
  · refine Ends.pure fun om' hsame => ?_
    subst hsame
    refine ⟨o, ho, hstate, ?_⟩
    rintro hnil
    simp [alreadyApplied, hnil] at hknown
  · have hfilled : Ends (Holds c fun o => o.state = state)
        (modifyOrder c fun o => { o with fills := o.fills ++ [fill] })
        (fun _ => Holds c fun o => o.state = state ∧ o.fills ≠ []) E :=
      ends_modifyOrder fun o' ho' => ⟨ho', by simp⟩
    refine Ends.of_imp (P := Holds c fun o => o.state = state) ?_ fun om' hsame => by
      rw [hsame]
      exact ⟨o, ho, hstate⟩
    refine Ends.bind hfilled fun _ => ?_
    refine Ends.bind (ends_journalEvent _ _) fun _ => ?_
    refine Ends.ite (fun _ => ?_) fun _ => Ends.pure fun _ h => h
    refine Ends.bind (Ends.modify fun _ h => ?_) fun _ => ends_journalEvent _ _
    exact h.of_orders_eq rfl

theorem ends_applyFills
    (hprice : decisionPrice = none ∨ replies.instrument ≠ none) {fills : List Fill}
    (hfills : fills ≠ []) :
    Ends (Holds c fun o => o.state = state)
      (fills.forM (applyFill c intent decisionPrice replies))
      (fun _ => Holds c fun o => o.state = state ∧ o.fills ≠ []) E := by
  cases fills with
  | nil => exact absurd rfl hfills
  | cons fill fills =>
      refine Ends.bind (ends_applyFill hprice fill) fun _ => Ends.forM fun fill' _ => ?_
      exact (ends_applyFill hprice fill').of_imp fun _ h => h.imp fun _ => And.left

variable {result : SubmitResult} {replies : ApplyReplies}

theorem ends_finishResult_unfilled
    (hstate : state = .sent ∨ state = .unknown) (htarget : appliedTarget result.state ≠ .acked) :
    Ends (Holds c fun o => o.state = state ∧ o.fills = [])
      (finishResult c intent result replies)
      (fun _ => Holds c fun o => o.state = .unknown ∧ o.fills = []) E := by
  refine Ends.bind_get_of fun om hom => ?_
  obtain ⟨o, ho, -, hfills⟩ := hom
  have hunfilled : ((om.order? c).all fun o => o.fills.isEmpty) = true := by
    simp [ho, hfills]
  simp only [hunfilled]
  rw [if_pos ⟨htarget, trivial⟩]
  refine Ends.bind (ends_markUnknown ?_ ?_) fun _ => ends_journalEvent _ _
  · rintro o' ⟨hstate', -⟩
    rw [hstate']
    rcases hstate with rfl | rfl
    · exact .inr (by simp [legal])
    · exact .inl rfl
  · rintro o' ⟨-, hfills'⟩
    exact ⟨rfl, hfills'⟩

theorem ends_finishResult_filled
    (hstate : state = .sent ∨ state = .unknown) (hfilled : result.state = .filled) :
    Ends (Holds c fun o => o.state = state ∧ o.fills ≠ [])
      (finishResult c intent result replies)
      (fun _ => Holds c fun o => o.state = .filled) E := by
  refine Ends.bind_get_of fun om hom => ?_
  obtain ⟨o, ho, -, hfills⟩ := hom
  have hunfilled : ((om.order? c).all fun o => o.fills.isEmpty) = false := by
    simp [ho, hfills]
  have htarget : appliedTarget result.state = .filled := by
    rw [hfilled]
    rfl
  simp only [hunfilled, htarget]
  rw [if_neg (by simp)]
  refine Ends.ite_bind (fun _ => ends_reassertStop _ _ fun _ _ h => h) fun _ => ?_
  refine Ends.bind (ends_transition (ψ := fun o => o.state = .filled) ?_ fun _ _ => rfl)
    fun _ => ?_
  · rintro o' ⟨hstate', -⟩
    rw [hstate']
    rcases hstate with rfl | rfl
    · exact .inr (by simp [legal])
    · exact .inr (by simp [legal])
  · exact Ends.ite (fun _ => ends_journalEvent _ _) fun _ => Ends.pure fun _ h => h

theorem ends_finishResult_acked (hstate : (state = .sent ∧ works = true) ∨ state = .unknown)
    (htarget : appliedTarget result.state = .acked) :
    Ends (Holds c fun o => o.state = state ∧ o.fills = [])
      (finishResult c intent result replies)
      (fun _ => Holds c fun o => o.Accounted works)
      (Holds c fun o => o.Accounted works) := by
  refine Ends.bind_get_of fun om _ => ?_
  simp only [htarget]
  rw [if_neg (by simp), if_neg (by simp)]
  refine Ends.bind (R := fun _ => Holds c fun o => o.Accounted works) ?_ fun _ => ?_
  · rcases hstate with ⟨rfl, hworks⟩ | rfl
    · refine ends_transition ?_ ?_
      · rintro o ⟨hstate, -⟩
        rw [hstate]
        exact .inr (by simp [legal])
      · rintro o ⟨-, hfills⟩
        exact ⟨hworks, hfills⟩
    · refine (ends_transition_illegal (Q := fun _ _ => False) ?_).post (fun _ _ => False.elim)
        fun om h => h.imp ?_
      · rintro o ⟨hstate, -⟩
        rw [hstate]
        simp [legal]
      · rintro o ⟨hstate, hfills⟩
        exact o.accounted_of_unknown hstate hfills
  · exact Ends.ite (fun _ => ends_journalEvent _ _) fun _ => Ends.pure fun _ h => h

theorem ends_applyResult
    (hstate : state = .sent ∨ state = .unknown) (hwhole : result.Whole decisionPrice replies)
    (htruth : result.Truthful works)
    (hworks : state = .sent →
      result.state ∈ [OrderState.pending, .sent, .acked, .cancelled] → works = true) :
    Ends (Holds c fun o => o.state = state ∧ o.fills = [])
      (applyResult c intent result decisionPrice replies)
      (fun _ => Holds c fun o => o.Accounted works)
      (Holds c fun o => o.Accounted works) := by
  refine Ends.bind (R := fun _ => Holds c fun o => o.state = state ∧ o.fills = [])
    (ends_modifyOrder fun _ h => h) fun _ => ?_
  refine Ends.ite (fun hrejected => ?_) fun hlive => Ends.ite (fun hunknown => ?_) fun hknown => ?_
  · have hdead : works = false := htruth (by rw [hrejected]; rfl)
    refine Ends.bind (ends_transition (ψ := fun o => o.state = .rejected) ?_ fun _ _ => rfl)
      fun _ => ?_
    · rintro o ⟨hsame, -⟩
      rw [hsame]
      rcases hstate with rfl | rfl
      · exact .inr (by simp [legal])
      · exact .inr (by simp [legal])
    · refine Ends.bind (ends_modifyOrder (ψ := fun o => o.Accounted works) fun o ho => ?_)
        fun _ => ends_journalEvent _ _
      exact Order.accounted_of_terminal (by simp [ho, OrderState.terminal]) hdead
  · refine Ends.bind (ends_markUnknown ?_ ?_) fun _ => ends_journalEvent _ _
    · rintro o ⟨hsame, -⟩
      rw [hsame]
      rcases hstate with rfl | rfl
      · exact .inr (by simp [legal])
      · exact .inl rfl
    · rintro o ⟨-, hfills⟩
      exact Order.accounted_of_unknown rfl hfills
  · by_cases hfills : result.fills = []
    · rw [hfills]
      refine Ends.bind (R := fun _ => Holds c fun o => o.state = state ∧ o.fills = [])
        (Ends.pure fun _ h => h) fun _ => ?_
      by_cases htarget : appliedTarget result.state = .acked
      · refine ends_finishResult_acked ?_ htarget
        refine hstate.imp (fun hsent => ⟨hsent, hworks hsent ?_⟩) id
        cases hcase : result.state <;> simp_all [appliedTarget]
      · refine (ends_finishResult_unfilled hstate htarget).post (fun _ _ h => h.imp ?_)
          fun _ h => h
        rintro o ⟨hunknown, hnone⟩
        exact o.accounted_of_unknown hunknown hnone
    · have hfilled : result.state = .filled ∧
          (decisionPrice = none ∨ replies.instrument ≠ none) := by
        rcases hwhole hfills with hrejected | hunknown | hfilled
        · exact absurd hrejected hlive
        · exact absurd hunknown hknown
        · exact hfilled
      refine Ends.bind
        ((ends_applyFills hfilled.2 hfills).of_imp fun _ h => h.imp fun _ => And.left)
        fun _ => ?_
      refine (ends_finishResult_filled hstate hfilled.1).post (fun _ _ h => h.imp fun o ho => ?_)
        fun _ h => h
      refine o.accounted_of_terminal (by simp [ho, OrderState.terminal]) (htruth ?_)
      rw [hfilled.1]
      rfl

theorem ends_resolveUnknown {reply : Reply} {works : Bool} (htruth : reply.QueryTruthful works)
    (hwhole : reply.QueryWhole) :
    Ends (Holds c fun o => o.intent.clientOrderId = c ∧ o.state = .unknown ∧ o.fills = [])
      (resolveUnknown c reply)
      (fun _ => Holds c fun o => o.Accounted works)
      (Holds c fun o => o.Accounted works) := by
  refine Ends.iff_finalState.2 fun om hom => ?_
  obtain ⟨o, ho, hid, hunknown, hfills⟩ := hom
  have hkept : om.Holds c fun o => o.Accounted works :=
    ⟨o, ho, o.accounted_of_unknown hunknown hfills⟩
  have hnamed : ∀ o, om.order? c = some o → o.intent.clientOrderId = c := by
    intro o' ho'
    cases ho.symm.trans ho'
    exact hid
  rcases resolveUnknown_run hnamed reply with hrun | ⟨o', -, -, hrun⟩
  · rw [finalState]
    rw [hrun]
    exact hkept
  · rw [finalState]
    rw [hrun]
    rw [Reply.QueryTruthful] at htruth
    rw [Reply.QueryWhole] at hwhole
    cases hquery : reply.query with
    | returned result =>
        rw [hquery] at htruth hwhole
        refine Ends.iff_finalState.1 (Ends.bind
          (ends_applyResult (.inr rfl) hwhole htruth fun hsent => ?_)
          fun _ => ends_liftQuarantine c) om ⟨o, ho, hunknown, hfills⟩
        cases hsent
    | notFound => exact hkept.of_orders_eq rfl
    | brokerError message => exact hkept.of_orders_eq rfl
    | otherError message => exact hkept

/-! ### The pieces of the retry loop -/

theorem ends_beginAttempt {left attempt : ℕ} :
    Ends
      (Holds c fun o => o.intent.clientOrderId = c ∧
        (o.state = .sent ∨ (o.state = .pending ∧ left ≠ 0)) ∧ o.fills = [])
      (beginAttempt c attempt)
      (fun _ => Holds c fun o => o.intent.clientOrderId = c ∧ o.state = .sent ∧ o.fills = [])
      E := by
  refine Ends.bind (ends_modifyOrder (ψ := fun o => o.intent.clientOrderId = c ∧
    (o.state = .sent ∨ (o.state = .pending ∧ left ≠ 0)) ∧ o.fills = []) fun _ h => h) fun _ => ?_
  refine Ends.bind (ends_transition ?_ ?_) fun _ => ends_journalEvent _ _
  · rintro o ⟨-, hsent | ⟨hpending, -⟩, -⟩
    · exact .inl hsent.symm
    · rw [hpending]
      exact .inr (by simp [legal])
  · rintro o ⟨hid, -, hfills⟩
    exact ⟨hid, rfl, hfills⟩

theorem ends_exhausted {instrument : String} {works : Bool} :
    Ends (Holds c fun o => o.state = .sent ∧ o.fills = []) (exhausted c instrument)
      (fun _ => Holds c fun o => o.Accounted works) E := by
  refine Ends.bind (ends_markUnknown ?_ ?_) fun _ => ends_journalEvent _ _
  · rintro o ⟨hsent, -⟩
    rw [hsent]
    exact .inr (by simp [legal])
  · rintro o ⟨-, hfills⟩
    exact Order.accounted_of_unknown rfl hfills

theorem ends_quarantineUnknown {instrument message : String} :
    Ends
      (Holds c fun o => o.intent.clientOrderId = c ∧ o.state = .sent ∧ o.fills = [])
      (quarantineUnknown c instrument message)
      (fun _ => Holds c fun o => o.intent.clientOrderId = c ∧ o.state = .unknown ∧ o.fills = [])
      E := by
  refine Ends.bind (ends_markUnknown ?_ ?_) fun _ =>
    Ends.bind (ends_modifyOrder fun _ h => h) fun _ => ends_journalEvent _ _
  · rintro o ⟨-, hsent, -⟩
    rw [hsent]
    exact .inr (by simp [legal])
  · rintro o ⟨hid, -, hfills⟩
    exact ⟨hid, rfl, hfills⟩

theorem ends_rejectPermanently {message : String} {works : Bool} (hworks : works = false) :
    Ends (Holds c fun o => o.state = .sent ∧ o.fills = []) (rejectPermanently c message)
      (fun _ => Holds c fun o => o.Accounted works) E := by
  refine Ends.bind (ends_transition (ψ := fun o => o.state = .rejected) ?_ fun _ _ => rfl)
    fun _ => ?_
  · rintro o ⟨hsent, -⟩
    rw [hsent]
    exact .inr (by simp [legal])
  · refine Ends.bind (ends_modifyOrder (ψ := fun o => o.Accounted works) fun o ho => ?_)
      fun _ => ends_journalEvent _ _
    exact Order.accounted_of_terminal (by simp [ho, OrderState.terminal]) hworks

theorem ends_attempts {replies : ℕ → Reply} {works : Bool} {left attempt : ℕ}
    (htruth : ∀ reply, decisiveReply replies left attempt = some reply → reply.Truthful works)
    (hwhole : ∀ reply, decisiveReply replies left attempt = some reply →
      reply.Whole decisionPrice works) :
    Ends
      (Holds intent.clientOrderId fun o =>
        o.intent.clientOrderId = intent.clientOrderId ∧
          (o.state = .sent ∨ (o.state = .pending ∧ left ≠ 0)) ∧ o.fills = [])
      (attempts intent decisionPrice replies left attempt)
      (fun _ => Holds intent.clientOrderId fun o => o.Accounted works)
      (Holds intent.clientOrderId fun o => o.Accounted works) := by
  induction left generalizing attempt with
  | zero =>
      refine ends_exhausted.of_imp fun om h => h.imp ?_
      rintro o ⟨-, hsent | ⟨-, hnone⟩, hfills⟩
      · exact ⟨hsent, hfills⟩
      · exact absurd rfl hnone
  | succ left ih =>
      rw [attempts]
      refine Ends.bind ends_beginAttempt fun _ => ?_
      have hsent : ∀ om : OrderManager,
          om.Holds intent.clientOrderId (fun o =>
            o.intent.clientOrderId = intent.clientOrderId ∧ o.state = .sent ∧ o.fills = []) →
          om.Holds intent.clientOrderId fun o => o.state = .sent ∧ o.fills = [] :=
        fun _ h => h.imp fun _ => And.right
      cases hsubmit : (replies attempt).submit with
      | returned result =>
          have hdecisive : decisiveReply replies (left + 1) attempt = some (replies attempt) :=
            decisiveReply_of_not_transient left (by simp [hsubmit])
          have hanswer := htruth _ hdecisive
          have hparts := hwhole _ hdecisive
          rw [Reply.Truthful] at hanswer
          rw [Reply.Whole] at hparts
          rw [hsubmit] at hanswer hparts
          exact (ends_applyResult (.inl rfl) hparts.1 hanswer fun _ => hparts.2).of_imp hsent
      | unknownOutcome message =>
          have hdecisive : decisiveReply replies (left + 1) attempt = some (replies attempt) :=
            decisiveReply_of_not_transient left (by simp [hsubmit])
          have hanswer := htruth _ hdecisive
          have hparts := hwhole _ hdecisive
          rw [Reply.Truthful] at hanswer
          rw [Reply.Whole] at hparts
          rw [hsubmit] at hanswer hparts
          exact Ends.bind ends_quarantineUnknown fun _ => ends_resolveUnknown hanswer hparts
      | transient message =>
          have hnext : decisiveReply replies (left + 1) attempt =
              decisiveReply replies left (attempt + 1) := by
            simp only [decisiveReply, hsubmit]
          rw [hnext] at htruth hwhole
          refine Ends.bind (ends_modifyOrder ?_) fun _ => ih htruth hwhole
          rintro o ⟨hid, hstate, hfills⟩
          exact ⟨hid, .inl hstate, hfills⟩
      | permanent message =>
          have hdead := htruth _ (decisiveReply_of_not_transient left (by simp [hsubmit]))
          rw [Reply.Truthful] at hdead
          rw [hsubmit] at hdead
          exact (ends_rejectPermanently hdead).of_imp hsent
      | brokerError message =>
          refine Ends.bind (ends_modifyOrder ?_) fun _ => ends_exhausted
          rintro o ⟨-, hstate, hfills⟩
          exact ⟨hstate, hfills⟩
      | otherError message =>
          have hworks := hwhole _ (decisiveReply_of_not_transient left (by simp [hsubmit]))
          rw [Reply.Whole] at hworks
          rw [hsubmit] at hworks
          refine Ends.throw fun om h => h.imp ?_
          rintro o ⟨-, hstate, hfills⟩
          rw [Order.Accounted]
          rw [hstate]
          exact ⟨hworks, hfills⟩

end Order

end OrderManager

end Sentinel
