import Sentinel.Execution.Accounted

/-!
# The risk charged as pending

A run of the order manager: whole calls, one after the other as under the lock
its callers share, and what happens at the venue between them.
-/

namespace Sentinel

open OrderManager

/-- The order manager, and which orders may still execute at its venue. -/
structure Working where
  oms : OrderManager
  works : String → Bool

/-- A call, with the answers of the venue, or an event at the venue. -/
inductive WorkingMove where
  /-- `submit`; `works` tells whether the order works when the call ends -/
  | submit (intent : OrderIntent) (decisionPrice : Option Dec) (replies : ℕ → Reply)
      (works : Bool)
  /-- `resolve_all_unknown` -/
  | resolve (replies : String → Reply)
  /-- `release_quarantine` -/
  | release (instrument : String)
  /-- the venue fills, cancels or loses what is left of an order -/
  | finish (c : String)

namespace Working

/-- `submit` will send the intent: its instrument is not quarantined and its id
is new. -/
def Sends (w : Working) (intent : OrderIntent) : Prop :=
  intent.instrument ∉ w.oms.quarantine ∧ w.oms.order? intent.clientOrderId = none

instance (w : Working) (intent : OrderIntent) : Decidable (w.Sends intent) := by
  rw [Sends]
  exact inferInstance

def step (w : Working) : WorkingMove → Working
  | .submit intent decisionPrice replies works =>
      { oms := finalState (OrderManager.submit intent decisionPrice replies) w.oms
        works :=
          if w.Sends intent then Function.update w.works intent.clientOrderId works
          else w.works }
  | .resolve replies => { w with oms := finalState (resolveAllUnknown replies) w.oms }
  | .release instrument => { w with oms := finalState (releaseQuarantine instrument) w.oms }
  | .finish c => { w with works := Function.update w.works c false }

/-- Nothing submitted yet. -/
def start (supportsClientOrderId : Bool) (maxRetries : ℕ)
    (maxSlippagePips : Option Dec) : Working where
  oms := .new supportsClientOrderId maxRetries maxSlippagePips
  works := fun _ => false

def Truthful (w : Working) : WorkingMove → Prop
  | .submit intent _ replies works =>
      w.Sends intent → ∀ reply,
        decisiveReply replies (w.oms.maxRetries + 1) 0 = some reply → reply.Truthful works
  | .resolve replies =>
      ∀ o ∈ w.oms.unresolved,
        (replies o.intent.clientOrderId).QueryTruthful (w.works o.intent.clientOrderId)
  | _ => True

/-- No answer reports part of an order as filled, an order left as sent or
acknowledged works at the venue, and the venue finishes no order that is held
so. -/
def Whole (w : Working) : WorkingMove → Prop
  | .submit intent decisionPrice replies works =>
      w.Sends intent → ∀ reply,
        decisiveReply replies (w.oms.maxRetries + 1) 0 = some reply →
          reply.Whole decisionPrice works
  | .resolve replies => ∀ o ∈ w.oms.unresolved, (replies o.intent.clientOrderId).QueryWhole
  | .release _ => True
  | .finish c =>
      ∀ o, w.oms.order? c = some o → o.state ∉ [OrderState.sent, .acked, .partlyFilled]

def Balanced (w : Working) : Prop := w.oms.Accounted w.works

/-! ## The steps of a run -/

variable {w : Working}

theorem orders_submit_of_not_sends {intent : OrderIntent}
    (h : ¬w.Sends intent) (decisionPrice : Option Dec) (replies : ℕ → Reply) :
    (finalState (OrderManager.submit intent decisionPrice replies) w.oms).orders =
      w.oms.orders := by
  rcases submit_cases intent decisionPrice replies w.oms with
    ⟨-, hrun⟩ | ⟨-, order, -, hrun⟩ | ⟨hfree, hnew, -⟩
  · simp only [finalState, hrun]
  · simp only [finalState, hrun]
    rfl
  · exact absurd ⟨hfree, hnew⟩ h

theorem finalState_submit_of_sends {intent : OrderIntent} (h : w.Sends intent)
    (decisionPrice : Option Dec) (replies : ℕ → Reply) :
    finalState (OrderManager.submit intent decisionPrice replies) w.oms =
      finalState (attempts intent decisionPrice replies (w.oms.maxRetries + 1) 0)
        (w.oms.registered intent) := by
  obtain ⟨hfree, hnew⟩ := h
  rcases register_cases intent w.oms with ⟨hq, -⟩ | ⟨-, hheld, -⟩ | ⟨-, -, hregister⟩
  · exact absurd hq hfree
  · rw [hnew] at hheld
    cases hheld
  · have hplace : (place intent decisionPrice replies .fresh).run (w.oms.registered intent) =
        (attempts intent decisionPrice replies (w.oms.maxRetries + 1) 0).run
          (w.oms.registered intent) := rfl
    rw [OrderManager.submit]
    rw [finalState_bind, hregister]
    simp only [finalState_bind, hplace]
    rw [finalState]
    cases (attempts intent decisionPrice replies (w.oms.maxRetries + 1) 0).run
        (w.oms.registered intent) <;> rfl

theorem Balanced.submit (h : w.Balanced) {intent : OrderIntent}
    {decisionPrice : Option Dec} {replies : ℕ → Reply} {works : Bool}
    (htruth : w.Truthful (.submit intent decisionPrice replies works))
    (hwhole : w.Whole (.submit intent decisionPrice replies works)) :
    (w.step (.submit intent decisionPrice replies works)).Balanced := by
  by_cases hsends : w.Sends intent
  · simp only [Balanced, step, if_pos hsends, finalState_submit_of_sends hsends]
    have hregistered : (w.oms.registered intent).Named := by
      intro c o ho
      rw [order?_registered] at ho
      split_ifs at ho with hc
      · cases ho
        exact hc.symm
      · exact h.named c o ho
    have hself := Ends.iff_finalState.1 (ends_attempts (htruth hsends) (hwhole hsends))
      (w.oms.registered intent)
      ⟨{ intent }, by rw [order?_registered, if_pos rfl], rfl, .inr ⟨rfl, by simp⟩, rfl⟩
    obtain ⟨hnamed, hothers⟩ := worksOn_attempts intent decisionPrice replies
      (w.oms.maxRetries + 1) 0 (w.oms.registered intent) hregistered
    generalize finalState (attempts intent decisionPrice replies (w.oms.maxRetries + 1) 0)
      (w.oms.registered intent) = om at *
    intro c o ho
    refine ⟨hnamed c o ho, ?_⟩
    by_cases hc : c = intent.clientOrderId
    · subst hc
      obtain ⟨o', ho', haccounted⟩ := hself
      cases ho'.symm.trans ho
      rw [Function.update_self]
      exact haccounted
    · rw [Function.update_of_ne hc]
      rw [hothers c hc, order?_registered, if_neg hc] at ho
      exact (h c o ho).2
  · simp only [Balanced, step, if_neg hsends]
    intro c o ho
    rw [order?, orders_submit_of_not_sends hsends] at ho
    exact h c o ho

theorem accounted_resolveUnknown {works : String → Bool} {c : String} {reply : Reply}
    (htruth : reply.QueryTruthful (works c)) (hwhole : reply.QueryWhole) :
    Ends (OrderManager.Accounted works) (resolveUnknown c reply)
      (fun _ => OrderManager.Accounted works) (OrderManager.Accounted works) := by
  refine Ends.iff_finalState.2 fun om hom => ?_
  rcases resolveUnknown_run (hom.named c) reply with hrun | ⟨o, ho, hunknown, -⟩
  · simp only [finalState, hrun]
    exact hom
  · obtain ⟨hid, haccounted⟩ := hom c o ho
    have hself := Ends.iff_finalState.1 (ends_resolveUnknown htruth hwhole) om
      ⟨o, ho, hid, hunknown, haccounted.fills_eq_nil (.inl hunknown)⟩
    obtain ⟨hnamed, hothers⟩ := worksOn_resolveUnknown c reply om hom.named
    intro c' o' ho'
    refine ⟨hnamed c' o' ho', ?_⟩
    by_cases hc : c' = c
    · subst hc
      obtain ⟨o'', ho'', hend⟩ := hself
      cases ho''.symm.trans ho'
      exact hend
    · rw [hothers c' hc] at ho'
      exact (hom c' o' ho').2

theorem Balanced.resolve (h : w.Balanced) {replies : String → Reply}
    (htruth : w.Truthful (.resolve replies)) (hwhole : w.Whole (.resolve replies)) :
    (w.step (.resolve replies)).Balanced := by
  have hrun : finalState (resolveAllUnknown replies) w.oms =
      finalState (w.oms.unresolved.forM fun o =>
        resolveUnknown o.intent.clientOrderId (replies o.intent.clientOrderId)) w.oms := rfl
  simp only [Balanced, step, hrun]
  exact Ends.iff_finalState.1
    (Ends.forM fun o ho => accounted_resolveUnknown (htruth o ho) (hwhole o ho)) w.oms h

theorem Balanced.step (h : w.Balanced) {m : WorkingMove}
    (hm : w.Truthful m ∧ w.Whole m) : (w.step m).Balanced := by
  obtain ⟨htruth, hwhole⟩ := hm
  cases m with
  | submit intent decisionPrice replies works => exact h.submit htruth hwhole
  | resolve replies => exact h.resolve htruth hwhole
  | release instrument =>
      intro c o ho
      simp only [Working.step, order?, orders_releaseQuarantine] at ho
      exact h c o ho
  | finish c =>
      intro c' o ho
      obtain ⟨hid, haccounted⟩ := h c' o ho
      refine ⟨hid, ?_⟩
      by_cases hc : c' = c
      · subst hc
        have hheld := hwhole o ho
        simp only [Working.step, Function.update_self]
        rw [Order.Accounted] at haccounted ⊢
        split at haccounted <;> simp_all
      · simp only [Working.step, Function.update_of_ne hc]
        exact haccounted

/-- In a run in which no answer reports part of an order as filled, and the
venue finishes no order behind the back of the order manager, `pending_risk` is
the risk of the unfilled part of the orders that may still execute. -/
theorem pendingRisk_owed {supportsClientOrderId : Bool} {maxRetries : ℕ}
    {maxSlippagePips : Option Dec} {moves : List WorkingMove}
    (hmoves : Along step (fun w m => w.Truthful m ∧ w.Whole m)
      (start supportsClientOrderId maxRetries maxSlippagePips) moves) :
    let w := moves.foldl step (start supportsClientOrderId maxRetries maxSlippagePips)
    w.oms.pendingRisk = w.oms.owedRisk w.works ∧
      ((∀ c, w.works c = false) → w.oms.unresolved = [] → w.oms.pendingRisk = 0) := by
  have hbalanced := Along.invariant (I := Balanced) (fun w m hw hm => hw.step hm)
    (by intro c o ho; cases ho) hmoves
  refine ⟨hbalanced.pendingRisk_eq, ?_⟩
  intro hidle hknown
  rw [hbalanced.pendingRisk_eq]
  have hnone : ((moves.foldl step
      (start supportsClientOrderId maxRetries maxSlippagePips)).oms.orders.values.filter fun o =>
        o.MayExecute (moves.foldl step
          (start supportsClientOrderId maxRetries maxSlippagePips)).works) = [] := by
    refine List.filter_eq_nil_iff.2 fun o ho hmay => ?_
    rcases of_decide_eq_true hmay with hunknown | hworks
    · exact List.filter_eq_nil_iff.1 hknown o ho (by simp [hunknown])
    · rw [hidle] at hworks
      cases hworks
  rw [owedRisk]
  rw [hnone]
  rfl

end Working

/-! ## A limit order -/

def limitBuy : OrderIntent where
  clientOrderId := "SFX4"
  strategy := "trend"
  instrument := "EUR_USD"
  side := .buy
  lots := 1
  orderType := .limit
  limitPrice := some (11 / 10)
  stopLoss := some (109 / 100)
  riskAmount := 1000
  accepted := by decide +kernel

/-- The order is sent, answered with `result`, and works at the venue after it. -/
def placeLimit (result : SubmitResult) : WorkingMove :=
  .submit limitBuy none (fun _ => ⟨.returned result, .notFound, {}⟩) true

/-- While the acknowledged order works, its risk is charged. -/
theorem pendingRisk_owed_acked :
    let w := [placeLimit { state := .acked }].foldl Working.step (Working.start true 2 none)
    w.oms.owedRisk w.works = 1000 ∧ w.oms.pendingRisk = w.oms.owedRisk w.works := by
  have hmoves : Along Working.step (fun w m => w.Truthful m ∧ w.Whole m)
      (Working.start true 2 none) [placeLimit { state := .acked }] := by
    refine ⟨⟨fun _ reply hreply => ?_, fun _ reply hreply => ?_⟩, trivial⟩
    · cases hreply
      intro hterminal
      cases hterminal
    · cases hreply
      exact ⟨fun hfills => absurd rfl hfills, fun _ => rfl⟩
  exact ⟨by decide +kernel, (Working.pendingRisk_owed hmoves).1⟩

/-- Half of the order is filled and the whole of it is charged; and once an
acknowledged order has left the venue, its risk is charged for ever. -/
theorem not_pendingRisk_owed_half :
    let w := [placeLimit { state := .partlyFilled, fills := [⟨"4", 1 / 2, 11 / 10, 0⟩] }].foldl
      Working.step (Working.start true 2 none)
    let w' := [placeLimit { state := .acked }, .finish "SFX4"].foldl
      Working.step (Working.start true 2 none)
    (w.oms.pendingRisk = 1000 ∧ w.oms.owedRisk w.works = 500) ∧
    ((∀ c, w'.works c = false) ∧ w'.oms.unresolved = [] ∧ w'.oms.pendingRisk = 1000) := by
  refine ⟨by decide +kernel, ?_, by decide +kernel, by decide +kernel⟩
  intro c
  by_cases hc : c = "SFX4"
  · subst hc
    decide +kernel
  · have hsends : (Working.start true 2 none).Sends limitBuy := by decide +kernel
    have hid : c ≠ limitBuy.clientOrderId := hc
    simp only [List.foldl_cons, List.foldl_nil, placeLimit, Working.step, if_pos hsends]
    rw [Function.update_of_ne hc, Function.update_of_ne hid]
    rfl

end Sentinel
