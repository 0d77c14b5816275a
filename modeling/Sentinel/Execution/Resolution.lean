import Sentinel.Execution.Outcomes

/-!
# What a query settles

The answer to a query may be any order state with any fills.  What is not a
rejection, a fill or no answer is taken for an acknowledgement, and from
UNKNOWN there is no way back to that.
-/

namespace Sentinel

namespace OrderManager

variable {c : String} {o : Order} {quarantine : List String} {intent : OrderIntent}

theorem Means.returns_iff {p : OmsM Unit} {s : OwnStanding} (h : Means c p o quarantine s)
    {om : OrderManager} (hom : Shows c o quarantine om) :
    (∃ om', p.run om = .ok () om') ↔ s.raised = false := by
  have hend := h om hom
  rcases hrun : p.run om with ⟨u, om'⟩ | ⟨e, om'⟩
  · rw [hrun] at hend
    exact iff_of_true ⟨om', rfl⟩ hend.1
  · rw [hrun] at hend
    constructor
    · rintro ⟨om'', hok⟩
      cases hok
    · intro hfalse
      rw [hend.1] at hfalse
      cases hfalse

/-! ## The answers to a query -/

variable {om : OrderManager} {reply : Reply} {result : SubmitResult}

theorem resolved_of_returned (hunknown : o.state = .unknown)
    (hquery : reply.query = .returned result) :
    resolved reply o quarantine =
      (applied o.intent result none reply.apply o quarantine).andThen lifted := by
  rw [resolved, if_pos hunknown, hquery]

theorem applied_of_reported (replies : ApplyReplies)
    (hrejected : result.state ≠ .rejected) (hunknown : result.state ≠ .unknown) :
    applied intent result none replies o quarantine =
      finished intent result replies
        ((o.acknowledged result).withFills
          (recordUnseen Fill.reported o.fills result.fills)) quarantine := by
  have hpriced : Priced none replies := .inl rfl
  have hdone : interrupted none replies o.fills result.fills = false := by
    simp [interrupted, hpriced]
  rw [applied, if_neg hrejected, if_neg hunknown, if_neg (by rw [hdone]; exact Bool.false_ne_true),
    recordedFills, if_pos hpriced]

theorem resolved_rejected (quarantine : List String) {reply : Reply} {result : SubmitResult}
    (hunknown : o.state = .unknown)
    (hquery : reply.query = .returned result) (hstate : result.state = .rejected) :
    ∃ o' quarantine', resolved reply o quarantine = { order := o', quarantine := quarantine' } ∧
      o'.state = .rejected ∧ o'.intent = o.intent := by
  have hlegal : .rejected ∈ legal (o.acknowledged result).state := by
    change .rejected ∈ legal o.state
    rw [hunknown]
    decide
  rw [resolved_of_returned hunknown hquery, applied, if_pos hstate, moved_of_legal (.inr hlegal)]
  exact ⟨_, _, rfl, rfl, rfl⟩

theorem resolved_unknown (quarantine : List String) {reply : Reply} {result : SubmitResult}
    (hunknown : o.state = .unknown)
    (hquery : reply.query = .returned result) (hstate : result.state = .unknown) :
    ∃ o', resolved reply o quarantine =
        { order := o', quarantine := quarantineWith quarantine o.intent.instrument } ∧
      o'.state = .unknown ∧ o'.intent = o.intent ∧ o'.fills = o.fills := by
  rw [resolved_of_returned hunknown hquery, applied, if_neg (by rw [hstate]; decide),
    if_pos hstate, movedUnknown_of_inDoubt (o := o.acknowledged result) (.inr hunknown)]
  exact ⟨_, rfl, rfl, rfl, rfl⟩

theorem resolved_unfilled (quarantine : List String) {reply : Reply} {result : SubmitResult}
    (hunknown : o.state = .unknown)
    (hquery : reply.query = .returned result) (hfilled : appliedTarget result.state ≠ .acked)
    (hfills : o.fills = [] ∧ result.fills = []) :
    ∃ o', resolved reply o quarantine =
        { order := o', quarantine := quarantineWith quarantine o.intent.instrument } ∧
      o'.state = .unknown ∧ o'.intent = o.intent ∧ o'.fills = o.fills := by
  have hnone : recordUnseen Fill.reported o.fills result.fills = [] := by
    rw [hfills.1, hfills.2]
    rfl
  rw [resolved_of_returned hunknown hquery,
    applied_of_reported reply.apply (fun h => hfilled (by rw [h]; rfl))
      (fun h => hfilled (by rw [h]; rfl)),
    finished_of_unfilled (o := (o.acknowledged result).withFills _) result reply.apply
      (.inr hunknown) hfilled hnone]
  exact ⟨_, rfl, rfl, rfl, hnone.trans hfills.1.symm⟩

theorem resolved_filled (quarantine : List String) {reply : Reply} {result : SubmitResult}
    (hunknown : o.state = .unknown)
    (hquery : reply.query = .returned result) (hfilled : appliedTarget result.state ≠ .acked)
    (hfills : ¬ (o.fills = [] ∧ result.fills = [])) :
    ∃ o' quarantine', resolved reply o quarantine = lifted o' quarantine' ∧
      o'.state = appliedTarget result.state ∧ o'.intent = o.intent ∧
      (StopRefused o.intent result → reply.apply.modifyPosition ≠ some true →
        o.intent.instrument ∈ quarantine') := by
  have hsome : recordUnseen Fill.reported o.fills result.fills ≠ [] := by
    intro hnone
    apply hfills
    constructor
    · exact List.prefix_nil.1 (hnone ▸ prefix_recordUnseen Fill.reported o.fills result.fills)
    · rw [List.eq_nil_iff_forall_not_mem]
      intro fill hfill
      have hheld : fill.reported ∈
          (recordUnseen Fill.reported o.fills result.fills).map Fill.reported :=
        key_mem_recordUnseen hfill
      rw [hnone] at hheld
      cases hheld
  obtain ⟨confirmed, quarantine', hfinished, -, hfrozen⟩ :=
    finished_of_filled (o := (o.acknowledged result).withFills _) o.intent quarantine result
      reply.apply (.inr hunknown) hfilled hsome
  rw [resolved_of_returned hunknown hquery,
    applied_of_reported reply.apply (fun h => hfilled (by rw [h]; rfl))
      (fun h => hfilled (by rw [h]; rfl)), hfinished]
  exact ⟨_, quarantine', rfl, rfl, rfl, hfrozen⟩

theorem resolved_acknowledged
    (hunknown : o.state = .unknown) (hquery : reply.query = .returned result)
    (hstate : result.state ∉ [OrderState.rejected, .unknown, .filled, .partlyFilled]) :
    (resolved reply o quarantine).raised = true := by
  simp only [List.mem_cons, List.not_mem_nil, or_false, not_or] at hstate
  obtain ⟨hrejected, hnot, hfilled, hpartly⟩ := hstate
  have hacked : appliedTarget result.state = .acked := by
    rcases hcase : result.state <;> simp_all [appliedTarget]
  have hillegal : ¬ (OrderState.acked = OrderState.unknown ∨ .acked ∈ legal .unknown) := by
    decide
  rw [resolved_of_returned hunknown hquery, applied_of_reported reply.apply hrejected hnot,
    finished_of_acked result reply.apply hacked, moved_of_illegal (by
      change ¬ (OrderState.acked = o.state ∨ .acked ∈ legal o.state)
      rw [hunknown]
      exact hillegal)]
  rfl

/-! ## A query settles its order or leaves it -/

/-- `resolve_unknown` returns; the order has gone a legal way, is in the state
the venue reported or UNKNOWN in quarantine, and has no new fill without a new
state. -/
structure Settles (c : String) (reply : Reply) (o : Order) (om : OrderManager) : Prop where
  returns : ∃ om', (resolveUnknown c reply).run om = .ok () om'
  leaves : ∃ o', (finalState (resolveUnknown c reply) om).order? c = some o' ∧
    (o'.state = o.state ∨ o'.state ∈ legal o.state) ∧
    (o'.state = o.state → o'.fills = o.fills) ∧
    ((∃ result, reply.query = .returned result ∧ o'.state = result.state) ∨
      (o'.state = .unknown ∧
        o.intent.instrument ∈ (finalState (resolveUnknown c reply) om).quarantine))

def Reply.Settling (reply : Reply) (o : Order) (quarantine : List String) : Prop :=
  match reply.query with
  | .returned result => result.state ∈ [OrderState.rejected, .unknown, .filled, .partlyFilled]
  | .notFound => o.intent.instrument ∈ quarantine
  | .brokerError _ => o.intent.instrument ∈ quarantine
  | .otherError _ => False

theorem resolveUnknown_shown (reply : Reply) (ho : om.order? c = some o)
    (hid : o.intent.clientOrderId = c) :
    ((∃ om', (resolveUnknown c reply).run om = .ok () om') ↔
        (resolved reply o om.quarantine).raised = false) ∧
      Shows c (resolved reply o om.quarantine).order (resolved reply o om.quarantine).quarantine
        (finalState (resolveUnknown c reply) om) := by
  have hshown : Shows c o om.quarantine om := ⟨ho, rfl⟩
  have hmeans : Means c (resolveUnknown c reply) o om.quarantine _ :=
    means_resolveUnknown reply hid
  exact ⟨hmeans.returns_iff hshown, hmeans.finalState hshown⟩

theorem not_settles_of_raised (ho : om.order? c = some o)
    (hid : o.intent.clientOrderId = c) (hraised : (resolved reply o om.quarantine).raised = true) :
    ¬ Settles c reply o om := by
  intro hsettles
  rw [(resolveUnknown_shown reply ho hid).1.1 hsettles.returns] at hraised
  exact Bool.false_ne_true hraised

theorem settles_of_resolved {o' : Order}
    {quarantine' : List String} (ho : om.order? c = some o) (hid : o.intent.clientOrderId = c)
    (heq : resolved reply o om.quarantine = { order := o', quarantine := quarantine' })
    (hlegal : o'.state = o.state ∨ o'.state ∈ legal o.state)
    (hfills : o'.state = o.state → o'.fills = o.fills)
    (hreported : (∃ result, reply.query = .returned result ∧ o'.state = result.state) ∨
      (o'.state = .unknown ∧ o.intent.instrument ∈ quarantine')) :
    Settles c reply o om := by
  obtain ⟨hreturns, hend, hheld⟩ := resolveUnknown_shown reply ho hid
  rw [heq] at hreturns hend hheld
  refine ⟨hreturns.2 rfl, o', hend, hlegal, hfills, ?_⟩
  rw [hheld]
  exact hreported

theorem settles_iff_of_stays (ho : om.order? c = some o)
    (hid : o.intent.clientOrderId = c) (hunknown : o.state = .unknown)
    (heq : resolved reply o om.quarantine = { order := o, quarantine := om.quarantine })
    (hquery : ∀ result, reply.query ≠ .returned result) :
    Settles c reply o om ↔ o.intent.instrument ∈ om.quarantine := by
  constructor
  · rintro ⟨-, o', -, -, -, ⟨result, hresult, -⟩ | ⟨-, hmem⟩⟩
    · exact absurd hresult (hquery result)
    · rw [(resolveUnknown_shown reply ho hid).2.2, heq] at hmem
      exact hmem
  · intro hmem
    exact settles_of_resolved ho hid heq (.inl rfl) (fun _ => rfl) (.inr ⟨hunknown, hmem⟩)

theorem appliedTarget_of_filled {state : OrderState}
    (h : state = .filled ∨ state = .partlyFilled) :
    appliedTarget state = state ∧ state ≠ .acked ∧ state ≠ .unknown ∧ state ∈ legal .unknown := by
  rcases h with rfl | rfl
  all_goals decide

theorem settles_of_filled
    (ho : om.order? c = some o) (hid : o.intent.clientOrderId = c) (hunknown : o.state = .unknown)
    (hquery : reply.query = .returned result)
    (hstate : result.state = .filled ∨ result.state = .partlyFilled) :
    Settles c reply o om := by
  obtain ⟨hsame, hnotAcked, hnotUnknown, hlegal⟩ := appliedTarget_of_filled hstate
  have hfilled : appliedTarget result.state ≠ .acked := by
    rw [hsame]
    exact hnotAcked
  by_cases hfills : o.fills = [] ∧ result.fills = []
  · obtain ⟨o', heq, hnew, -, hkept⟩ :=
      resolved_unfilled om.quarantine hunknown hquery hfilled hfills
    exact settles_of_resolved ho hid heq (.inl (hnew.trans hunknown.symm)) (fun _ => hkept)
      (.inr ⟨hnew, mem_quarantineWith.2 (.inr rfl)⟩)
  · obtain ⟨o', quarantine', heq, hnew, -, -⟩ :=
      resolved_filled om.quarantine hunknown hquery hfilled hfills
    refine settles_of_resolved ho hid heq (.inr ?_) ?_ (.inl ⟨result, hquery, hnew.trans hsame⟩)
    · rw [hnew, hsame, hunknown]
      exact hlegal
    · rw [hnew, hsame, hunknown]
      exact fun hcontra => absurd hcontra hnotUnknown

/-- A resolution settles an UNKNOWN order, or leaves it in quarantine, exactly
on the answers it can take. -/
theorem settles_iff (reply : Reply) (ho : om.order? c = some o)
    (hid : o.intent.clientOrderId = c) (hunknown : o.state = .unknown) :
    Settles c reply o om ↔ Reply.Settling reply o om.quarantine := by
  rw [Reply.Settling]
  rcases hquery : reply.query with result | - | message | message
  · by_cases hstate : result.state ∈ [OrderState.rejected, .unknown, .filled, .partlyFilled]
    · refine iff_of_true ?_ hstate
      simp only [List.mem_cons, List.not_mem_nil, or_false] at hstate
      rcases hstate with hrejected | hagain | hfilled
      · obtain ⟨o', quarantine', heq, hnew, -⟩ :=
          resolved_rejected om.quarantine hunknown hquery hrejected
        have hlegal : o'.state ∈ legal o.state := by
          rw [hnew, hunknown]
          decide
        have hmoves : o'.state ≠ o.state := by
          rw [hnew, hunknown]
          decide
        exact settles_of_resolved ho hid heq (.inr hlegal) (fun h => absurd h hmoves)
          (.inl ⟨result, hquery, hnew.trans hrejected.symm⟩)
      · obtain ⟨o', heq, hnew, -, hfills⟩ :=
          resolved_unknown om.quarantine hunknown hquery hagain
        exact settles_of_resolved ho hid heq (.inl (hnew.trans hunknown.symm)) (fun _ => hfills)
          (.inl ⟨result, hquery, hnew.trans hagain.symm⟩)
      · exact settles_of_filled ho hid hunknown hquery hfilled
    · exact iff_of_false
        (not_settles_of_raised ho hid (resolved_acknowledged hunknown hquery hstate)) hstate
  · simp only
    exact settles_iff_of_stays ho hid hunknown (by rw [resolved, if_pos hunknown, hquery])
      (by rw [hquery]; simp)
  · simp only
    exact settles_iff_of_stays ho hid hunknown (by rw [resolved, if_pos hunknown, hquery])
      (by rw [hquery]; simp)
  · refine iff_of_false (not_settles_of_raised ho hid ?_) not_false
    rw [resolved, if_pos hunknown, hquery]

def timedOutOrder : Order where
  intent := stoppedBuy
  state := .unknown
  attempts := 1
  lastError := some "timeout"

def timedOut : OrderManager :=
  finalState (submit stoppedBuy none fun _ => ⟨.unknownOutcome "timeout", .notFound, {}⟩)
    (new true 2 none)

theorem order?_timedOut : timedOut.order? "c-1" = some timedOutOrder := rfl

def wholeFill : Fill where
  venueOrderId := "v-1"
  lots := 1
  price := 3 / 2

theorem settles_filled :
    Settles "c-1" ⟨.transient "", .returned { state := .filled, fills := [wholeFill] }, {}⟩
      timedOutOrder timedOut :=
  (settles_iff _ order?_timedOut rfl rfl).2 (by
    rw [Reply.Settling]
    decide)

/-- The venue cancelled the order: the query raises, and its order stays
UNKNOWN. -/
theorem cancelled_does_not_settle :
    ¬ Settles "c-1" ⟨.transient "", .returned { state := .cancelled }, {}⟩
      timedOutOrder timedOut := by
  have hraised : (resolved ⟨.transient "", .returned { state := .cancelled }, {}⟩ timedOutOrder
      timedOut.quarantine).raised = true :=
    resolved_acknowledged rfl rfl (by decide)
  exact not_settles_of_raised order?_timedOut rfl hraised

/-! ## A fill without its stop freezes the instrument -/

def Unprotected (intent : OrderIntent) (result : SubmitResult) (replies : ApplyReplies) : Prop :=
  StopRefused intent result ∧ replies.modifyPosition ≠ some true

theorem resolved_frozen_iff (quarantine : List String) {reply : Reply} {result : SubmitResult}
    (hunknown : o.state = .unknown) (hquery : reply.query = .returned result)
    (hunprotected : Unprotected o.intent result reply.apply) :
    o.intent.instrument ∈ (resolved reply o quarantine).quarantine ↔
      ¬ (result.state = .filled ∧ ¬ (o.fills = [] ∧ result.fills = [])) := by
  obtain ⟨hrefused, hfailed⟩ := hunprotected
  by_cases hfills : o.fills = [] ∧ result.fills = []
  · obtain ⟨o', heq, -, -, -⟩ := resolved_unfilled quarantine hunknown hquery
      hrefused.1 hfills
    rw [heq]
    exact iff_of_true (mem_quarantineWith.2 (.inr rfl)) fun h => h.2 hfills
  · obtain ⟨o', quarantine', heq, hstate, hintent, hfrozen⟩ :=
      resolved_filled quarantine hunknown hquery hrefused.1 hfills
    rw [heq, lifted]
    by_cases hterminal : result.state = .filled
    · have hdone : o'.state.terminal = true := by
        rw [hstate, hterminal]
        rfl
      simp [hdone, hintent, hterminal, hfills]
    · have hpartly : result.state = .partlyFilled := by
        have hacked := hrefused.1
        revert hacked hterminal
        rcases result.state <;> simp [appliedTarget]
      have hworking : ¬ o'.state.terminal = true := by
        rw [hstate, hpartly]
        decide
      simp only [if_neg hworking]
      exact iff_of_true (hfrozen hrefused hfailed) fun h => hterminal h.1

theorem applied_frozen_iff {decisionPrice : Option Dec}
    {replies : ApplyReplies} (hsent : o.state = .sent) (hfills : o.fills = [])
    (hfree : intent.instrument ∉ quarantine) (hunprotected : Unprotected intent result replies) :
    intent.instrument ∈ (applied intent result decisionPrice replies o quarantine).quarantine ↔
      Priced decisionPrice replies ∨ result.fills = [] := by
  obtain ⟨hrefused, hfailed⟩ := hunprotected
  rw [applied, if_neg (fun h => hrefused.1 (by rw [h]; rfl)),
    if_neg (fun h => hrefused.1 (by rw [h]; rfl)), hfills]
  by_cases hdone : interrupted decisionPrice replies [] result.fills = true
  · rw [if_pos hdone, ← interrupted_nil, hdone]
    exact iff_of_false hfree Bool.noConfusion
  · rw [if_neg hdone, ← interrupted_nil]
    refine iff_of_true ?_ (Bool.eq_false_of_not_eq_true hdone)
    generalize recordedFills decisionPrice replies [] result.fills = fills
    by_cases hnone : fills = []
    · rw [finished_of_unfilled (o := (o.acknowledged result).withFills _) result replies
        (.inl hsent) hrefused.1 hnone]
      exact mem_quarantineWith.2 (.inr rfl)
    · obtain ⟨confirmed, quarantine', hfinished, -, hfrozen⟩ :=
        finished_of_filled (o := (o.acknowledged result).withFills _) intent quarantine result
          replies (.inl hsent) hrefused.1 hnone
      rw [hfinished]
      exact hfrozen hrefused hfailed

/-- An unprotected fill leaves its instrument quarantined: one that `submit`
returned, exactly where it can be priced or has no fills; one that a query
returned, inside `submit` or later, exactly where the order does not end
FILLED. -/
theorem unprotected_frozen_iff (om : OrderManager) :
    (∀ intent decisionPrice replies k result,
      intent.instrument ∉ om.quarantine → om.order? intent.clientOrderId = none →
      k ≤ om.maxRetries → TransientBefore replies 0 k →
      (replies k).submit = .returned result → Unprotected intent result (replies k).apply →
      (intent.instrument ∈
          (finalState (submit intent decisionPrice replies) om).quarantine ↔
        Priced decisionPrice (replies k).apply ∨ result.fills = [])) ∧
    (∀ intent decisionPrice replies k message result,
      intent.instrument ∉ om.quarantine → om.order? intent.clientOrderId = none →
      k ≤ om.maxRetries → TransientBefore replies 0 k →
      (replies k).submit = .unknownOutcome message → (replies k).query = .returned result →
      Unprotected intent result (replies k).apply →
      (intent.instrument ∈
          (finalState (submit intent decisionPrice replies) om).quarantine ↔
        ¬ (result.state = .filled ∧ result.fills ≠ []))) ∧
    (∀ c o reply result, om.order? c = some o → o.intent.clientOrderId = c →
      o.state = .unknown → reply.query = .returned result →
      Unprotected o.intent result reply.apply →
      (o.intent.instrument ∈ (finalState (resolveUnknown c reply) om).quarantine ↔
        ¬ (result.state = .filled ∧ ¬ (o.fills = [] ∧ result.fills = [])))) := by
  have hsubmit : ∀ (intent : OrderIntent) decisionPrice replies k,
      intent.instrument ∉ om.quarantine → om.order? intent.clientOrderId = none →
      k ≤ om.maxRetries → TransientBefore replies 0 k →
      ∃ o' retry, OnTheWire { intent } o' ∧
        (finalState (submit intent decisionPrice replies) om).quarantine =
          (answered intent decisionPrice (replies k) retry o' om.quarantine).quarantine := by
    intro intent decisionPrice replies k hfree hnew hk hbefore
    have hmeans : Means intent.clientOrderId
        (attempts intent decisionPrice replies (om.maxRetries + 1) 0) { intent } om.quarantine _ :=
      means_attempts (o := { intent }) rfl decisionPrice replies (om.maxRetries + 1) 0
    obtain ⟨o', retry, hwire, htried⟩ := tried_at (o := { intent }) intent decisionPrice
      om.quarantine (Nat.lt_succ_of_le hk) hbefore (.inr rfl)
    rw [htried, Nat.zero_add] at hmeans
    refine ⟨o', retry, hwire, ?_⟩
    rw [finalState_submit decisionPrice replies hfree hnew]
    exact (hmeans.finalState (shows_registered om intent)).2
  refine ⟨?_, ?_, ?_⟩
  · intro intent decisionPrice replies k result hfree hnew hk hbefore hreturned hunprotected
    obtain ⟨o', retry, hwire, hquarantine⟩ :=
      hsubmit intent decisionPrice replies k hfree hnew hk hbefore
    rw [hquarantine, answered, hreturned]
    exact applied_frozen_iff hwire.2.1 hwire.2.2 hfree hunprotected
  · intro intent decisionPrice replies k message result hfree hnew hk hbefore hlost hquery
      hunprotected
    obtain ⟨o', retry, ⟨hintent, hstate, hfills⟩, hquarantine⟩ :=
      hsubmit intent decisionPrice replies k hfree hnew hk hbefore
    rw [hquarantine, answered, hlost]
    simp only
    rw [movedUnknown_of_inDoubt (.inl hstate), OwnStanding.andThen_of_not_raised rfl]
    have hsame : intent = o'.intent := hintent.symm
    subst hsame
    rw [resolved_frozen_iff (o := { o' with state := .unknown, lastError := some message }) _ rfl
      hquery hunprotected]
    have hnone : o'.fills = [] := hfills
    rw [hnone, and_iff_right rfl]
  · intro c o reply result ho hid hunknown hquery hunprotected
    have hmeans : Means c (resolveUnknown c reply) o om.quarantine _ :=
      means_resolveUnknown reply hid
    rw [(hmeans.finalState ⟨ho, rfl⟩).2]
    exact resolved_frozen_iff om.quarantine hunknown hquery hunprotected

/-- A query finds the order filled and its stop refused, and the stop cannot be
asserted again: the resolution lifts the quarantine it has just set. -/
theorem naked_fill_thawed :
    Unprotected stoppedBuy { state := .filled, fills := [wholeFill], stopConfirmed := false } {} ∧
      "EUR_USD" ∈ timedOut.quarantine ∧
      "EUR_USD" ∉ (finalState (resolveUnknown "c-1" ⟨.transient "",
        .returned { state := .filled, fills := [wholeFill], stopConfirmed := false }, {}⟩)
          timedOut).quarantine := by
  refine ⟨⟨⟨by decide, by decide, by decide +kernel⟩, by decide⟩, ?_, ?_⟩
  · decide +kernel
  · decide +kernel

end OrderManager

end Sentinel
