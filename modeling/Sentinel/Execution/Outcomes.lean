import Sentinel.Execution.OwnOrder

/-!
# How a call ends

Whatever the venue answers, a submission should leave its order where a later
pass finds it, a query should leave it as the venue reported it or as it was,
and a fill without a stop should freeze its instrument.
-/

namespace Sentinel

def Order.Landed (o : Order) (quarantine : List String) : Prop :=
  o.state.terminal = true ∨ o.state = .acked ∨ o.state = .partlyFilled ∨
    (o.state = .unknown ∧ o.intent.instrument ∈ quarantine)

def Order.InDoubt (o : Order) : Prop := o.state = .sent ∨ o.state = .unknown

namespace OrderManager

variable {o : Order} {quarantine : List String} {intent : OrderIntent}

/-! ## The pieces -/

theorem moved_of_legal {new : OrderState} (h : new = o.state ∨ new ∈ legal o.state)
    (quarantine : List String) :
    moved new o quarantine = { order := { o with state := new }, quarantine } := by
  rw [moved, if_pos h]

theorem moved_of_illegal {new : OrderState} (h : ¬ (new = o.state ∨ new ∈ legal o.state))
    (quarantine : List String) :
    moved new o quarantine = { order := o, quarantine, raised := true } := by
  rw [moved, if_neg h]

theorem movedUnknown_of_inDoubt (h : o.InDoubt) :
    movedUnknown intent o quarantine =
      { order := { o with state := .unknown }
        quarantine := quarantineWith quarantine intent.instrument } := by
  have hlegal : OrderState.unknown = o.state ∨ .unknown ∈ legal o.state := by
    rcases h with hsent | hunknown
    · exact .inr (by rw [hsent]; decide)
    · exact .inl hunknown.symm
  rw [movedUnknown, moved_of_legal hlegal]
  rfl

theorem reasserted_spec (intent : OrderIntent) (result : SubmitResult) (replies : ApplyReplies)
    (o : Order) (quarantine : List String) :
    ∃ confirmed quarantine', reasserted intent result replies o quarantine =
        { order := { o with stopConfirmed := confirmed }, quarantine := quarantine' } ∧
      (∀ i ∈ quarantine, i ∈ quarantine') ∧
      (StopRefused intent result → replies.modifyPosition ≠ some true →
        intent.instrument ∈ quarantine') := by
  rw [reasserted]
  by_cases hrefused : StopRefused intent result
  · rw [if_pos hrefused]
    by_cases hdone : replies.modifyPosition = some true
    · rw [if_pos hdone]
      exact ⟨true, quarantine, rfl, fun _ hi => hi, fun _ hnot => absurd hdone hnot⟩
    · rw [if_neg hdone]
      exact ⟨false, _, rfl, fun i hi => mem_quarantineWith.2 (.inl hi),
        fun _ _ => mem_quarantineWith.2 (.inr rfl)⟩
  · rw [if_neg hrefused]
    exact ⟨o.stopConfirmed, quarantine, rfl, fun _ hi => hi,
      fun hnot => absurd hnot hrefused⟩

theorem finished_of_filled (intent : OrderIntent) (quarantine : List String)
    (result : SubmitResult) (replies : ApplyReplies)
    (h : o.InDoubt) (hfilled : appliedTarget result.state ≠ .acked) (hfills : o.fills ≠ []) :
    ∃ confirmed quarantine', finished intent result replies o quarantine =
        { order := { o with stopConfirmed := confirmed, state := appliedTarget result.state }
          quarantine := quarantine' } ∧
      (∀ i ∈ quarantine, i ∈ quarantine') ∧
      (StopRefused intent result → replies.modifyPosition ≠ some true →
        intent.instrument ∈ quarantine') := by
  obtain ⟨confirmed, quarantine', hreasserted, hkept, hfrozen⟩ :=
    reasserted_spec intent result replies o quarantine
  refine ⟨confirmed, quarantine', ?_, hkept, hfrozen⟩
  have hlegal : appliedTarget result.state ∈ legal o.state := by
    revert hfilled
    rcases h with hstate | hstate <;> rw [hstate] <;> rcases result.state <;> decide
  rw [finished, if_neg (fun hnone => hfills hnone.2), hreasserted]
  exact moved_of_legal (o := { o with stopConfirmed := confirmed }) (.inr hlegal) quarantine'

variable (result : SubmitResult) (replies : ApplyReplies)

theorem finished_of_unfilled
    (h : o.InDoubt) (hfilled : appliedTarget result.state ≠ .acked) (hfills : o.fills = []) :
    finished intent result replies o quarantine =
      { order := { o with state := .unknown }
        quarantine := quarantineWith quarantine intent.instrument } := by
  rw [finished, if_pos ⟨hfilled, hfills⟩, movedUnknown_of_inDoubt h]

theorem finished_of_acked (hacked : appliedTarget result.state = .acked) :
    finished intent result replies o quarantine = moved .acked o quarantine := by
  have hrefused : ¬ StopRefused intent result := fun h => h.1 hacked
  rw [finished, if_neg (fun hnone => hnone.1 hacked), reasserted, if_neg hrefused, hacked]
  rfl

/-! ## A submission leaves no order behind -/

theorem finished_landed (hintent : o.intent = intent)
    (h : o.state = .sent ∨ (o.state = .unknown ∧ intent.instrument ∈ quarantine)) :
    (finished intent result replies o quarantine).order.Landed
      (finished intent result replies o quarantine).quarantine := by
  have hdoubt : o.InDoubt := h.imp_right And.left
  by_cases hacked : appliedTarget result.state = .acked
  · rw [finished_of_acked result replies hacked]
    rcases h with hsent | ⟨hunknown, hheld⟩
    · rw [moved_of_legal (.inr (by rw [hsent]; decide))]
      exact .inr (.inl rfl)
    · rw [moved_of_illegal (by rw [hunknown]; decide)]
      exact .inr (.inr (.inr ⟨hunknown, by rw [hintent]; exact hheld⟩))
  · by_cases hfills : o.fills = []
    · rw [finished_of_unfilled result replies hdoubt hacked hfills]
      refine .inr (.inr (.inr ⟨rfl, ?_⟩))
      change o.intent.instrument ∈ _
      rw [hintent]
      exact mem_quarantineWith.2 (.inr rfl)
    · obtain ⟨confirmed, quarantine', hfinished, -, -⟩ :=
        finished_of_filled intent quarantine result replies hdoubt hacked hfills
      rw [hfinished]
      revert hacked
      rcases hstate : result.state <;> simp [appliedTarget, Order.Landed, OrderState.terminal]

theorem applied_landed (decisionPrice : Option Dec)
    (replies : ApplyReplies) (hintent : o.intent = intent)
    (h : o.state = .sent ∨ (o.state = .unknown ∧ intent.instrument ∈ quarantine))
    (hdone : result.state = .rejected ∨ result.state = .unknown ∨
      interrupted decisionPrice replies o.fills result.fills = false) :
    (applied intent result decisionPrice replies o quarantine).order.Landed
      (applied intent result decisionPrice replies o quarantine).quarantine := by
  have hdoubt : (o.acknowledged result).InDoubt := h.imp_right And.left
  rw [applied]
  by_cases hrejected : result.state = .rejected
  · have hlegal : .rejected ∈ legal (o.acknowledged result).state := by
      rcases hdoubt with hstate | hstate <;> rw [hstate] <;> decide
    rw [if_pos hrejected, moved_of_legal (.inr hlegal)]
    exact .inl rfl
  rw [if_neg hrejected]
  by_cases hunknown : result.state = .unknown
  · rw [if_pos hunknown, movedUnknown_of_inDoubt hdoubt]
    refine .inr (.inr (.inr ⟨rfl, ?_⟩))
    change o.intent.instrument ∈ _
    rw [hintent]
    exact mem_quarantineWith.2 (.inr rfl)
  rw [if_neg hunknown, if_neg (by
    rw [(hdone.resolve_left hrejected).resolve_left hunknown]
    exact Bool.false_ne_true)]
  exact finished_landed result replies hintent h

theorem resolved_landed (reply : Reply) (hunknown : o.state = .unknown)
    (hheld : o.intent.instrument ∈ quarantine) :
    (resolved reply o quarantine).order.Landed (resolved reply o quarantine).quarantine := by
  have hstays : o.Landed quarantine := .inr (.inr (.inr ⟨hunknown, hheld⟩))
  rw [resolved, if_pos hunknown]
  rcases reply.query with result | - | message | message <;> simp only
  · have hlanded := applied_landed result none reply.apply rfl (.inr ⟨hunknown, hheld⟩)
      (.inr (.inr (by simp [interrupted, Priced])))
    generalize applied o.intent result none reply.apply o quarantine = s at hlanded
    rcases s with ⟨order, held, - | -⟩
    · -- lifting the quarantine of a terminal order leaves it terminal
      rw [OwnStanding.andThen_of_not_raised rfl, lifted]
      by_cases hterminal : order.state.terminal = true
      · exact .inl hterminal
      · rw [if_neg hterminal]
        exact hlanded
    · exact hlanded
  · exact hstays
  · exact hstays
  · exact hstays

/-- The answer of an attempt that `submit` can take: not an exception outside
the families it names, and not a fill that cannot be priced. -/
def TakenIn (decisionPrice : Option Dec) (reply : Reply) : Prop :=
  match reply.submit with
  | .otherError _ => False
  | .returned result =>
      result.state = .rejected ∨ result.state = .unknown ∨ Priced decisionPrice reply.apply ∨
        result.fills = []
  | _ => True

/-- Every attempt before this one failed in a way that is tried again. -/
def TransientBefore (replies : ℕ → Reply) (first k : ℕ) : Prop :=
  ∀ j < k, ∃ message, (replies (first + j)).submit = .transient message

variable {decisionPrice : Option Dec}

theorem interrupted_nil {replies : ApplyReplies}
    {reported : List Fill} :
    interrupted decisionPrice replies [] reported = false ↔
      Priced decisionPrice replies ∨ reported = [] := by
  rw [interrupted]
  by_cases hpriced : Priced decisionPrice replies
  · simp [hpriced]
  · rcases reported with - | ⟨fill, fills⟩
    · simp [recordUnseen]
    · obtain ⟨later, hlater⟩ := prefix_recordUnseen Fill.reported [fill] fills
      simp [hpriced, recordUnseen, ← hlater]

theorem answered_landed_iff {reply : Reply}
    {retry : Order → List String → OwnStanding} (hintent : o.intent = intent)
    (hstate : o.state = .sent) (hfills : o.fills = [])
    (hdecisive : ∀ message, reply.submit ≠ .transient message) :
    (answered intent decisionPrice reply retry o quarantine).order.Landed
        (answered intent decisionPrice reply retry o quarantine).quarantine ↔
      TakenIn decisionPrice reply := by
  have hheld : ∀ o' : Order, o'.intent = o.intent →
      o'.intent.instrument ∈ quarantineWith quarantine intent.instrument := by
    intro o' hsame
    rw [hsame, hintent]
    exact mem_quarantineWith.2 (.inr rfl)
  rw [answered, TakenIn]
  rcases hsubmit : reply.submit with result | message | message | message | message | message <;>
    simp only
  · constructor
    · intro hlanded
      by_contra hnot
      simp only [not_or] at hnot
      obtain ⟨hrejected, hunknown, hpriced, hreported⟩ := hnot
      have hinterrupted : interrupted decisionPrice reply.apply [] result.fills = true := by
        by_contra hdone
        exact (interrupted_nil.1 (Bool.eq_false_of_not_eq_true hdone)).elim hpriced hreported
      rw [applied, if_neg hrejected, if_neg hunknown, hfills, if_pos hinterrupted] at hlanded
      simp [Order.Landed, Order.withFills, Order.acknowledged, OrderState.terminal,
        hstate] at hlanded
    · intro htaken
      apply applied_landed result decisionPrice reply.apply hintent (.inl hstate)
      rw [hfills, interrupted_nil]
      exact htaken
  · rw [movedUnknown_of_inDoubt (.inl hstate), OwnStanding.andThen_of_not_raised rfl]
    exact iff_of_true (resolved_landed reply rfl (hheld _ rfl)) trivial
  · exact absurd hsubmit (hdecisive message)
  · rw [moved_of_legal (.inr (by rw [hstate]; decide))]
    exact iff_of_true (.inl rfl) trivial
  · rw [movedUnknown_of_inDoubt (o := { o with lastError := some message }) (.inl hstate)]
    exact iff_of_true (.inr (.inr (.inr ⟨rfl, hheld _ rfl⟩))) trivial
  · refine iff_of_false ?_ not_false
    simp [Order.Landed, OrderState.terminal, hstate]

def OnTheWire (o o' : Order) : Prop :=
  o'.intent = o.intent ∧ o'.state = .sent ∧ o'.fills = o.fills

theorem tried_succ (intent : OrderIntent) (decisionPrice : Option Dec) (replies : ℕ → Reply)
    (quarantine : List String) (left attempt : ℕ)
    (hstate : o.state = .sent ∨ o.state = .pending) :
    ∃ o', OnTheWire o o' ∧
      tried intent decisionPrice replies (left + 1) attempt o quarantine =
        answered intent decisionPrice (replies attempt)
          (tried intent decisionPrice replies left (attempt + 1)) o' quarantine := by
  have hlegal : OrderState.sent = o.state ∨ .sent ∈ legal o.state := by
    rcases hstate with hsent | hpending
    · exact .inl hsent.symm
    · exact .inr (by rw [hpending]; decide)
  refine ⟨{ o with attempts := attempt + 1, state := .sent }, ⟨rfl, rfl, rfl⟩, ?_⟩
  rw [tried, moved_of_legal (o := { o with attempts := attempt + 1 }) hlegal,
    OwnStanding.andThen_of_not_raised rfl]

theorem tried_at (intent : OrderIntent) (decisionPrice : Option Dec)
    (quarantine : List String) {replies : ℕ → Reply} {left attempt k : ℕ}
    (hk : k < left) (hbefore : TransientBefore replies attempt k)
    (hstate : o.state = .sent ∨ o.state = .pending) :
    ∃ o' retry, OnTheWire o o' ∧
      tried intent decisionPrice replies left attempt o quarantine =
        answered intent decisionPrice (replies (attempt + k)) retry o' quarantine := by
  induction left generalizing attempt k o with
  | zero => exact absurd hk (Nat.not_lt_zero k)
  | succ left ih =>
      obtain ⟨o', hwire, htried⟩ :=
        tried_succ intent decisionPrice replies quarantine left attempt hstate
      rcases k with - | k
      · exact ⟨o', _, hwire, htried⟩
      · obtain ⟨message, hmessage⟩ := hbefore 0 (Nat.succ_pos k)
        rw [Nat.add_zero] at hmessage
        rw [answered, hmessage] at htried
        have hlater : TransientBefore replies (attempt + 1) k := by
          intro j hj
          rw [Nat.add_right_comm]
          exact hbefore (j + 1) (Nat.succ_lt_succ hj)
        obtain ⟨o'', retry, hwire', hrest⟩ := ih (o := { o' with lastError := some message })
          (Nat.succ_lt_succ_iff.1 hk) hlater (.inl hwire.2.1)
        refine ⟨o'', retry, ?_, ?_⟩
        · exact ⟨hwire'.1.trans hwire.1, hwire'.2.1, hwire'.2.2.trans hwire.2.2⟩
        · rw [Nat.add_right_comm, Nat.add_assoc] at hrest
          exact htried.trans hrest

theorem tried_exhausted (intent : OrderIntent) (decisionPrice : Option Dec)
    (quarantine : List String) {replies : ℕ → Reply} {left attempt : ℕ}
    (hall : TransientBefore replies attempt left)
    (hstate : o.state = .sent ∨ (o.state = .pending ∧ 0 < left)) :
    ∃ o', OnTheWire o o' ∧ tried intent decisionPrice replies left attempt o quarantine =
      movedUnknown intent o' quarantine := by
  induction left generalizing attempt o with
  | zero =>
      have hsent : o.state = .sent := hstate.resolve_right fun h => absurd h.2 (lt_irrefl 0)
      exact ⟨o, ⟨rfl, hsent, rfl⟩, rfl⟩
  | succ left ih =>
      obtain ⟨o', hwire, htried⟩ :=
        tried_succ intent decisionPrice replies quarantine left attempt
          (hstate.imp_right And.left)
      obtain ⟨message, hmessage⟩ := hall 0 (Nat.succ_pos left)
      rw [Nat.add_zero] at hmessage
      rw [answered, hmessage] at htried
      have hlater : TransientBefore replies (attempt + 1) left := by
        intro j hj
        rw [Nat.add_right_comm]
        exact hall (j + 1) (Nat.succ_lt_succ hj)
      obtain ⟨o'', hwire', hrest⟩ := ih (o := { o' with lastError := some message }) hlater
        (.inl hwire.2.1)
      exact ⟨o'', ⟨hwire'.1.trans hwire.1, hwire'.2.1, hwire'.2.2.trans hwire.2.2⟩,
        htried.trans hrest⟩

theorem exists_decisive (replies : ℕ → Reply) (first left : ℕ) :
    (∃ k < left, TransientBefore replies first k ∧
        ∀ message, (replies (first + k)).submit ≠ .transient message) ∨
      TransientBefore replies first left := by
  induction left with
  | zero => exact .inr fun j hj => absurd hj (Nat.not_lt_zero j)
  | succ left ih =>
      rcases ih with ⟨k, hk, hdecisive⟩ | hall
      · exact .inl ⟨k, hk.trans (Nat.lt_succ_self left), hdecisive⟩
      · by_cases hlast : ∃ message, (replies (first + left)).submit = .transient message
        · right
          intro j hj
          rcases Nat.lt_succ_iff_lt_or_eq.1 hj with hlt | rfl
          · exact hall j hlt
          · exact hlast
        · exact .inl ⟨left, Nat.lt_succ_self left, hall,
            fun message hmessage => hlast ⟨message, hmessage⟩⟩

theorem tried_landed_iff {replies : ℕ → Reply}
    (left attempt : ℕ) (hintent : o.intent = intent)
    (hstate : o.state = .sent ∨ (o.state = .pending ∧ 0 < left)) (hfills : o.fills = []) :
    (tried intent decisionPrice replies left attempt o quarantine).order.Landed
        (tried intent decisionPrice replies left attempt o quarantine).quarantine ↔
      ∀ k < left, TransientBefore replies attempt k →
        TakenIn decisionPrice (replies (attempt + k)) := by
  have htransient : ∀ k message, (replies (attempt + k)).submit = .transient message →
      TakenIn decisionPrice (replies (attempt + k)) := by
    intro k message hmessage
    rw [TakenIn, hmessage]
    trivial
  rcases exists_decisive replies attempt left with ⟨k, hk, hbefore, hdecisive⟩ | hall
  · obtain ⟨o', retry, hwire, htried⟩ :=
      tried_at intent decisionPrice quarantine hk hbefore (hstate.imp_right And.left)
    rw [htried, answered_landed_iff (hwire.1.trans hintent) hwire.2.1 (hwire.2.2.trans hfills)
      hdecisive]
    constructor
    · intro htaken k' _ hbefore'
      rcases lt_trichotomy k' k with hlt | rfl | hgt
      · obtain ⟨message, hmessage⟩ := hbefore k' hlt
        exact htransient k' message hmessage
      · exact htaken
      · obtain ⟨message, hmessage⟩ := hbefore' k hgt
        exact absurd hmessage (hdecisive message)
    · intro htaken
      exact htaken k hk hbefore
  · obtain ⟨o', hwire, htried⟩ :=
      tried_exhausted intent decisionPrice quarantine hall hstate
    rw [htried, movedUnknown_of_inDoubt (.inl hwire.2.1)]
    refine iff_of_true (.inr (.inr (.inr ⟨rfl, ?_⟩))) ?_
    · change o'.intent.instrument ∈ _
      rw [hwire.1, hintent]
      exact mem_quarantineWith.2 (.inr rfl)
    · intro k hk _
      obtain ⟨message, hmessage⟩ := hall k hk
      exact htransient k message hmessage

def Found (c : String) (om : OrderManager) : Prop :=
  ∃ o, om.order? c = some o ∧ o.Landed om.quarantine

theorem found_iff {c : String} {om : OrderManager} (h : Shows c o quarantine om) :
    Found c om ↔ o.Landed quarantine := by
  obtain ⟨ho, hq⟩ := h
  rw [← hq]
  constructor
  · rintro ⟨o', ho', hlanded⟩
    cases ho.symm.trans ho'
    exact hlanded
  · intro hlanded
    exact ⟨o, ho, hlanded⟩

theorem finalState_submit {om : OrderManager} (decisionPrice : Option Dec) (replies : ℕ → Reply)
    (hfree : intent.instrument ∉ om.quarantine) (hnew : om.order? intent.clientOrderId = none) :
    finalState (submit intent decisionPrice replies) om =
      finalState (attempts intent decisionPrice replies (om.maxRetries + 1) 0)
        (om.registered intent) := by
  rcases register_cases intent om with ⟨hheld, -⟩ | ⟨-, hknown, -⟩ | ⟨-, -, hregister⟩
  · exact absurd hheld hfree
  · rw [hnew] at hknown
    cases hknown
  · have hplace : (place intent decisionPrice replies .fresh).run (om.registered intent) =
        (attempts intent decisionPrice replies (om.maxRetries + 1) 0).run
          (om.registered intent) := rfl
    rw [submit, finalState_bind, hregister]
    simp only [finalState_bind, hplace]
    rw [finalState]
    rcases (attempts intent decisionPrice replies (om.maxRetries + 1) 0).run
      (om.registered intent) with ⟨u, om'⟩ | ⟨e, om'⟩
    · rfl
    · rfl

theorem shows_registered (om : OrderManager) (intent : OrderIntent) :
    Shows intent.clientOrderId { intent } om.quarantine (om.registered intent) :=
  ⟨by rw [order?_registered, if_pos rfl], rfl⟩

/-- A new order is found after `submit`, returned or raised, exactly when the
first answer that is not tried again can be taken. -/
theorem submit_found_iff {om : OrderManager} (intent : OrderIntent) (decisionPrice : Option Dec)
    (replies : ℕ → Reply) (hfree : intent.instrument ∉ om.quarantine)
    (hnew : om.order? intent.clientOrderId = none) :
    Found intent.clientOrderId (finalState (submit intent decisionPrice replies) om) ↔
      ∀ k ≤ om.maxRetries, TransientBefore replies 0 k → TakenIn decisionPrice (replies k) := by
  have hmeans : Means intent.clientOrderId
      (attempts intent decisionPrice replies (om.maxRetries + 1) 0) { intent } om.quarantine _ :=
    means_attempts (o := { intent }) rfl decisionPrice replies (om.maxRetries + 1) 0
  rw [finalState_submit decisionPrice replies hfree hnew,
    found_iff (hmeans.finalState (shows_registered om intent)),
    tried_landed_iff (om.maxRetries + 1) 0 rfl (.inr ⟨rfl, Nat.succ_pos _⟩) rfl]
  simp only [Nat.lt_succ_iff, Nat.zero_add]

def stoppedBuy : OrderIntent where
  toIntentFields :=
    { clientOrderId := "c-1", strategy := "trend", instrument := "EUR_USD", side := .buy,
      lots := 1, stopLoss := some 1, takeProfit := some 2 }
  accepted := by decide +kernel

/-- A rate limit is tried again, and the second attempt times out. -/
theorem submit_found_timeout :
    Found "c-1" (finalState (submit stoppedBuy none fun k =>
      ⟨if k = 0 then .transient "rate limited" else .unknownOutcome "timeout", .notFound, {}⟩)
        (new true 2 none)) := by
  apply (submit_found_iff stoppedBuy none _ (by decide) (by decide)).2
  intro k _ _
  rw [TakenIn]
  rcases k with - | k
  · trivial
  · trivial

/-- The venue refuses the credentials: the order stays sent, and nothing is
quarantined. -/
theorem credentials_refused_leaves_sent :
    ((finalState (submit stoppedBuy none fun _ =>
        ⟨.otherError "OANDA rejected the credentials", .notFound, {}⟩)
        (new true 2 none)).order? "c-1").map Order.state = some .sent ∧
      (finalState (submit stoppedBuy none fun _ =>
        ⟨.otherError "OANDA rejected the credentials", .notFound, {}⟩)
        (new true 2 none)).quarantine = [] ∧
      ¬ Found "c-1" (finalState (submit stoppedBuy none fun _ =>
        ⟨.otherError "OANDA rejected the credentials", .notFound, {}⟩) (new true 2 none)) := by
  have hstate : ((finalState (submit stoppedBuy none fun _ =>
      ⟨.otherError "OANDA rejected the credentials", .notFound, {}⟩)
      (new true 2 none)).order? "c-1").map Order.state = some .sent := by
    decide +kernel
  refine ⟨hstate, by decide +kernel, ?_⟩
  rintro ⟨o, ho, hlanded⟩
  rw [ho, Option.map_some, Option.some.injEq] at hstate
  simp [Order.Landed, OrderState.terminal, hstate] at hlanded

end OrderManager

end Sentinel
