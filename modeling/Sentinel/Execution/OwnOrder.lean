import Sentinel.Execution.Accounted
import Sentinel.Support.Recording

/-!
# What a result means for its order

A piece of a call works on one order and on the quarantine.  What it leaves of
these two, and whether it raises, is a function of them: the functions below
follow the methods of the order manager, and each method is shown to do what
its function says.
-/

namespace Sentinel

def Fill.reported (f : Fill) : String × Dec × Dec := (f.venueOrderId, f.lots, f.price)

def Order.acknowledged (o : Order) (result : SubmitResult) : Order :=
  { o with venueOrderId := result.venueOrderId.or o.venueOrderId }

def Order.withFills (o : Order) (fills : List Fill) : Order := { o with fills := fills }

structure OwnStanding where
  order : Order
  quarantine : List String
  raised : Bool := false

namespace OwnStanding

def andThen (s : OwnStanding) (next : Order → List String → OwnStanding) : OwnStanding :=
  if s.raised then s else next s.order s.quarantine

theorem andThen_of_raised {s : OwnStanding} (h : s.raised = true)
    (next : Order → List String → OwnStanding) : s.andThen next = s :=
  if_pos h

theorem andThen_of_not_raised {s : OwnStanding} (h : s.raised = false)
    (next : Order → List String → OwnStanding) :
    s.andThen next = next s.order s.quarantine := by
  rw [andThen, if_neg (by rw [h]; exact Bool.false_ne_true)]

theorem andThen_assoc (s : OwnStanding) (next last : Order → List String → OwnStanding) :
    (s.andThen next).andThen last =
      s.andThen fun o quarantine => (next o quarantine).andThen last := by
  rcases s with ⟨o, quarantine, - | -⟩
  · rfl
  · rfl

end OwnStanding

namespace OrderManager

/-! ## The functions -/

section Meaning

variable (intent : OrderIntent) (result : SubmitResult) (decisionPrice : Option Dec)
    (replies : ApplyReplies)

def quarantineWith (quarantine : List String) (instrument : String) : List String :=
  if instrument ∈ quarantine then quarantine else quarantine ++ [instrument]

theorem mem_quarantineWith {quarantine : List String} {instrument i : String} :
    i ∈ quarantineWith quarantine instrument ↔ i ∈ quarantine ∨ i = instrument := by
  rw [quarantineWith]
  by_cases h : instrument ∈ quarantine
  · rw [if_pos h]
    constructor
    · exact .inl
    · rintro (hi | rfl)
      · exact hi
      · exact h
  · rw [if_neg h, List.mem_append, List.mem_singleton]

/-- `_transition`. -/
def moved (new : OrderState) (o : Order) (quarantine : List String) : OwnStanding :=
  if new = o.state ∨ new ∈ legal o.state then ⟨{ o with state := new }, quarantine, false⟩
  else ⟨o, quarantine, true⟩

def movedUnknown (o : Order) (quarantine : List String) : OwnStanding :=
  (moved .unknown o quarantine).andThen fun o quarantine =>
    { order := o, quarantine := quarantineWith quarantine intent.instrument }

/-- The slippage of a fill can be computed. -/
def Priced : Prop := decisionPrice = none ∨ replies.instrument ≠ none

instance : Decidable (Priced decisionPrice replies) := by
  rw [Priced]
  infer_instance

def recordedFills (fills : List Fill) (reported : List Fill) : List Fill :=
  if Priced decisionPrice replies then recordUnseen Fill.reported fills reported
  else (recordUnseen Fill.reported fills reported).take (fills.length + 1)

def interrupted (fills : List Fill) (reported : List Fill) : Bool :=
  !decide (Priced decisionPrice replies) &&
    decide (recordUnseen Fill.reported fills reported ≠ fills)

def StopRefused : Prop :=
  appliedTarget result.state ≠ .acked ∧ ¬ result.stopConfirmed ∧ intent.stopLoss ≠ none

instance : Decidable (StopRefused intent result) := by
  rw [StopRefused]
  infer_instance

def reasserted (o : Order) (quarantine : List String) : OwnStanding :=
  if StopRefused intent result then
    if replies.modifyPosition = some true then
      { order := { o with stopConfirmed := true }, quarantine }
    else
      { order := { o with stopConfirmed := false }
        quarantine := quarantineWith quarantine intent.instrument }
  else { order := o, quarantine }

/-- The part of `_apply_result` after the fills were recorded. -/
def finished (o : Order) (quarantine : List String) : OwnStanding :=
  if appliedTarget result.state ≠ .acked ∧ o.fills = [] then movedUnknown intent o quarantine
  else (reasserted intent result replies o quarantine).andThen (moved (appliedTarget result.state))

/-- `_apply_result`. -/
def applied (o : Order) (quarantine : List String) : OwnStanding :=
  if result.state = .rejected then
    (moved .rejected (o.acknowledged result) quarantine).andThen fun o quarantine =>
      { order := { o with rejectReason := result.rejectReason }, quarantine }
  else if result.state = .unknown then movedUnknown intent (o.acknowledged result) quarantine
  else
    let filled := (o.acknowledged result).withFills
      (recordedFills decisionPrice replies o.fills result.fills)
    if interrupted decisionPrice replies o.fills result.fills then ⟨filled, quarantine, true⟩
    else finished intent result replies filled quarantine

/-- The last block of `resolve_unknown`. -/
def lifted (o : Order) (quarantine : List String) : OwnStanding where
  order := o
  quarantine :=
    if o.state.terminal then quarantine.filter fun i => i ≠ o.intent.instrument else quarantine

/-- `resolve_unknown`. -/
def resolved (reply : Reply) (o : Order) (quarantine : List String) : OwnStanding :=
  if o.state = .unknown then
    match reply.query with
    | .returned result => (applied o.intent result none reply.apply o quarantine).andThen lifted
    | .notFound => { order := o, quarantine }
    | .brokerError _ => { order := o, quarantine }
    | .otherError _ => { order := o, quarantine, raised := true }
  else { order := o, quarantine }

/-- What `submit` makes of the answer to an attempt; `retry` is the rest of its
loop. -/
def answered (reply : Reply) (retry : Order → List String → OwnStanding) (o : Order)
    (quarantine : List String) : OwnStanding :=
  match reply.submit with
  | .returned result => applied intent result decisionPrice reply.apply o quarantine
  | .unknownOutcome message =>
      (movedUnknown intent o quarantine).andThen fun o quarantine =>
        resolved reply { o with lastError := some message } quarantine
  | .transient message => retry { o with lastError := some message } quarantine
  | .permanent message =>
      (moved .rejected o quarantine).andThen fun o quarantine =>
        { order := { o with rejectReason := some message }, quarantine }
  | .brokerError message => movedUnknown intent { o with lastError := some message } quarantine
  | .otherError _ => { order := o, quarantine, raised := true }

/-- The retry loop of `submit`. -/
def tried (replies : ℕ → Reply) : (left attempt : ℕ) → Order → List String → OwnStanding
  | 0, _, o, quarantine => movedUnknown intent o quarantine
  | left + 1, attempt, o, quarantine =>
      (moved .sent { o with attempts := attempt + 1 } quarantine).andThen
        (answered intent decisionPrice (replies attempt) (tried replies left (attempt + 1)))

end Meaning

/-! ## The methods do what the functions say -/

/-- The order under `c` and the quarantine. -/
def Shows (c : String) (o : Order) (quarantine : List String) (om : OrderManager) : Prop :=
  om.order? c = some o ∧ om.quarantine = quarantine

def Means (c : String) (p : OmsM Unit) (o : Order) (quarantine : List String)
    (s : OwnStanding) : Prop :=
  Ends (Shows c o quarantine) p
    (fun _ om => s.raised = false ∧ Shows c s.order s.quarantine om)
    (fun om => s.raised = true ∧ Shows c s.order s.quarantine om)

section Pieces

variable {c : String} {o : Order} {quarantine : List String} {p p' : OmsM Unit}

variable {s : OwnStanding}

theorem Means.bind {next : Order → List String → OwnStanding}
    (h : Means c p o quarantine s)
    (h' : Means c p' s.order s.quarantine (next s.order s.quarantine)) :
    Means c (p >>= fun _ => p') o quarantine (s.andThen next) := by
  intro om hom
  have hfirst := h om hom
  rw [run_bind]
  rcases hrun : p.run om with ⟨u, om'⟩ | ⟨e, om'⟩
  · rw [hrun] at hfirst
    rw [OwnStanding.andThen_of_not_raised hfirst.1]
    exact h' om' hfirst.2
  · rw [hrun] at hfirst
    rw [OwnStanding.andThen_of_raised hfirst.1]
    exact hfirst

theorem Means.then {s t : OwnStanding} (h : Means c p o quarantine s)
    (hraised : s.raised = false) (h' : Means c p' s.order s.quarantine t) :
    Means c (p >>= fun _ => p') o quarantine t := by
  have hbind : Means c (p >>= fun _ => p') o quarantine (s.andThen fun _ _ => t) := h.bind h'
  rwa [OwnStanding.andThen_of_not_raised hraised] at hbind

theorem Means.stops (h : Means c p o quarantine s)
    (hraised : s.raised = true) (p' : OmsM Unit) :
    Means c (p >>= fun _ => p') o quarantine s := by
  intro om hom
  have hfirst := h om hom
  rw [run_bind]
  rcases hrun : p.run om with ⟨u, om'⟩ | ⟨e, om'⟩
  · rw [hrun, hraised] at hfirst
    exact absurd hfirst.1.symm Bool.false_ne_true
  · rw [hrun] at hfirst
    exact hfirst

theorem Means.finalState {p : OmsM Unit} {s : OwnStanding} (h : Means c p o quarantine s)
    {om : OrderManager} (hom : Shows c o quarantine om) :
    Shows c s.order s.quarantine (finalState p om) := by
  have hend := h om hom
  rw [Sentinel.finalState]
  rcases hrun : p.run om with ⟨u, om'⟩ | ⟨e, om'⟩
  · rw [hrun] at hend
    exact hend.2
  · rw [hrun] at hend
    exact hend.2

theorem means_pure : Means c (pure ()) o quarantine { order := o, quarantine } :=
  Ends.pure fun _ h => ⟨rfl, h⟩

theorem means_journalEvent (event : EventType) (c' : Option String) :
    Means c (journalEvent event c') o quarantine { order := o, quarantine } :=
  Ends.modify fun _ h => ⟨rfl, h⟩

theorem means_modifyOrder (f : Order → Order) :
    Means c (modifyOrder c f) o quarantine { order := f o, quarantine } := by
  refine Ends.modify fun om h => ⟨rfl, ?_, h.2⟩
  rw [order?_adjust, if_pos rfl, h.1]
  rfl

theorem means_addQuarantine (instrument : String) :
    Means c (addQuarantine instrument) o quarantine
      { order := o, quarantine := quarantineWith quarantine instrument } := by
  refine Ends.modify fun om h => ⟨rfl, h.1, ?_⟩
  rw [← h.2]
  rfl

theorem means_transition (new : OrderState) :
    Means c (transition c new) o quarantine (moved new o quarantine) := by
  rintro om ⟨ho, hq⟩
  rcases transition_cases c new om with ⟨hnone, -⟩ | ⟨o', ho', hsame, hrun⟩ |
      ⟨o', ho', hlegal, hrun⟩ | ⟨o', ho', hne, hillegal, hrun⟩
  · cases hnone.symm.trans ho
  · cases ho'.symm.trans ho
    rw [hrun, moved, if_pos (.inl hsame), hsame]
    exact ⟨rfl, ho, hq⟩
  · cases ho'.symm.trans ho
    rw [hrun, moved, if_pos (.inr hlegal)]
    refine ⟨rfl, ?_, hq⟩
    rw [order?_withState, if_pos rfl, ho]
    rfl
  · cases ho'.symm.trans ho
    rw [hrun, moved, if_neg (not_or.2 ⟨hne, hillegal⟩)]
    exact ⟨rfl, ho, hq⟩

theorem means_markUnknown (intent : OrderIntent) :
    Means c (markUnknown c intent.instrument) o quarantine
      (movedUnknown intent o quarantine) :=
  (means_transition .unknown).bind (means_addQuarantine intent.instrument)

theorem Means.followed (h : Means c p o quarantine s)
    (h' : ∀ o quarantine, Means c p' o quarantine { order := o, quarantine }) :
    Means c (p >>= fun _ => p') o quarantine s := by
  have hbind : Means c (p >>= fun _ => p') o quarantine
      (s.andThen fun o quarantine => { order := o, quarantine }) := h.bind (h' _ _)
  rw [OwnStanding.andThen] at hbind
  rcases s with ⟨order, held, - | -⟩
  · exact hbind
  · exact hbind

theorem Means.journalled (h : Means c p o quarantine s)
    (event : EventType) (c' : Option String) :
    Means c (p >>= fun _ => journalEvent event c') o quarantine s :=
  h.followed fun _ _ => means_journalEvent event c'

theorem Means.ite {s t : OwnStanding} {cond : Prop} [Decidable cond]
    (h : cond → Means c p o quarantine s) (h' : ¬ cond → Means c p' o quarantine t) :
    Means c (if cond then p else p') o quarantine (if cond then s else t) := by
  by_cases hcond : cond
  · rw [if_pos hcond, if_pos hcond]
    exact h hcond
  · rw [if_neg hcond, if_neg hcond]
    exact h' hcond

theorem Means.read {p : OrderManager → OmsM Unit} {s : OwnStanding}
    (h : ∀ om, Shows c o quarantine om → Means c (p om) o quarantine s) :
    Means c (get >>= p) o quarantine s :=
  Ends.bind_get_of h

theorem alreadyApplied_iff (o : Order) (fill : Fill) :
    alreadyApplied o fill = true ↔ fill.reported ∈ o.fills.map Fill.reported := by
  simp [alreadyApplied, Fill.reported, List.mem_map]

section Fills

variable (intent : OrderIntent) (decisionPrice : Option Dec) (replies : ApplyReplies)

theorem slippage_of_priced {decisionPrice : Option Dec} {replies : ApplyReplies}
    (h : Priced decisionPrice replies) (fill : Fill) :
    ∃ slip, slippage intent decisionPrice replies fill = .ok slip := by
  unfold slippage
  rcases decisionPrice with - | price
  · exact ⟨_, rfl⟩
  · obtain ⟨inst, hinst⟩ := Option.ne_none_iff_exists'.1 (h.resolve_left (Option.some_ne_none _))
    simp only [hinst]
    exact ⟨_, rfl⟩

theorem slippage_of_not_priced {decisionPrice : Option Dec} {replies : ApplyReplies}
    (h : ¬ Priced decisionPrice replies) (fill : Fill) :
    slippage intent decisionPrice replies fill =
      .error (.unknownInstrument intent.instrument) := by
  rw [Priced, not_or, not_not] at h
  obtain ⟨price, hprice⟩ := Option.ne_none_iff_exists'.1 h.1
  unfold slippage
  simp only [hprice, h.2]

theorem means_applyFill (fill : Fill) :
    Means c (applyFill c intent decisionPrice replies fill) o quarantine
      (if fill.reported ∈ o.fills.map Fill.reported then { order := o, quarantine }
        else
          { order := { o with fills := o.fills ++ [fill] }, quarantine
            raised := !decide (Priced decisionPrice replies) }) := by
  apply Means.read
  rintro om ⟨ho, -⟩
  simp only [ho]
  by_cases hknown : fill.reported ∈ o.fills.map Fill.reported
  · rw [if_pos ((alreadyApplied_iff o fill).2 hknown), if_pos hknown]
    exact means_pure
  · rw [if_neg fun h => hknown ((alreadyApplied_iff o fill).1 h), if_neg hknown]
    apply Means.then (means_modifyOrder _) rfl
    by_cases hpriced : Priced decisionPrice replies
    · obtain ⟨slip, hslip⟩ := slippage_of_priced intent hpriced fill
      simp only [hslip, hpriced, decide_true, Bool.not_true]
      apply Means.then (means_journalEvent _ _) rfl
      have hbreach : Means c
          (modify fun om => { om with slippageBreaches := om.slippageBreaches + 1 } : OmsM Unit)
          { o with fills := o.fills ++ [fill] } quarantine
          { order := { o with fills := o.fills ++ [fill] }, quarantine } :=
        Ends.modify fun om h => ⟨rfl, h⟩
      split_ifs
      · exact hbreach.journalled _ _
      · exact means_pure
    · simp only [slippage_of_not_priced intent hpriced fill, hpriced, decide_false, Bool.not_false]
      exact Ends.throw fun om h => ⟨rfl, h⟩

theorem means_applyFills (fills : List Fill) :
    Means c (fills.forM (applyFill c intent decisionPrice replies)) o quarantine
      { order := { o with fills := recordedFills decisionPrice replies o.fills fills }, quarantine
        raised := interrupted decisionPrice replies o.fills fills } := by
  induction fills generalizing o with
  | nil =>
      simp only [recordedFills, interrupted, recordUnseen, ne_eq, not_true_eq_false,
        decide_false, Bool.and_false, List.take_of_length_le (Nat.le_succ _), ite_self]
      exact means_pure
  | cons fill fills ih =>
      change Means c (applyFill c intent decisionPrice replies fill >>= fun _ =>
        fills.forM (applyFill c intent decisionPrice replies)) o quarantine _
      have hfirst : Means c (applyFill c intent decisionPrice replies fill) o quarantine _ :=
        means_applyFill intent decisionPrice replies fill
      by_cases hknown : fill.reported ∈ o.fills.map Fill.reported
      · rw [if_pos hknown] at hfirst
        rw [recordedFills, interrupted, recordUnseen_cons_seen hknown]
        exact hfirst.then rfl ih
      · rw [if_neg hknown] at hfirst
        rw [recordedFills, interrupted, recordUnseen_cons_new hknown]
        obtain ⟨later, hlater⟩ := prefix_recordUnseen Fill.reported (o.fills ++ [fill]) fills
        by_cases hpriced : Priced decisionPrice replies
        · have hrest := ih (o := { o with fills := o.fills ++ [fill] })
          rw [recordedFills, interrupted, if_pos hpriced] at hrest
          simp only [hpriced, decide_true, Bool.not_true, Bool.false_and] at hfirst hrest
          simp only [hpriced, decide_true, Bool.not_true, Bool.false_and]
          exact hfirst.then rfl hrest
        · -- the first new fill is recorded, and its price raises
          have hnew : recordUnseen Fill.reported (o.fills ++ [fill]) fills ≠ o.fills := by
            intro heq
            rw [← hlater, List.append_assoc] at heq
            simp at heq
          have htake : (recordUnseen Fill.reported (o.fills ++ [fill]) fills).take
              (o.fills.length + 1) = o.fills ++ [fill] := by
            rw [← hlater, List.take_append_of_le_length (by simp)]
            simp
          simp only [hpriced, decide_false, Bool.not_false] at hfirst
          simp only [hpriced, decide_false, Bool.not_false, Bool.true_and, ne_eq,
            hnew, not_false_eq_true, decide_true, htake]
          exact hfirst.stops rfl _

end Fills

section Results

variable (intent : OrderIntent) (result : SubmitResult) (decisionPrice : Option Dec)
    (replies : ApplyReplies)

theorem means_reassertStop (h : StopRefused intent result) :
    Means c (reassertStop c intent replies) o quarantine
      (reasserted intent result replies o quarantine) := by
  rw [reasserted, if_pos h]
  apply Means.then (means_modifyOrder fun o => { o with stopConfirmed := false }) rfl
  apply Means.then (means_journalEvent _ _) rfl
  have hrest : ∀ confirmed : Bool, confirmed = decide (replies.modifyPosition = some true) →
      Means c (do
        modifyOrder c fun o => { o with stopConfirmed := confirmed }
        if ¬ confirmed = true then
          addQuarantine intent.instrument
          journalEvent .halt none) { o with stopConfirmed := false } quarantine
        (if replies.modifyPosition = some true then
            { order := { o with stopConfirmed := true }, quarantine }
          else
            { order := { o with stopConfirmed := false }
              quarantine := quarantineWith quarantine intent.instrument }) := by
    intro confirmed hconfirmed
    apply Means.then (means_modifyOrder _) rfl
    by_cases hdone : replies.modifyPosition = some true
    · rw [decide_eq_true hdone] at hconfirmed
      rw [if_pos hdone, hconfirmed]
      exact means_pure
    · rw [decide_eq_false hdone] at hconfirmed
      rw [if_neg hdone, hconfirmed]
      exact (means_addQuarantine intent.instrument).journalled _ _
  by_cases hraised : replies.modifyPosition = none
  · simp only [if_pos hraised]
    apply Means.then (means_journalEvent _ _) rfl
    simpa using hrest _ rfl
  · simp only [if_neg hraised]
    simpa using hrest _ rfl

theorem means_finishResult :
    Means c (finishResult c intent result replies) o quarantine
      (finished intent result replies o quarantine) := by
  apply Means.read
  rintro om ⟨ho, -⟩
  rw [finished]
  have hunfilled : ((om.order? c).all fun o => o.fills.isEmpty) = true ↔ o.fills = [] := by
    rw [ho, Option.all_some, List.isEmpty_iff]
  simp only [hunfilled]
  apply Means.ite
  · intro _
    exact (means_markUnknown intent).journalled _ _
  · intro _
    have hmoved : ∀ o' quarantine', Means c (do
        transition c (appliedTarget result.state)
        if appliedTarget result.state ≠ .acked then journalEvent .orderAck (some c)) o' quarantine'
        (moved (appliedTarget result.state) o' quarantine') := by
      intro o' quarantine'
      by_cases hacked : appliedTarget result.state ≠ .acked
      · simp only [if_pos hacked]
        exact (means_transition _).journalled _ _
      · simp only [if_neg hacked]
        exact (means_transition _).followed fun _ _ => means_pure
    by_cases hrefused : StopRefused intent result
    · have hcond : appliedTarget result.state ≠ .acked ∧ ¬ result.stopConfirmed = true ∧
          intent.stopLoss ≠ none := hrefused
      simp only [if_pos hcond]
      exact (means_reassertStop intent result replies hrefused).bind (hmoved _ _)
    · have hcond : ¬ (appliedTarget result.state ≠ .acked ∧ ¬ result.stopConfirmed = true ∧
          intent.stopLoss ≠ none) := hrefused
      rw [reasserted, if_neg hrefused]
      simp only [if_neg hcond]
      exact hmoved o quarantine

theorem means_applyResult :
    Means c (applyResult c intent result decisionPrice replies) o quarantine
      (applied intent result decisionPrice replies o quarantine) := by
  rw [applied]
  apply Means.then (means_modifyOrder fun o => o.acknowledged result) rfl
  apply Means.ite
  · intro _
    exact (means_transition _).bind
      ((means_modifyOrder fun o => { o with rejectReason := result.rejectReason }).journalled _ _)
  · intro _
    apply Means.ite
    · intro _
      exact (means_markUnknown intent).journalled _ _
    · intro _
      have hloop : Means c (result.fills.forM (applyFill c intent decisionPrice replies))
          (o.acknowledged result) quarantine _ :=
        means_applyFills intent decisionPrice replies result.fills
      by_cases hinterrupted : interrupted decisionPrice replies o.fills result.fills = true
      · rw [if_pos hinterrupted]
        have hraised : interrupted decisionPrice replies (o.acknowledged result).fills
            result.fills = true := hinterrupted
        rw [hraised] at hloop
        exact hloop.stops rfl _
      · rw [if_neg hinterrupted]
        have hdone : interrupted decisionPrice replies (o.acknowledged result).fills
            result.fills = false := Bool.eq_false_of_not_eq_true hinterrupted
        rw [hdone] at hloop
        exact hloop.then rfl (means_finishResult intent result replies)

end Results

theorem means_liftQuarantine :
    Means c (liftQuarantine c) o quarantine (lifted o quarantine) := by
  apply Means.read
  rintro om ⟨ho, -⟩
  rw [lifted]
  simp only [ho]
  by_cases hterminal : o.state.terminal = true
  · rw [if_pos hterminal]
    simp only [if_pos hterminal]
    have hdiscard : Means c (discardQuarantine o.intent.instrument) o quarantine
        { order := o, quarantine := quarantine.filter fun i => i ≠ o.intent.instrument } :=
      Ends.modify fun om h => ⟨rfl, h.1, by rw [← h.2]⟩
    exact hdiscard.journalled _ _
  · rw [if_neg hterminal]
    simp only [if_neg hterminal]
    exact means_journalEvent _ _

/-! ## Whole calls -/

theorem moved_intent (new : OrderState) (o : Order) (quarantine : List String) :
    (moved new o quarantine).order.intent = o.intent := by
  rw [moved]
  split_ifs <;> rfl

theorem movedUnknown_intent (intent : OrderIntent) (o : Order) (quarantine : List String) :
    (movedUnknown intent o quarantine).order.intent = o.intent := by
  rw [movedUnknown, OwnStanding.andThen]
  split_ifs <;> exact moved_intent .unknown o quarantine

theorem means_resolveUnknown (reply : Reply) (hid : o.intent.clientOrderId = c) :
    Means c (resolveUnknown c reply) o quarantine (resolved reply o quarantine) := by
  rintro om ⟨ho, hq⟩
  rw [resolveUnknown_eq, ho, resolved]
  by_cases hunknown : o.state = .unknown
  · rw [Option.filter_some, if_pos (decide_eq_true hunknown), if_pos hunknown]
    simp only [hid]
    rcases reply.query with result | - | message | message
    · exact ((means_applyResult o.intent result none reply.apply).bind means_liftQuarantine)
        om ⟨ho, hq⟩
    · exact means_journalEvent _ _ om ⟨ho, hq⟩
    · exact means_journalEvent _ _ om ⟨ho, hq⟩
    · exact ⟨rfl, ho, hq⟩
  · rw [Option.filter_some, if_neg (by simpa using hunknown), if_neg hunknown]
    exact ⟨rfl, ho, hq⟩

theorem means_attempts {intent : OrderIntent} (hintent : o.intent = intent)
    (decisionPrice : Option Dec) (replies : ℕ → Reply) (left attempt : ℕ) :
    Means intent.clientOrderId (attempts intent decisionPrice replies left attempt) o quarantine
      (tried intent decisionPrice replies left attempt o quarantine) := by
  induction left generalizing attempt o quarantine with
  | zero => exact (means_markUnknown intent).journalled _ _
  | succ left ih =>
      rw [attempts, tried]
      have hbegin : Means intent.clientOrderId (beginAttempt intent.clientOrderId (attempt + 1)) o
          quarantine (moved .sent { o with attempts := attempt + 1 } quarantine) := by
        apply Means.then (means_modifyOrder _) rfl
        exact (means_transition .sent).journalled _ _
      apply hbegin.bind
      have hsent : (moved .sent { o with attempts := attempt + 1 } quarantine).order.intent =
          intent := by
        rw [moved_intent]
        exact hintent
      generalize moved .sent { o with attempts := attempt + 1 } quarantine = s at hsent
      rw [answered]
      rcases (replies attempt).submit with result | message | message | message | message | message
      · exact means_applyResult _ _ _ _
      · have hquarantined : Means intent.clientOrderId
            (quarantineUnknown intent.clientOrderId intent.instrument message) s.order
            s.quarantine ((movedUnknown intent s.order s.quarantine).andThen fun o quarantine =>
              { order := { o with lastError := some message }, quarantine }) :=
          (means_markUnknown intent).bind
            ((means_modifyOrder fun o => { o with lastError := some message }).journalled _ _)
        have hid : ((movedUnknown intent s.order s.quarantine).andThen fun o quarantine =>
            { order := { o with lastError := some message },
              quarantine }).order.intent.clientOrderId = intent.clientOrderId := by
          have hmarked := movedUnknown_intent intent s.order s.quarantine
          rw [OwnStanding.andThen]
          split_ifs
          · rw [hmarked, hsent]
          · change (movedUnknown intent s.order s.quarantine).order.intent.clientOrderId = _
            rw [hmarked, hsent]
        have hboth := hquarantined.bind (means_resolveUnknown (replies attempt) hid)
        rw [OwnStanding.andThen_assoc] at hboth
        exact hboth
      · apply Means.then (means_modifyOrder _) rfl
        exact ih (o := { s.order with lastError := some message }) hsent (attempt + 1)
      · exact (means_transition .rejected).bind
          ((means_modifyOrder fun o => { o with rejectReason := some message }).journalled _ _)
      · apply Means.then (means_modifyOrder _) rfl
        exact (means_markUnknown intent).journalled _ _
      · exact Ends.throw fun om h => ⟨rfl, h⟩

end Pieces

end OrderManager

end Sentinel
