import Sentinel.Agent.EntryPaths
import Sentinel.Risk.Totality
import Sentinel.Risk.VetoKinds

/-!
# What every submitted order rests on

An order that reaches `oms.submit` was approved on a context of its own call,
is sized within what was approved, and is sent by an agent that is not halted,
with the kill file and the licence gate as that call read them.
-/

namespace Sentinel

/-! ## Sized orders -/

structure ReadyOrder.Judged (s : EntrySettings) (order : ReadyOrder) : Prop where
  evaluated : evaluateEntry s.risk order.judged.toIntentFields order.ctx = .ok order.verdict
  approved : order.verdict.approved = true
  caution_le : order.caution ≤ 1
  sized : ∃ inst, order.ctx.instruments.get? order.judged.instrument = some inst ∧
    sizeOrder inst order.judged order.verdict order.caution = some order.intent

theorem sizeOrder_eq_some_iff {inst : Instrument} {intent sized : OrderIntent}
    {verdict : RiskDecision} {caution : Dec} :
    sizeOrder inst intent verdict caution = some sized ↔
      ∃ h : inst.minLot ≤ inst.roundLotsDown (verdict.approvedLots * caution),
        intent.sized (inst.roundLotsDown (verdict.approvedLots * caution))
          (verdict.riskAmount * caution) (verdict.riskPct * caution) verdict.expectedCostPips
          (inst.minLot_pos.trans_le h) = sized := by
  unfold sizeOrder
  simp only
  split_ifs with h
  · simp [h]
  · simp [h]

theorem readyOrder_eq_some {ctx : RiskContext} {inst : Instrument} {quote : Quote}
    {judged : OrderIntent} {verdict : RiskDecision} {caution : Dec} {order : ReadyOrder}
    (h : readyOrder ctx inst quote judged verdict caution = some order) :
    verdict.approved = true ∧ order.ctx = ctx ∧ order.judged = judged ∧
      order.verdict = verdict ∧ order.caution = caution ∧
      sizeOrder inst judged verdict caution = some order.intent := by
  rw [readyOrder] at h
  split_ifs at h with happroved
  obtain ⟨intent, hsized, rfl⟩ := Option.map_eq_some_iff.1 h
  exact ⟨happroved, rfl, rfl, rfl, rfl, hsized⟩

variable {s : EntrySettings}

theorem judged_of_readyOrder {ctx : RiskContext} {inst : Instrument}
    {quote : Quote} {judged : OrderIntent} {verdict : RiskDecision} {caution : Dec}
    {order : ReadyOrder} (h : readyOrder ctx inst quote judged verdict caution = some order)
    (hinst : ctx.instruments.get? judged.instrument = some inst)
    (hverdict : evaluateEntry s.risk judged.toIntentFields ctx = .ok verdict)
    (hcaution : caution ≤ 1) : order.Judged s := by
  obtain ⟨happroved, hctx, hjudged, hsame, hcautionEq, hsized⟩ := readyOrder_eq_some h
  refine ⟨?_, ?_, ?_, inst, ?_, ?_⟩
  · rw [hctx, hjudged, hsame]
    exact hverdict
  · rw [hsame]
    exact happroved
  · rw [hcautionEq]
    exact hcaution
  · rw [hctx, hjudged]
    exact hinst
  · rw [hjudged, hsame, hcautionEq]
    exact hsized

namespace ReadyOrder.Judged

variable {s : EntrySettings} {order : ReadyOrder}

theorem lots (h : order.Judged s) :
    ∃ inst, order.ctx.instruments.get? order.intent.instrument = some inst ∧
      inst.OnLotGrid order.intent.lots ∧ inst.minLot ≤ order.intent.lots ∧
      order.intent.lots ≤ order.verdict.approvedLots * order.caution := by
  obtain ⟨inst, hinst, hsized⟩ := h.sized
  obtain ⟨hmin, hintent⟩ := sizeOrder_eq_some_iff.1 hsized
  have hnonneg : 0 ≤ order.verdict.approvedLots * order.caution :=
    inst.minLot_pos.le.trans (inst.minLot_le_of_le_roundLotsDown hmin)
  rw [← hintent]
  exact ⟨inst, hinst, inst.roundLotsDown_onLotGrid _, hmin, inst.roundLotsDown_le hnonneg⟩

theorem intent_eq (h : order.Judged s) :
    order.intent.toIntentFields =
      { order.judged.toIntentFields with
        lots := order.intent.lots
        riskAmount := order.verdict.riskAmount * order.caution
        riskPct := order.verdict.riskPct * order.caution
        expectedCostPips := order.verdict.expectedCostPips } := by
  obtain ⟨inst, -, hsized⟩ := h.sized
  obtain ⟨hmin, hintent⟩ := sizeOrder_eq_some_iff.1 hsized
  rw [← hintent]
  rfl

theorem risk (h : order.Judged s) :
    order.intent.riskAmount ≤ order.verdict.riskAmount ∧
      ∃ m stop, market order.intent.toIntentFields order.ctx = .ok m ∧
        order.intent.stopLoss = some stop ∧
        order.intent.lots * stopPips order.intent.toIntentFields m stop *
          (m.inst.pipValueQuote 1 * m.conv) ≤ order.intent.riskAmount := by
  obtain ⟨m, stop, happroval⟩ := approval_of_approved h.evaluated h.approved
  obtain ⟨inst, hinst, -, -, hlots⟩ := h.lots
  have hintent := h.intent_eq
  have hrisk : order.intent.riskAmount = order.verdict.riskAmount * order.caution :=
    congrArg IntentFields.riskAmount hintent
  refine ⟨?_, m, stop, ?_, ?_, ?_⟩
  · rw [hrisk]
    exact mul_le_of_le_one_right happroval.risk_pos.le h.caution_le
  · rw [hintent]
    exact happroval.market_eq
  · exact (congrArg IntentFields.stopLoss hintent).trans happroval.stop_eq
  · have hpips : stopPips order.intent.toIntentFields m stop =
        stopPips order.judged.toIntentFields m stop := by
      rw [hintent]
      rfl
    have hvalue : 0 ≤ stopPips order.judged.toIntentFields m stop *
        (m.inst.pipValueQuote 1 * m.conv) :=
      (mul_pos happroval.stopPips_pos
        (mul_pos (m.inst.pipValueQuote_pos one_pos) m.conv_pos)).le
    rw [hpips, hrisk, happroval.risk_eq]
    calc order.intent.lots * stopPips order.judged.toIntentFields m stop *
          (m.inst.pipValueQuote 1 * m.conv)
        = order.intent.lots * (stopPips order.judged.toIntentFields m stop *
            (m.inst.pipValueQuote 1 * m.conv)) := by ring
      _ ≤ order.verdict.approvedLots * order.caution *
            (stopPips order.judged.toIntentFields m stop * (m.inst.pipValueQuote 1 * m.conv)) :=
          mul_le_mul_of_nonneg_right hlots hvalue
      _ = order.verdict.approvedLots * stopPips order.judged.toIntentFields m stop *
            (m.inst.pipValueQuote 1 * m.conv) * order.caution := by ring

theorem stops (h : order.Judged s) : absoluteStops s.risk order.ctx = [] := by
  obtain ⟨m, stop, happroval⟩ := approval_of_approved h.evaluated h.approved
  obtain ⟨be, -, hlocal⟩ := happroval.passedLocal
  exact hlocal.absolute

theorem killSwitch_eq (h : order.Judged s) : order.ctx.killSwitch = false := by
  have hstops := h.stops
  simp only [absoluteStops, List.append_eq_nil_iff, vetoIf_eq_nil] at hstops
  simpa using hstops.1.1.1.1

theorem halted_eq (h : order.Judged s) : order.ctx.halted = false := by
  have hstops := h.stops
  simp only [absoluteStops, List.append_eq_nil_iff, vetoIf_eq_nil] at hstops
  simpa using hstops.1.1.1.2

theorem not_halting (h : order.Judged s) : order.verdict.halting = false := by
  obtain ⟨m, stop, happroval⟩ := approval_of_approved h.evaluated h.approved
  simp [RiskDecision.halting, happroval.vetoes]

end ReadyOrder.Judged

/-! ## Caution -/

theorem shrinkBy_le (caution : Dec) (multiplier : Option Dec) :
    shrinkBy caution multiplier ≤ caution := by
  unfold shrinkBy
  split
  · exact le_rfl
  · split_ifs
    · exact min_le_left _ _
    · exact le_rfl

namespace EntryDesk

variable (d : EntryDesk) (s : EntrySettings)

theorem cautionFor_le (x : CautionInputs) (instrument : String) :
    d.cautionFor x instrument ≤ 1 :=
  max_le zero_le_one (min_le_left _ _)

theorem signalCaution_le {c : Candidate} {caution : Dec} (h : d.signalCaution c = some caution) :
    caution ≤ 1 := by
  have hlayered : shrinkBy (shrinkBy (d.cautionFor c.caution c.signal.instrument) c.similarity)
      c.macroLayers ≤ 1 :=
    (shrinkBy_le _ _).trans ((shrinkBy_le _ _).trans (d.cautionFor_le _ _))
  unfold signalCaution at h
  simp only at h
  split at h
  · rw [← Option.some.inj h]
    exact hlayered
  · split_ifs at h
    · rw [← Option.some.inj h]
      exact (min_le_left _ _).trans hlayered
    · rw [← Option.some.inj h]
      exact hlayered

theorem acceptCaution_le (x : HumanInputs) (p : Proposal) : d.acceptCaution x p ≤ 1 :=
  max_le zero_le_one ((min_le_left _ _).trans (min_le_left _ _))

theorem ticketCaution_le {x : HumanInputs} {t : ManualTicket} {caution : Dec}
    (h : d.ticketCaution s x t = some caution) : caution ≤ 1 := by
  have hfresh := d.cautionFor_le x.caution t.instrument
  unfold ticketCaution at h
  simp only at h
  by_cases hpreview : t.preview = true
  · simp [hpreview] at h
  rw [if_neg hpreview] at h
  split at h
  · rw [← Option.some.inj h]
    exact hfresh
  · split_ifs at h
    · rw [← Option.some.inj h]
      exact (min_le_left _ _).trans hfresh
    · rw [← Option.some.inj h]
      exact hfresh

end EntryDesk

/-! ## Traces -/

/-- A submission that rests on its own call: `earlier` is what the call left
behind before it. -/
structure Submission.Backed (s : EntrySettings) (earlier : List EntryEvent)
    (x : Submission) : Prop where
  judged : x.order.Judged s
  built : .built x.order.ctx ∈ earlier
  asked : .asked true ∈ earlier
  running : x.halted = false

def BackedTrace (s : EntrySettings) (events : List EntryEvent) : Prop :=
  ∀ earlier x later, events = earlier ++ .submitted x :: later → x.Backed s earlier

theorem backedTrace_of_notMem {events : List EntryEvent}
    (h : ∀ x, .submitted x ∉ events) : BackedTrace s events := by
  rintro earlier x later rfl
  exact absurd (by simp) (h x)

theorem BackedTrace.append {events : List EntryEvent} (h : BackedTrace s events)
    {e : EntryEvent} (he : ∀ x, e = .submitted x → x.Backed s events) :
    BackedTrace s (events ++ [e]) := by
  intro earlier x later hsplit
  rcases List.eq_nil_or_concat later with rfl | ⟨front, last, rfl⟩
  · obtain ⟨rfl, hlast⟩ := List.append_inj' hsplit rfl
    exact he x (List.cons.inj hlast).1
  · have hfront : events = earlier ++ .submitted x :: front := by
      rw [List.concat_eq_append, ← List.cons_append, ← List.append_assoc] at hsplit
      exact (List.append_inj' hsplit rfl).1
    exact h earlier x front hfront

/-! ## The agent's own path -/

section Cycle

variable {s : EntrySettings} (d : EntryDesk)

theorem EntryDesk.haltFor_of_not_halting {verdict : RiskDecision}
    (h : verdict.halting = false) : d.haltFor verdict = d := by
  simp [EntryDesk.haltFor, h]

@[simp] theorem EntryDesk.agent_enqueue (p : Proposal) : (d.enqueue p).agent = d.agent := by
  simp only [EntryDesk.enqueue]

theorem EntryDesk.release_cases (s : EntrySettings) (order : ReadyOrder) :
    (d.release s order).1.agent = d.agent ∧
      ∀ sent, (d.release s order).2 = some sent → sent = order := by
  rw [EntryDesk.release]
  split
  · simp
  · simp
  · split_ifs
    · simp
    · simp
  · simp

theorem EntryDesk.actOnSignal_order {d desk : EntryDesk} {ctx : RiskContext} {c : Candidate}
    {order : ReadyOrder} (h : d.actOnSignal s ctx c = .ok (desk, some order)) :
    order.Judged s ∧ order.ctx = ctx ∧ desk.agent = d.agent := by
  rw [EntryDesk.actOnSignal] at h
  split at h
  · rename_i inst quote caution hinst hquote hcaution
    split at h
    · simp at h
    · rename_i intent hintent
      cases hverdict : evaluateEntry s.risk intent.toIntentFields ctx with
      | error e => simp [hverdict, bind, Except.bind] at h
      | ok verdict =>
          simp only [hverdict, bind, Except.bind] at h
          split at h
          · simp at h
          · rename_i ready hready
            simp only [Except.ok.injEq] at h
            obtain ⟨hagent, hsame⟩ := (d.haltFor verdict).release_cases s ready
            rw [h] at hagent hsame
            have horder := hsame order rfl
            subst horder
            have hfields : intent.instrument = c.signal.instrument := by
              rw [OrderIntent.fields_of_ofFields hintent]
              rfl
            have hjudged : order.Judged s := judged_of_readyOrder hready
              (by rw [hfields]; exact hinst) hverdict (d.signalCaution_le hcaution)
            obtain ⟨-, hctx, -, hsameVerdict, -, -⟩ := readyOrder_eq_some hready
            refine ⟨hjudged, hctx, ?_⟩
            have hnothalt := hjudged.not_halting
            rw [hsameVerdict] at hnothalt
            rw [hagent, d.haltFor_of_not_halting hnothalt]
  · simp at h

theorem EntryDesk.actOnSignal_none {d desk : EntryDesk} {ctx : RiskContext} {c : Candidate}
    (h : d.actOnSignal s ctx c = .ok (desk, none)) :
    desk.agent = d.agent ∨ absoluteStops s.risk ctx ≠ [] := by
  rw [EntryDesk.actOnSignal] at h
  split at h
  · rename_i inst quote caution hinst hquote hcaution
    split at h
    · simp only [Except.ok.injEq, Prod.mk.injEq] at h
      exact .inl (by rw [← h.1])
    · rename_i intent hintent
      cases hverdict : evaluateEntry s.risk intent.toIntentFields ctx with
      | error e => simp [hverdict, bind, Except.bind] at h
      | ok verdict =>
          simp only [hverdict, bind, Except.bind] at h
          cases hhalting : verdict.halting with
          | true => exact .inr (absoluteStops_ne_nil_of_halting hverdict hhalting)
          | false =>
              rw [d.haltFor_of_not_halting hhalting] at h
              left
              split at h
              · simp only [Except.ok.injEq, Prod.mk.injEq] at h
                rw [← h.1]
              · rename_i ready hready
                simp only [Except.ok.injEq] at h
                have hagent := (d.release_cases s ready).1
                rw [h] at hagent
                exact hagent
  · simp only [Except.ok.injEq, Prod.mk.injEq] at h
    exact .inl (by rw [← h.1])

structure EntryLoop.Kept (s : EntrySettings) (st : EntryLoop) : Prop where
  traced : BackedTrace s st.events
  built : .built st.ctx ∈ st.events
  asked : .asked true ∈ st.events
  stops : st.desk.agent.halted = true → absoluteStops s.risk st.ctx ≠ []

@[simp] theorem EntryDesk.halted_send (order : ReadyOrder) (x : SendInputs) :
    (d.send order x).1.agent.halted = d.agent.halted := by
  rw [EntryDesk.send]
  split
  · exact d.agent.halted_record _ _ _
  · rfl
  · rfl
  · rfl

theorem absoluteStops_ne_nil_of_halted {cfg : RiskConfig} {ctx : RiskContext}
    (h : ctx.halted = true) : absoluteStops cfg ctx ≠ [] := by
  simp [absoluteStops, h]

theorem EntryLoop.Kept.refresh {st : EntryLoop} (h : st.Kept s) (args : CycleArgs)
    (c : Candidate) : (st.refresh s args c).Kept s where
  traced := h.traced.append (by simp)
  built := by simp [EntryLoop.refresh]
  asked := List.mem_append_left _ h.asked
  stops := by
    intro hhalted
    exact absoluteStops_ne_nil_of_halted hhalted

theorem EntryLoop.Kept.consider {st : EntryLoop} (h : st.Kept s) (args : CycleArgs)
    (c : Candidate) : (st.consider s args c).Kept s := by
  rw [EntryLoop.consider]
  split_ifs
  · exact h
  · split
    · exact ⟨h.traced, h.built, h.asked, h.stops⟩
    · rename_i desk hact
      refine ⟨h.traced, h.built, h.asked, ?_⟩
      rcases st.desk.actOnSignal_none hact with hagent | hstops
      · rw [hagent]
        exact h.stops
      · exact fun _ => hstops
    · rename_i desk order hact
      obtain ⟨hjudged, hctx, hagent⟩ := st.desk.actOnSignal_order hact
      have hrunning : st.desk.agent.halted = false := by
        cases hhalted : st.desk.agent.halted with
        | false => rfl
        | true => exact absurd (hctx ▸ hjudged.stops) (h.stops hhalted)
      have hbacked : (desk.submission s order c.send).Backed s st.events := by
        refine ⟨hjudged, ?_, h.asked, ?_⟩
        · have hbuilt := h.built
          rw [← hctx] at hbuilt
          exact hbuilt
        · exact (congrArg Agent.halted hagent).trans hrunning
      have hsent : (EntryLoop.Kept s
          { st with
            desk := (desk.send order c.send).1
            events := st.events ++ [.submitted (desk.submission s order c.send)] }) := by
        refine ⟨h.traced.append ?_, List.mem_append_left _ h.built,
          List.mem_append_left _ h.asked, ?_⟩
        · intro x hx
          cases hx
          exact hbacked
        · intro hhalted
          rw [EntryDesk.halted_send, hagent, hrunning] at hhalted
          cases hhalted
      simp only
      split
      · exact ⟨hsent.traced, hsent.built, hsent.asked, hsent.stops⟩
      · exact hsent
      · split_ifs
        · exact hsent.refresh args c
        · exact hsent

theorem EntryLoop.Kept.foldl {st : EntryLoop} (h : st.Kept s) (args : CycleArgs)
    (l : List Candidate) : (l.foldl (EntryLoop.consider s args) st).Kept s := by
  induction l generalizing st with
  | nil => exact h
  | cons c l ih => exact ih (h.consider args c)

theorem EntryDesk.ctx_mem_built (x : CycleReads) :
    (d.cycleView s x).ctx ∈ (d.cycleView s x).built := by
  rw [EntryDesk.cycleView]
  simp only
  split_ifs <;> simp

theorem EntryDesk.backedTrace_cycle (x : CycleInputs) : BackedTrace s (d.cycle s x).2 := by
  have hfirst : ∀ y, EntryEvent.submitted y ∉
      (d.cycleView s x.reads).built.map EntryEvent.built ++
        [.asked (entryPermission s.venueMode x.gate)] := by
    simp
  rw [EntryDesk.cycle]
  simp only
  split_ifs with hblocked
  · exact backedTrace_of_notMem hfirst
  · simp only [Bool.or_eq_true, Bool.not_eq_true', not_or, Bool.not_eq_true,
      Bool.not_eq_false] at hblocked
    obtain ⟨⟨⟨hrunning, -⟩, hpermitted⟩, -⟩ := hblocked
    refine (EntryLoop.Kept.foldl ⟨backedTrace_of_notMem hfirst, ?_, ?_, ?_⟩ _ _).traced
    · exact List.mem_append_left _ (List.mem_map_of_mem (d.ctx_mem_built x.reads))
    · rw [hpermitted]
      simp
    · intro hhalted
      rw [hrunning] at hhalted
      cases hhalted

end Cycle

/-! ## The human paths -/

section Human

variable {s : EntrySettings}

structure HumanResult.Backed (s : EntrySettings) (r : HumanResult) (order : ReadyOrder) :
    Prop where
  judged : order.Judged s
  events : r.events = [.asked true, .built order.ctx]
  halted : r.desk.agent.halted = order.ctx.halted

variable {d : EntryDesk} {x : HumanInputs} {instrument : String}
  {fields : Instrument → IntentFields} {adjust : RiskContext → RiskContext}
  {caution : EntryDesk → Option Dec} {order : ReadyOrder}

theorem EntryDesk.evaluateHuman_order :
    (d.evaluateHuman s x instrument fields adjust caution).order = some order ↔
      ∃ quote inst intent verdict size,
        (feedSnapshot x.outside.feed [instrument] x.nowNs).quotes.get? instrument = some quote ∧
        x.outside.instruments.get? instrument = some inst ∧
        OrderIntent.ofFields (fields inst) = .ok intent ∧
        evaluateEntry s.risk intent.toIntentFields
          (adjust (d.humanContext s x instrument).2) = .ok verdict ∧
        caution (d.humanContext s x instrument).1 = some size ∧
        readyOrder (adjust (d.humanContext s x instrument).2) inst quote intent verdict size =
          some order := by
  rw [EntryDesk.evaluateHuman]
  simp only
  cases hquote : (feedSnapshot x.outside.feed [instrument] x.nowNs).quotes.get? instrument with
  | none => simp
  | some quote =>
      cases hinst : x.outside.instruments.get? instrument with
      | none => simp
      | some inst =>
          cases hintent : OrderIntent.ofFields (fields inst) with
          | error e => simp [hintent]
          | ok intent =>
              cases hverdict : evaluateEntry s.risk intent.toIntentFields
                  (adjust (d.humanContext s x instrument).2) with
              | error e => simp [hintent, hverdict]
              | ok verdict => simp [hintent, hverdict, Option.bind_eq_some_iff]

theorem EntryDesk.evaluateHuman_events
    (h : (d.evaluateHuman s x instrument fields adjust caution).order = some order) :
    (d.evaluateHuman s x instrument fields adjust caution).events =
        [.asked true, .built (adjust (d.humanContext s x instrument).2)] ∧
      (d.evaluateHuman s x instrument fields adjust caution).desk =
        (d.humanContext s x instrument).1 := by
  obtain ⟨quote, inst, intent, verdict, size, hquote, hinst, hintent, hverdict, -, -⟩ :=
    EntryDesk.evaluateHuman_order.1 h
  rw [EntryDesk.evaluateHuman]
  simp [hquote, hinst, hintent, hverdict]

theorem EntryDesk.backed_evaluateHuman (hfields : ∀ inst, (fields inst).instrument = instrument)
    (hadjust : ∀ ctx, (adjust ctx).instruments = ctx.instruments ∧
      (adjust ctx).halted = ctx.halted)
    (hcaution : ∀ desk size, caution desk = some size → size ≤ 1)
    (h : (d.evaluateHuman s x instrument fields adjust caution).order = some order) :
    (d.evaluateHuman s x instrument fields adjust caution).Backed s order := by
  obtain ⟨hevents, hdesk⟩ := EntryDesk.evaluateHuman_events h
  obtain ⟨quote, inst, intent, verdict, size, hquote, hinst, hintent, hverdict, hsize, hready⟩ :=
    EntryDesk.evaluateHuman_order.1 h
  obtain ⟨-, hctx, -⟩ := readyOrder_eq_some hready
  have hsame : intent.instrument = instrument := by
    rw [OrderIntent.fields_of_ofFields hintent, hfields]
  refine ⟨judged_of_readyOrder hready ?_ hverdict (hcaution _ _ hsize), ?_, ?_⟩
  · rw [(hadjust _).1, hsame]
    exact hinst
  · rw [hevents, hctx]
  · rw [hdesk, hctx, (hadjust _).2]
    rfl

theorem EntryDesk.notMem_events_human (d : EntryDesk) (call : HumanCall) (x : HumanInputs)
    (y : Submission) : .submitted y ∉ (d.human s call x).events := by
  have hevaluate : ∀ (d : EntryDesk) instrument fields adjust caution,
      .submitted y ∉ (d.evaluateHuman s x instrument fields adjust caution).events := by
    intro d instrument fields adjust caution
    rw [EntryDesk.evaluateHuman]
    simp only
    split
    · split
      · simp
      · split <;> simp
    · simp
  cases call with
  | accept clientOrderId =>
      simp only [EntryDesk.human, EntryDesk.acceptAdvice]
      split
      · simp
      · split_ifs
        · simp
        · simp
        · simp
        · exact hevaluate _ _ _ _ _
  | manual t =>
      simp only [EntryDesk.human, EntryDesk.manualOrder]
      split_ifs
      · simp
      · simp
      · simp
      · exact hevaluate _ _ _ _ _

theorem EntryDesk.backed_human {call : HumanCall} {x : HumanInputs}
    {order : ReadyOrder} (h : (d.human s call x).order = some order) :
    (d.human s call x).Backed s order := by
  cases call with
  | accept clientOrderId =>
      unfold EntryDesk.human EntryDesk.acceptAdvice at h ⊢
      simp only at h ⊢
      split at h
      · cases h
      · rename_i p hp
        split_ifs at h with hpermitted hsuspended hsession
        simp only [if_neg hpermitted, if_neg hsuspended, if_neg hsession]
        refine EntryDesk.backed_evaluateHuman (fun _ => rfl) (fun _ => ⟨rfl, rfl⟩) ?_ h
        intro desk size hsize
        rw [← Option.some.inj hsize]
        exact desk.acceptCaution_le x p
  | manual t =>
      unfold EntryDesk.human EntryDesk.manualOrder at h ⊢
      simp only at h ⊢
      split_ifs at h with hlive hpermitted hsession
      rw [if_neg hlive, if_neg hpermitted, if_neg hsession]
      exact EntryDesk.backed_evaluateHuman (fun _ => rfl) (fun _ => ⟨rfl, rfl⟩)
        (fun desk size hsize => desk.ticketCaution_le s hsize) h

theorem EntryDesk.humanCall_of_order {call : HumanCall} {x : HumanInputs}
    {order : ReadyOrder} (send : SendInputs) (h : (d.human s call x).order = some order) :
    (d.humanCall s call x send).2 =
      (d.human s call x).events ++
        [.submitted ((d.human s call x).desk.submission s order send)] := by
  simp only [EntryDesk.humanCall, h]

theorem EntryDesk.backedTrace_humanCall (d : EntryDesk) (call : HumanCall) (x : HumanInputs)
    (send : SendInputs) : BackedTrace s (d.humanCall s call x send).2 := by
  unfold EntryDesk.humanCall
  simp only
  cases horder : (d.human s call x).order with
  | none => exact backedTrace_of_notMem (d.notMem_events_human call x)
  | some order =>
      have hresult := EntryDesk.backed_human horder
      have hbefore : BackedTrace s (d.human s call x).events := by
        rw [hresult.events]
        exact backedTrace_of_notMem (by simp)
      refine hbefore.append ?_
      intro y hy
      cases hy
      refine ⟨hresult.judged, ?_, ?_, hresult.halted.trans hresult.judged.halted_eq⟩
      · rw [hresult.events]
        simp [EntryDesk.submission]
      · rw [hresult.events]
        simp

end Human

/-! ## Runs -/

/-- What an order that reaches `oms.submit` satisfies; `earlier` is what its
call left behind before it. -/
structure Submission.Safe (s : EntrySettings) (earlier : List EntryEvent)
    (x : Submission) : Prop where
  /-- the context was built in the same call -/
  built : .built x.order.ctx ∈ earlier
  evaluated : evaluateEntry s.risk x.order.judged.toIntentFields x.order.ctx =
    .ok x.order.verdict
  approved : x.order.verdict.approved = true
  /-- only the size and what follows from it differ from the judged intent -/
  sameIntent : x.order.intent.toIntentFields =
    { x.order.judged.toIntentFields with
      lots := x.order.intent.lots
      riskAmount := x.order.verdict.riskAmount * x.order.caution
      riskPct := x.order.verdict.riskPct * x.order.caution
      expectedCostPips := x.order.verdict.expectedCostPips }
  caution_le : x.order.caution ≤ 1
  lots : ∃ inst, x.order.ctx.instruments.get? x.order.intent.instrument = some inst ∧
    inst.OnLotGrid x.order.intent.lots ∧ inst.minLot ≤ x.order.intent.lots ∧
    x.order.intent.lots ≤ x.order.verdict.approvedLots * x.order.caution
  /-- the recorded risk, and what the size loses at the stop -/
  risk : x.order.intent.riskAmount ≤ x.order.verdict.riskAmount ∧
    ∃ m stop, market x.order.intent.toIntentFields x.order.ctx = .ok m ∧
      x.order.intent.stopLoss = some stop ∧
      x.order.intent.lots * stopPips x.order.intent.toIntentFields m stop *
        (m.inst.pipValueQuote 1 * m.conv) ≤ x.order.intent.riskAmount
  running : x.halted = false
  /-- the kill file as the context read it -/
  killSwitch : x.order.ctx.killSwitch = false
  /-- the licence gate as the call asked it -/
  asked : .asked true ∈ earlier

theorem Submission.Backed.safe {earlier : List EntryEvent} {x : Submission}
    (h : x.Backed s earlier) : x.Safe s earlier where
  built := h.built
  evaluated := h.judged.evaluated
  approved := h.judged.approved
  sameIntent := h.judged.intent_eq
  caution_le := h.judged.caution_le
  lots := h.judged.lots
  risk := h.judged.risk
  running := h.running
  killSwitch := h.judged.killSwitch_eq
  asked := h.asked

theorem EntryDesk.backedTrace_traces (d : EntryDesk) (moves : List EntryMove) :
    ∀ call ∈ d.traces moves, BackedTrace call.1 call.2 := by
  induction moves generalizing d with
  | nil => simp [EntryDesk.traces]
  | cons m moves ih =>
      cases m with
      | other change => exact ih (change d)
      | cycle s x =>
          intro call hcall
          rcases List.mem_cons.1 hcall with rfl | hlater
          · exact d.backedTrace_cycle x
          · exact ih _ call hlater
      | human s kind x send =>
          intro call hcall
          rcases List.mem_cons.1 hcall with rfl | hlater
          · exact d.backedTrace_humanCall kind x send
          · exact ih _ call hlater

/-- Every order that any run sends, from a signal, an accepted proposal or a
ticket, is safe. -/
theorem EntryDesk.submissions_safe (d : EntryDesk) (moves : List EntryMove)
    (s : EntrySettings) (earlier later : List EntryEvent) (x : Submission)
    (h : (s, earlier ++ .submitted x :: later) ∈ d.traces moves) : x.Safe s earlier :=
  (d.backedTrace_traces moves _ h earlier x later rfl).safe

/-! ### The gates at the moment of the order -/

def mondayTicket : ManualTicket where
  instrument := "EUR_USD"
  side := .buy
  stopLoss := 109 / 100
  clientOrderId := "SFX-manual-1"

def mondayFeed (symbol : String) : FeedRow :=
  if symbol = "EUR_USD" then
    { quote := some eurUsdQuote, receivedNs := 381600000000000 }
  else {}

def mondaySurroundings : Surroundings where
  clockNs := 381600000000000
  account :=
    { accountId := "A", currency := "USD", balance := 100000, equity := 100000
      marginAvailable := 100000 }
  instruments := .ofEntries [("EUR_USD", eurUsd)]
  feed := mondayFeed

def mondayInputs : HumanInputs where
  nowNs := 381600000000000
  outside := mondaySurroundings

def freshDesk : EntryDesk where
  agent := {}
  oms := .new false 0 none

def lateKill : SendInputs where
  killEngaged := true
  replies := fun _ => ⟨.returned ⟨.acked, none, [], none, true⟩, .notFound, {}⟩
  entry :=
    { nowNs := 381600000000000, instruments := .ofEntries [("EUR_USD", eurUsd)]
      conversion := fun _ => some 1 }

def paperSettings : EntrySettings := { risk := default }

theorem freshDesk_sends :
    (freshDesk.human paperSettings (.manual mondayTicket) mondayInputs).order.isSome = true := by
  decide +kernel

/-- A run of one ticket, and what its order satisfies. -/
theorem EntryDesk.submissions_safe_monday :
    ∃ earlier x, (paperSettings, earlier ++ [.submitted x]) ∈
        freshDesk.traces [.human paperSettings (.manual mondayTicket) mondayInputs lateKill] ∧
      x.Safe paperSettings earlier := by
  obtain ⟨order, horder⟩ := Option.isSome_iff_exists.1 freshDesk_sends
  have htrace : (paperSettings,
      (freshDesk.human paperSettings (.manual mondayTicket) mondayInputs).events ++
        [.submitted ((freshDesk.human paperSettings (.manual mondayTicket)
          mondayInputs).desk.submission paperSettings order lateKill)]) ∈
      freshDesk.traces [.human paperSettings (.manual mondayTicket) mondayInputs lateKill] := by
    rw [EntryDesk.traces, EntryDesk.humanCall_of_order lateKill horder]
    exact List.mem_cons_self
  exact ⟨_, _, htrace, freshDesk.submissions_safe _ paperSettings _ [] _ htrace⟩

/-- The kill file can appear, and the licence can lapse, between the context and
the order. -/
theorem EntryDesk.not_submissions_gated :
    ¬∀ (d : EntryDesk) (moves : List EntryMove) (s : EntrySettings)
      (earlier later : List EntryEvent) (x : Submission),
      (s, earlier ++ .submitted x :: later) ∈ d.traces moves →
        x.Safe s earlier ∧ x.killEngaged = false ∧ x.permitted = true := by
  intro h
  obtain ⟨order, horder⟩ := Option.isSome_iff_exists.1 freshDesk_sends
  have hcall := EntryDesk.humanCall_of_order lateKill horder
  have htrace := h freshDesk [.human paperSettings (.manual mondayTicket) mondayInputs lateKill]
    paperSettings _ [] _ (by rw [EntryDesk.traces, hcall]; exact List.mem_cons_self)
  cases htrace.2.1

end Sentinel
