import Sentinel.Execution.Frame

/-!
# The quarantine covers every UNKNOWN order

The quarantine is a set of instruments while UNKNOWN is a state of an order, so
lifting it for one order is safe only when the instrument has no other UNKNOWN
order.  That holds while calls follow one another: a call registers on an
instrument without UNKNOWN orders, and until it returns its own order is the
only one that can become UNKNOWN.
-/

namespace Sentinel

namespace OrderManager

/-- The order under `c` is UNKNOWN and is for `instrument`. -/
def HoldsUnknown (om : OrderManager) (c instrument : String) : Prop :=
  ∃ o, om.order? c = some o ∧ o.state = .unknown ∧ o.intent.instrument = instrument

structure Covered (om : OrderManager) : Prop where
  keyed : ∀ c o, om.order? c = some o → o.intent.clientOrderId = c
  held : ∀ c i, om.HoldsUnknown c i → i ∈ om.quarantine
  single : ∀ c c' i, om.HoldsUnknown c i → om.HoldsUnknown c' i → c = c'

/-- No order but that of `intent` is UNKNOWN on its instrument. -/
structure Exclusive (om : OrderManager) (intent : OrderIntent) : Prop where
  registered : ∃ o, om.order? intent.clientOrderId = some o ∧
    o.intent.instrument = intent.instrument
  alone : ∀ c, om.HoldsUnknown c intent.instrument → c = intent.clientOrderId

variable {om om' : OrderManager}

theorem holdsUnknown_congr (h : om'.orders = om.orders) (c i : String) :
    om'.HoldsUnknown c i ↔ om.HoldsUnknown c i := by
  simp [HoldsUnknown, order?, h]

theorem Covered.congr (h : om.Covered) (horders : om'.orders = om.orders)
    (hquarantine : om'.quarantine = om.quarantine) : om'.Covered where
  keyed := by simpa [order?, horders] using h.keyed
  held := by simpa only [holdsUnknown_congr horders, hquarantine] using h.held
  single := by simpa only [holdsUnknown_congr horders] using h.single

/-! ## A piece inside its frame -/

section Frame

variable {intent : OrderIntent}

theorem Confined.holdsUnknown_cases
    (h : Confined intent.clientOrderId intent.instrument om om') (hown : om.Exclusive intent)
    {c i : String} (hunknown : om'.HoldsUnknown c i) :
    (c ≠ intent.clientOrderId ∧ om.HoldsUnknown c i) ∨
      (c = intent.clientOrderId ∧ i = intent.instrument) := by
  by_cases hc : c = intent.clientOrderId
  · subst hc
    refine .inr ⟨rfl, ?_⟩
    obtain ⟨o', ho', -, rfl⟩ := hunknown
    obtain ⟨o, ho, hinstrument⟩ := hown.registered
    have hsame := h.intent
    rw [ho', ho] at hsame
    have hintent : o'.intent = o.intent := by simpa using hsame
    rw [hintent, hinstrument]
  · refine .inl ⟨hc, ?_⟩
    simpa only [HoldsUnknown, h.others c hc] using hunknown

theorem Exclusive.confined (hown : om.Exclusive intent)
    (h : Confined intent.clientOrderId intent.instrument om om') :
    om'.Exclusive intent where
  registered := by
    obtain ⟨o, ho, hinstrument⟩ := hown.registered
    have hsame := h.intent
    rw [ho, Option.map_some, Option.map_eq_some_iff] at hsame
    obtain ⟨o', ho', hintent⟩ := hsame
    exact ⟨o', ho', by rw [hintent, hinstrument]⟩
  alone := by
    intro c hunknown
    rcases h.holdsUnknown_cases hown hunknown with ⟨-, hold⟩ | ⟨hc, -⟩
    · exact hown.alone c hold
    · exact hc

theorem Covered.confined (hcov : om.Covered) (hown : om.Exclusive intent)
    (h : Confined intent.clientOrderId intent.instrument om om') : om'.Covered where
  keyed := by
    intro c o' ho'
    by_cases hc : c = intent.clientOrderId
    · subst hc
      have hsame := h.intent
      rw [ho', Option.map_some, eq_comm, Option.map_eq_some_iff] at hsame
      obtain ⟨o, ho, hintent⟩ := hsame
      rw [← hintent]
      exact hcov.keyed _ o ho
    · exact hcov.keyed c o' (by rwa [h.others c hc] at ho')
  held := by
    intro c i hunknown
    rcases h.holdsUnknown_cases hown hunknown with ⟨-, hold⟩ | ⟨rfl, rfl⟩
    · exact h.quarantine i (hcov.held c i hold)
    · obtain ⟨o', ho', hstate, -⟩ := hunknown
      rcases h.unknown ⟨o', ho', hstate⟩ with ⟨o, ho, hbefore⟩ | hquarantined
      · obtain ⟨o₁, ho₁, hinstrument⟩ := hown.registered
        cases ho.symm.trans ho₁
        exact h.quarantine _ (hcov.held _ _ ⟨o, ho, hbefore, hinstrument⟩)
      · exact hquarantined
  single := by
    intro c c' i hc hc'
    rcases h.holdsUnknown_cases hown hc with ⟨hne, hold⟩ | ⟨rfl, rfl⟩
    · rcases h.holdsUnknown_cases hown hc' with ⟨-, hold'⟩ | ⟨rfl, rfl⟩
      · exact hcov.single c c' i hold hold'
      · exact hown.alone c hold
    · rcases h.holdsUnknown_cases hown hc' with ⟨-, hold'⟩ | ⟨rfl, -⟩
      · exact (hown.alone c' hold').symm
      · rfl

end Frame

/-! ## The pieces outside the frame -/

theorem holdsUnknown_registered {intent : OrderIntent} {c i : String}
    (h : (om.registered intent).HoldsUnknown c i) : om.HoldsUnknown c i := by
  obtain ⟨o, ho, hstate, hinstrument⟩ := h
  rw [order?_registered] at ho
  by_cases hc : c = intent.clientOrderId
  · rw [if_pos hc] at ho
    cases ho
    cases hstate
  · rw [if_neg hc] at ho
    exact ⟨o, ho, hstate, hinstrument⟩

theorem Covered.registers (hcov : om.Covered) (intent : OrderIntent) :
    (om.registered intent).Covered where
  keyed := by
    intro c o ho
    rw [order?_registered] at ho
    by_cases hc : c = intent.clientOrderId
    · rw [if_pos hc] at ho
      cases ho
      exact hc.symm
    · rw [if_neg hc] at ho
      exact hcov.keyed c o ho
  held := fun c i h => hcov.held c i (holdsUnknown_registered h)
  single := fun c c' i h h' =>
    hcov.single c c' i (holdsUnknown_registered h) (holdsUnknown_registered h')

theorem Exclusive.registers (hcov : om.Covered) {intent : OrderIntent}
    (hquarantine : intent.instrument ∉ om.quarantine) :
    (om.registered intent).Exclusive intent where
  registered := ⟨{ intent }, by rw [order?_registered, if_pos rfl], rfl⟩
  alone := fun c h =>
    absurd (hcov.held c _ (holdsUnknown_registered h)) hquarantine

theorem Exclusive.queries (hcov : om.Covered) {c : String} {order : Order}
    (horder : om.order? c = some order) (hunknown : order.state = .unknown) :
    om.Exclusive order.intent where
  registered := ⟨order, by rw [hcov.keyed c order horder, horder], rfl⟩
  alone := by
    intro c' hc'
    rw [hcov.keyed c order horder]
    exact hcov.single c' c _ hc' ⟨order, horder, hunknown, rfl⟩

theorem Covered.lifts (hcov : om.Covered) {intent : OrderIntent}
    (hown : om.Exclusive intent) {order : Order}
    (horder : om.order? intent.clientOrderId = some order)
    (hterminal : order.state.terminal) (horders : om'.orders = om.orders)
    (hquarantine : om'.quarantine =
      om.quarantine.filter fun i => i ≠ order.intent.instrument) : om'.Covered where
  keyed := by simpa [order?, horders] using hcov.keyed
  held := by
    intro c i hunknown
    rw [holdsUnknown_congr horders] at hunknown
    rw [hquarantine, List.mem_filter]
    refine ⟨hcov.held c i hunknown, ?_⟩
    simp only [ne_eq, decide_eq_true_eq]
    rintro rfl
    obtain ⟨o, ho, hinstrument⟩ := hown.registered
    cases horder.symm.trans ho
    -- the only UNKNOWN order of the instrument would be the terminal one
    obtain rfl := hown.alone c (hinstrument ▸ hunknown)
    obtain ⟨o, ho, hstate, -⟩ := hunknown
    cases horder.symm.trans ho
    rw [hstate] at hterminal
    cases hterminal
  single := by simpa only [holdsUnknown_congr horders] using hcov.single

end OrderManager

/-! ## Runs of calls that do not overlap -/

open OrderManager Session

structure Serial (om : OrderManager) (calls : List Call) : Prop where
  single : calls.length ≤ 1
  covered : om.Covered
  exclusive : ∀ call ∈ calls, ∀ intent, call.intent? = some intent →
    om.Exclusive intent

theorem Serial.start (supports : Bool) (retries : ℕ) (slip : Option Dec) :
    Serial (start supports retries slip).oms [] where
  single := Nat.zero_le 1
  covered :=
    { keyed := fun c o ho => by cases ho
      held := fun c i h => by
        obtain ⟨o, ho, -⟩ := h
        cases ho
      single := fun c c' i h => by
        obtain ⟨o, ho, -⟩ := h
        cases ho }
  exclusive := fun call hcall => by cases hcall

theorem Serial.of_effect {om om' : OrderManager} {call : Call} {next : Option Call}
    (heffect : call.Effect om next om') (hcov : om.Covered)
    (hown : ∀ intent, call.intent? = some intent → om.Exclusive intent) :
    Serial om' next.toList := by
  have hlen : next.toList.length ≤ 1 := by
    cases next <;> simp
  have hexclusive : (∀ n, next = some n → ∀ intent, n.intent? = some intent →
      om'.Exclusive intent) → ∀ n ∈ next.toList, ∀ intent, n.intent? = some intent →
      om'.Exclusive intent := by
    intro hnext n hn
    exact hnext n (Option.mem_toList.1 hn)
  cases heffect with
  | registers intent decisionPrice hquarantine hnew =>
      refine ⟨hlen, hcov.registers intent, hexclusive ?_⟩
      rintro n ⟨⟩ i ⟨⟩
      exact Exclusive.registers hcov hquarantine
  | sends intent decisionPrice k hk hopen hframe =>
      have hown := hown intent rfl
      refine ⟨hlen, hcov.confined hown hframe, hexclusive ?_⟩
      rintro n ⟨⟩ i ⟨⟩
      exact hown.confined hframe
  | works intent hintent hnext hframe =>
      have hown := hown intent hintent
      refine ⟨hlen, hcov.confined hown hframe, hexclusive ?_⟩
      rintro n hn i hi
      rcases (hnext n hn).2.1 with hnone | hsame
      · rw [hnone] at hi
        cases hi
      · rw [hsame, hintent] at hi
        cases hi
        exact hown.confined hframe
  | declines horders hsupports hretries hquarantine =>
      refine ⟨hlen, hcov.congr horders hquarantine, hexclusive ?_⟩
      rintro n ⟨⟩
  | queries horder hunknown =>
      refine ⟨hlen, hcov, hexclusive ?_⟩
      rintro n ⟨⟩ i ⟨⟩
      exact Exclusive.queries hcov horder hunknown
  | lifts intent horder hterminal horders hsupports hretries hquarantine =>
      refine ⟨hlen, hcov.lifts (hown intent rfl) horder hterminal horders hquarantine,
        hexclusive ?_⟩
      rintro n ⟨⟩

theorem Serial.advance {s : Session} (h : Serial s.oms s.calls) (index : ℕ)
    (reply : Reply) :
    Serial (s.advance index reply).oms (s.advance index reply).calls := by
  cases hget : s.calls[index]? with
  | none => simpa only [Session.advance, hget] using h
  | some call =>
      have hmem : call ∈ s.calls := List.mem_of_getElem? hget
      obtain ⟨honly, rfl⟩ : s.calls = [call] ∧ index = 0 := by
        have hlen := h.single
        obtain ⟨hlt, hcall⟩ := List.getElem?_eq_some_iff.1 hget
        obtain ⟨only, honly⟩ := List.length_eq_one_iff.1 (show s.calls.length = 1 by omega)
        rw [honly, List.mem_singleton] at hmem
        exact ⟨by rw [honly, hmem], by omega⟩
      have hcalls : ∀ next : Option Call, s.replaceCall 0 next = next.toList := by
        intro next
        simp [Session.replaceCall, honly]
      rw [advance_eq hget, hcalls]
      exact Serial.of_effect (call.step_effect reply s.oms) h.covered
        (h.exclusive call hmem)

theorem Serial.step (s : Session) (move : Move) (h : Serial s.oms s.calls) :
    Serial (s.serialStep move).oms (s.serialStep move).calls := by
  cases move with
  | submit intent decisionPrice =>
      simp only [Session.serialStep]
      by_cases hidle : s.calls = []
      · rw [if_pos hidle]
        refine ⟨by simp [Session.step, hidle], h.covered, ?_⟩
        intro call hcall
        have hcall' : call = .submit intent decisionPrice := by
          simpa [Session.step, hidle] using hcall
        rintro i hi
        rw [hcall'] at hi
        cases hi
      · rw [if_neg hidle]
        exact h
  | resolve c =>
      simp only [Session.serialStep]
      by_cases hidle : s.calls = []
      · rw [if_pos hidle]
        refine ⟨by simp [Session.step, hidle], h.covered, ?_⟩
        intro call hcall
        have hcall' : call = .resolving c := by
          simpa [Session.step, hidle] using hcall
        rintro i hi
        rw [hcall'] at hi
        cases hi
      · rw [if_neg hidle]
        exact h
  | advance index reply => exact h.advance index reply
  | accept c =>
      simp only [Session.serialStep, Session.step, Session.accept]
      split
      · exact ⟨h.single, h.covered, h.exclusive⟩
      · exact h
  | lose c => exact ⟨h.single, h.covered, h.exclusive⟩

/-- In every state of every run of calls that follow one another, also inside a
call, the instrument of an UNKNOWN order is in quarantine. -/
theorem unknown_instrument_quarantined (supports : Bool) (retries : ℕ)
    (slip : Option Dec) (moves : List Move) (order : Order)
    (horder : order ∈ ((start supports retries slip).serialRun moves).oms.unresolved) :
    order.intent.instrument ∈
      ((start supports retries slip).serialRun moves).oms.quarantine := by
  have hserial := Session.serialRun_induction (I := fun s => Serial s.oms s.calls)
    Serial.step (Serial.start supports retries slip) moves
  rw [OrderManager.unresolved, List.mem_filter, Dict.mem_values_iff] at horder
  obtain ⟨⟨c, hget⟩, hunknown⟩ := horder
  exact hserial.covered.held c _ ⟨order, hget, of_decide_eq_true hunknown, rfl⟩

def lostIntent : OrderIntent where
  toIntentFields :=
    { clientOrderId := "c-1", strategy := "trend", instrument := "EURUSD", side := .buy,
      lots := 1, stopLoss := some 1, takeProfit := some 2 }
  accepted := by decide +kernel

/-- The submission of `lostIntent`, up to the query for its outcome. -/
def lostMoves : List Move :=
  let reply : Reply := ⟨.unknownOutcome "timeout", .notFound, {}⟩
  .submit lostIntent none :: List.replicate 4 (.advance 0 reply)

theorem unknown_instrument_quarantined_lost :
    "EURUSD" ∈ ((start true 2 none).serialRun lostMoves).oms.quarantine :=
  unknown_instrument_quarantined true 2 none lostMoves
    { intent := lostIntent, state := .unknown, attempts := 1, lastError := some "timeout" }
    (List.mem_singleton.2 rfl)

end Sentinel
