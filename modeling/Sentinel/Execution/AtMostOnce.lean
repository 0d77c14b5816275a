import Mathlib.Data.List.Count
import Sentinel.Execution.Frame

/-!
# At-most-once submission

Fix a client order id.  At any moment at most one call is inside the retry
loop for it, and the number of `broker.submit` calls made so far is the number
of attempts that call has begun.  An order that has left the states that may
be sent has made its last submission, and UNKNOWN is one of these.
-/

namespace Sentinel

open OrderManager

namespace Session

/-- The calls in the retry loop for `c`, by the attempts they have begun. -/
def loops (s : Session) (c : String) : List ℕ := s.calls.filterMap (Call.attempts? c)

variable {s : Session} {index : ℕ} {call : Call}

theorem calls_split (hcall : s.calls[index]? = some call) :
    s.calls = s.calls.take index ++ call :: s.calls.drop (index + 1) := by
  obtain ⟨hlt, hget⟩ := List.getElem?_eq_some_iff.1 hcall
  rw [← hget, List.getElem_cons_drop, List.take_append_drop]

theorem loops_replaceCall (hcall : s.calls[index]? = some call) (c : String) (next : Option Call) :
    ∃ front back, s.loops c = front ++ (call.attempts? c).toList ++ back ∧
      (s.replaceCall index next).filterMap (Call.attempts? c) =
        front ++ (next.bind (Call.attempts? c)).toList ++ back := by
  refine ⟨(s.calls.take index).filterMap (Call.attempts? c),
    (s.calls.drop (index + 1)).filterMap (Call.attempts? c), ?_, ?_⟩
  · unfold loops
    conv_lhs => rw [calls_split hcall]
    cases hk : call.attempts? c <;> simp [List.filterMap_append, hk]
  · cases next with
    | none => simp [replaceCall]
    | some n => cases hk : n.attempts? c <;> simp [replaceCall, hk]

/-! ## Counting the submissions of one order -/

/-- The calls and the count of submissions agree about the order `c`. -/
structure Counted (c : String) (s : Session) : Prop where
  unregistered : s.oms.order? c = none → s.loops c = [] ∧ s.submitted.count c = 0
  single : (s.loops c).length ≤ 1
  counted : ∀ k ∈ s.loops c, s.submitted.count c = k
  bounded : s.submitted.count c ≤ 1 + s.oms.maxRetries

theorem Counted.start (c : String) (supports : Bool) (retries : ℕ)
    (slip : Option Dec) : Counted c (start supports retries slip) where
  unregistered := fun _ => ⟨rfl, rfl⟩
  single := Nat.zero_le 1
  counted := by
    intro k hk
    cases hk
  bounded := Nat.zero_le _

variable {c : String}

theorem Counted.of_sublist {s t : Session} (h : Counted c s)
    (hloops : (t.loops c).Sublist (s.loops c))
    (hcount : t.submitted.count c = s.submitted.count c)
    (hretries : t.oms.maxRetries = s.oms.maxRetries)
    (hnone : t.oms.order? c = none → s.oms.order? c = none) : Counted c t where
  unregistered := by
    intro ht
    obtain ⟨hempty, hzero⟩ := h.unregistered (hnone ht)
    rw [hempty] at hloops
    exact ⟨List.eq_nil_of_sublist_nil hloops, by rw [hcount, hzero]⟩
  single := hloops.length_le.trans h.single
  counted := fun k hk => hcount.trans (h.counted k (hloops.subset hk))
  bounded := by
    rw [hcount, hretries]
    exact h.bounded

theorem loops_sublist (hcall : s.calls[index]? = some call) {c : String} {next : Option Call}
    (hnext : ∀ n, next = some n →
      n.attempts? c = none ∨ n.attempts? c = call.attempts? c) :
    ((s.replaceCall index next).filterMap (Call.attempts? c)).Sublist (s.loops c) := by
  obtain ⟨front, back, hbefore, hafter⟩ := loops_replaceCall hcall c next
  rw [hbefore, hafter]
  refine List.Sublist.append (List.Sublist.append (List.Sublist.refl _) ?_)
    (List.Sublist.refl _)
  cases next with
  | none => exact List.nil_sublist _
  | some n =>
      rcases hnext n rfl with hnone | hsame
      · simp [hnone]
      · simp [hsame]

theorem Counted.advance (h : Counted c s) (index : ℕ)
    (reply : Reply) : Counted c (s.advance index reply) := by
  cases hcall : s.calls[index]? with
  | none => simpa only [Session.advance, hcall] using h
  | some call =>
      rw [advance_eq hcall]
      have heffect := call.step_effect reply s.oms
      generalize finalState (call.step reply) s.oms = om' at heffect ⊢
      generalize call.after reply s.oms = next at heffect ⊢
      cases heffect with
      | registers intent decisionPrice hquarantine hnew =>
          by_cases hc : intent.clientOrderId = c
          · subst hc
            obtain ⟨hempty, hzero⟩ := h.unregistered hnew
            obtain ⟨front, back, hbefore, hafter⟩ :=
              loops_replaceCall hcall intent.clientOrderId
                (some (.attempting intent decisionPrice 0))
            have hnil : front = [] ∧ back = [] := by
              rw [hempty] at hbefore
              simpa [Call.attempts?] using hbefore.symm
            have hloops : (s.replaceCall index
                (some (.attempting intent decisionPrice 0))).filterMap
                (Call.attempts? intent.clientOrderId) = [0] := by
              rw [hafter, hnil.1, hnil.2]
              simp [Call.attempts?]
            refine ⟨?_, ?_, ?_, ?_⟩
            · intro hnone
              rw [order?_registered, if_pos rfl] at hnone
              cases hnone
            · simp [loops, hloops]
            · intro k hk
              have hk0 : k = 0 := by simpa [loops, hloops] using hk
              simp [sent, Call.wireId, hzero, hk0]
            · simp [sent, Call.wireId, hzero]
          · refine h.of_sublist (loops_sublist hcall ?_) ?_ rfl ?_
            · rintro n ⟨⟩
              exact .inl (by simp [Call.attempts?, hc])
            · simp [sent, Call.wireId]
            · intro hnone
              rwa [order?_registered, if_neg (Ne.symm hc)] at hnone
      | sends intent decisionPrice k hk hopen hframe =>
          by_cases hc : intent.clientOrderId = c
          · subst hc
            obtain ⟨front, back, hbefore, hafter⟩ :=
              loops_replaceCall hcall intent.clientOrderId
                (some (.onWire intent decisionPrice (k + 1)))
            -- the advancing call is the only loop, and it counted to `k`
            have hnil : front = [] ∧ back = [] := by
              have hlen := h.single
              rw [hbefore] at hlen
              simp only [Call.attempts?, if_true, Option.toList_some, List.length_append,
                List.length_cons, List.length_nil] at hlen
              exact ⟨List.length_eq_zero_iff.1 (by omega),
                List.length_eq_zero_iff.1 (by omega)⟩
            have hcount : s.submitted.count intent.clientOrderId = k := by
              refine h.counted k ?_
              rw [hbefore]
              simp [Call.attempts?]
            have hloops : (s.replaceCall index
                (some (.onWire intent decisionPrice (k + 1)))).filterMap
                (Call.attempts? intent.clientOrderId) = [k + 1] := by
              rw [hafter, hnil.1, hnil.2]
              simp [Call.attempts?]
            refine ⟨?_, ?_, ?_, ?_⟩
            · intro hnone
              have hsame := hframe.isSome_eq intent.clientOrderId
              simp only [hnone, Option.isSome_none] at hsame
              have hempty := (h.unregistered (by simpa using hsame.symm)).1
              rw [hempty] at hbefore
              simp [Call.attempts?] at hbefore
            · simp [loops, hloops]
            · intro j hj
              have hj' : j = k + 1 := by simpa [loops, hloops] using hj
              simp [sent, Call.wireId, hcount, hj']
            · simp only [sent, Option.bind_some, Call.wireId, Option.toList_some,
                List.count_append, hcount, List.count_singleton_self, hframe.maxRetries]
              omega
          · refine h.of_sublist (loops_sublist hcall ?_) ?_ hframe.maxRetries ?_
            · rintro n ⟨⟩
              exact .inl (by simp [Call.attempts?, hc])
            · simp [sent, Call.wireId, hc]
            · intro hnone
              simpa [hnone] using (hframe.isSome_eq c).symm
      | works intent hintent hnext hframe =>
          refine h.of_sublist (loops_sublist hcall fun n hn => (hnext n hn).2.2 c) ?_
            hframe.maxRetries ?_
          · cases next with
            | none => simp [sent]
            | some n => simp [sent, (hnext n rfl).1]
          · intro hnone
            simpa [hnone] using (hframe.isSome_eq c).symm
      | declines horders hsupports hretries hquarantine =>
          refine h.of_sublist (loops_sublist hcall ?_) ?_ hretries ?_
          · rintro n ⟨⟩
          · simp [sent]
          · intro hnone
            simpa [order?, horders] using hnone
      | queries horder hunknown =>
          refine h.of_sublist (loops_sublist hcall ?_) ?_ rfl id
          · rintro n ⟨⟩
            exact .inl rfl
          · simp [sent, Call.wireId]
      | lifts intent horder hterminal horders hsupports hretries hquarantine =>
          refine h.of_sublist (loops_sublist hcall ?_) ?_ hretries ?_
          · rintro n ⟨⟩
          · simp [sent]
          · intro hnone
            simpa [order?, horders] using hnone

theorem Counted.step (s : Session) (move : Move) (h : Counted c s) : Counted c (s.step move) := by
  cases move with
  | submit intent decisionPrice =>
      exact h.of_sublist (by simp [Session.step, loops, Call.attempts?]) rfl rfl id
  | resolve c' =>
      exact h.of_sublist (by simp [Session.step, loops, Call.attempts?]) rfl rfl id
  | advance index reply => exact h.advance index reply
  | accept c' =>
      simp only [Session.step, Session.accept]
      split
      · exact h.of_sublist (List.Sublist.refl _) rfl rfl id
      · exact h
  | lose c' => exact h.of_sublist (List.Sublist.refl _) rfl rfl id

/-! ## After the outcome is settled -/

/-- The order `c` is settled, and `n` submissions were made for it. -/
def SettledAt (c : String) (n : ℕ) (s : Session) : Prop :=
  s.oms.IsSettled c ∧ s.submitted.count c = n

theorem SettledAt.advance {n : ℕ} {s : Session}
    (h : SettledAt c n s) (index : ℕ) (reply : Reply) :
    SettledAt c n (s.advance index reply) := by
  cases hcall : s.calls[index]? with
  | none => simpa only [Session.advance, hcall] using h
  | some call =>
      obtain ⟨hsettled, hcount⟩ := h
      rw [advance_eq hcall]
      have heffect := call.step_effect reply s.oms
      generalize finalState (call.step reply) s.oms = om' at heffect ⊢
      generalize call.after reply s.oms = next at heffect ⊢
      cases heffect with
      | registers intent decisionPrice hquarantine hnew =>
          obtain ⟨o, ho, hstate⟩ := hsettled
          have hne : c ≠ intent.clientOrderId := by
            rintro rfl
            cases hnew.symm.trans ho
          refine ⟨⟨o, ?_, hstate⟩, by simp [sent, Call.wireId, hcount]⟩
          simpa only [order?_registered, if_neg hne] using ho
      | sends intent decisionPrice k hk hopen hframe =>
          have hne : intent.clientOrderId ≠ c := by
            rintro rfl
            exact hopen hsettled
          exact ⟨hframe.isSettled hsettled, by simp [sent, Call.wireId, hcount, hne]⟩
      | works intent hintent hnext hframe =>
          refine ⟨hframe.isSettled hsettled, ?_⟩
          cases next with
          | none => simpa [sent] using hcount
          | some n => simpa [sent, (hnext n rfl).1] using hcount
      | declines horders hsupports hretries hquarantine =>
          refine ⟨?_, by simpa [sent] using hcount⟩
          simpa [IsSettled, order?, horders] using hsettled
      | queries horder hunknown =>
          exact ⟨hsettled, by simpa [sent, Call.wireId] using hcount⟩
      | lifts intent horder hterminal horders hsupports hretries hquarantine =>
          refine ⟨?_, by simpa [sent] using hcount⟩
          simpa [IsSettled, order?, horders] using hsettled

theorem SettledAt.step {n : ℕ} (s : Session) (move : Move)
    (h : SettledAt c n s) : SettledAt c n (s.step move) := by
  cases move with
  | submit intent decisionPrice => exact h
  | resolve c' => exact h
  | advance index reply => exact h.advance index reply
  | accept c' =>
      simp only [Session.step, Session.accept]
      split <;> exact h
  | lose c' => exact h

/-! ## The venue -/

structure Honoured (c : String) (s : Session) : Prop where
  conserved : s.inFlight.count c + s.venueOrders.count c ≤ s.submitted.count c
  deduplicated : s.oms.supportsClientOrderId → s.venueOrders.count c ≤ 1

theorem Honoured.start (c : String) (supports : Bool) (retries : ℕ)
    (slip : Option Dec) : Honoured c (start supports retries slip) where
  conserved := Nat.le_refl 0
  deduplicated := fun _ => Nat.zero_le 1

theorem Honoured.accept (h : Honoured c s) (c' : String) : Honoured c (s.accept c') := by
  unfold Session.accept
  by_cases hflight : c' ∈ s.inFlight
  · rw [if_pos hflight]
    have hconserved := h.conserved
    have hpos : 0 < s.inFlight.count c' := List.count_pos_iff.2 hflight
    by_cases hdup : s.oms.supportsClientOrderId ∧ c' ∈ s.venueOrders
    · rw [if_pos hdup]
      refine ⟨?_, h.deduplicated⟩
      have hle := List.erase_sublist (a := c') (l := s.inFlight) |>.count_le c
      simp only
      omega
    · rw [if_neg hdup]
      by_cases hc : c' = c
      · subst hc
        refine ⟨?_, ?_⟩
        · simp only [List.count_erase_self, List.count_append, List.count_singleton_self]
          omega
        · intro hsupports
          have hnot : c' ∉ s.venueOrders := fun hmem => hdup ⟨hsupports, hmem⟩
          simp [List.count_eq_zero_of_not_mem hnot]
      · refine ⟨?_, ?_⟩
        · simpa [List.count_append, List.count_erase_of_ne (Ne.symm hc), hc] using hconserved
        · intro hsupports
          simpa [List.count_append, hc] using h.deduplicated hsupports
  · rw [if_neg hflight]
    exact h

theorem supports_finalState (reply : Reply) (call : Call) (om : OrderManager) :
    (finalState (call.step reply) om).supportsClientOrderId =
        om.supportsClientOrderId ∧
      (finalState (call.step reply) om).maxRetries = om.maxRetries := by
  have heffect := call.step_effect reply om
  generalize finalState (call.step reply) om = om' at heffect ⊢
  generalize call.after reply om = next at heffect
  cases heffect with
  | registers => exact ⟨rfl, rfl⟩
  | sends intent decisionPrice k hk hopen hframe =>
      exact ⟨hframe.supports, hframe.maxRetries⟩
  | works intent hintent hnext hframe => exact ⟨hframe.supports, hframe.maxRetries⟩
  | declines horders hsupports hretries hquarantine => exact ⟨hsupports, hretries⟩
  | queries => exact ⟨rfl, rfl⟩
  | lifts intent horder hterminal horders hsupports hretries => exact ⟨hsupports, hretries⟩

theorem step_config (s : Session) (move : Move) :
    (s.step move).oms.supportsClientOrderId = s.oms.supportsClientOrderId ∧
      (s.step move).oms.maxRetries = s.oms.maxRetries := by
  cases move with
  | submit intent decisionPrice => exact ⟨rfl, rfl⟩
  | resolve c => exact ⟨rfl, rfl⟩
  | advance index reply =>
      cases hcall : s.calls[index]? with
      | none => simp [Session.step, Session.advance, hcall]
      | some call =>
          simp only [Session.step, advance_eq hcall]
          exact supports_finalState reply call s.oms
  | accept c =>
      simp only [Session.step, Session.accept]
      split <;> exact ⟨rfl, rfl⟩
  | lose c => exact ⟨rfl, rfl⟩

theorem Honoured.step (s : Session) (move : Move)
    (h : Honoured c s) : Honoured c (s.step move) := by
  cases move with
  | submit intent decisionPrice => exact ⟨h.conserved, h.deduplicated⟩
  | resolve c' => exact ⟨h.conserved, h.deduplicated⟩
  | advance index reply =>
      have hconfig := (step_config s (.advance index reply)).1
      simp only [Session.step] at hconfig ⊢
      refine ⟨?_, ?_⟩
      · cases hcall : s.calls[index]? with
        | none => simpa only [Session.advance, hcall] using h.conserved
        | some call =>
            have hconserved := h.conserved
            simp only [advance_eq hcall, List.count_append]
            omega
      · rw [hconfig]
        cases hcall : s.calls[index]? with
        | none => simpa only [Session.advance, hcall] using h.deduplicated
        | some call => simpa only [advance_eq hcall] using h.deduplicated
  | accept c' => exact h.accept c'
  | lose c' =>
      refine ⟨?_, h.deduplicated⟩
      have hconserved := h.conserved
      have hle := List.erase_sublist (a := c') (l := s.inFlight) |>.count_le c
      simp only [Session.step]
      omega

end Session

open Session

variable (supports : Bool) (retries : ℕ) (slip : Option Dec)

theorem new_maxRetries_le : (OrderManager.new supports retries slip).maxRetries ≤ retries := by
  simp only [OrderManager.new]
  split <;> omega

theorem new_maxRetries_of_unsupported : (OrderManager.new false retries slip).maxRetries = 0 := by
  by_cases h : 0 < retries
  · simp [OrderManager.new, h]
  · simp only [OrderManager.new]
    split <;> omega

theorem run_config (moves : List Move) :
    ((start supports retries slip).run moves).oms.supportsClientOrderId = supports ∧
      ((start supports retries slip).run moves).oms.maxRetries =
        (OrderManager.new supports retries slip).maxRetries :=
  Session.run_induction
    (I := fun s => s.oms.supportsClientOrderId = supports ∧
      s.oms.maxRetries = (OrderManager.new supports retries slip).maxRetries)
    (fun s move h => ⟨(step_config s move).1.trans h.1, (step_config s move).2.trans h.2⟩)
    ⟨rfl, rfl⟩ moves

/-- Whatever the interleaving of the calls and the answers of the venue, an
order is written to the socket at most once more than the retry budget, at
most once where ids are not supported, and never again once it was UNKNOWN; so
the venue holds at most one order under its id. -/
theorem submit_at_most_once (moves : List Move) (c : String) :
    let s := (start supports retries slip).run moves
    s.submitted.count c ≤ 1 + retries ∧
      (supports = false → s.submitted.count c ≤ 1) ∧
      (∀ pre post, moves = pre ++ post →
        ((start supports retries slip).run pre).oms.IsUnknown c →
        s.submitted.count c =
          ((start supports retries slip).run pre).submitted.count c) ∧
      s.venueOrders.count c ≤ 1 := by
  intro s
  have hcounted : Counted c s :=
    Session.run_induction (I := Counted c) Counted.step
      (Counted.start c supports retries slip) moves
  have hhonoured : Honoured c s :=
    Session.run_induction (I := Honoured c) Honoured.step
      (Honoured.start c supports retries slip) moves
  obtain ⟨hsupports, hretries⟩ := run_config supports retries slip moves
  have hbounded := hcounted.bounded
  rw [hretries] at hbounded
  have hnoId : supports = false → s.submitted.count c ≤ 1 := by
    rintro rfl
    rwa [new_maxRetries_of_unsupported] at hbounded
  refine ⟨?_, hnoId, ?_, ?_⟩
  · have hle := new_maxRetries_le supports retries slip
    omega
  · rintro pre post rfl hunknown
    have hsettled : SettledAt c _ (((start supports retries slip).run pre).run post) :=
      Session.run_induction (I := SettledAt c _) SettledAt.step
        ⟨hunknown.isSettled, rfl⟩ post
    rw [← run_append] at hsettled
    exact hsettled.2
  · cases hs : supports with
    | true => exact hhonoured.deduplicated (hsupports.trans hs)
    | false =>
        have hconserved := hhonoured.conserved
        have hone := hnoId hs
        omega

end Sentinel
