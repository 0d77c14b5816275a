import Sentinel.Execution.Resolution

/-!
# The fills of an order

A venue reports the fills of an order cumulatively, and the order takes in
those it does not know.  It knows a fill by the order id, the lots and the
price.
-/

namespace Sentinel

/-- A result as `_apply_result` gets it. -/
structure Report where
  result : SubmitResult
  decisionPrice : Option Dec := none
  replies : ApplyReplies := {}

namespace Report

def Ignored (r : Report) : Prop := r.result.state = .rejected ∨ r.result.state = .unknown

instance (r : Report) : Decidable r.Ignored := by
  unfold Ignored
  infer_instance

def take (fills : List Fill) (r : Report) : List Fill :=
  if r.Ignored then fills
  else OrderManager.recordedFills r.decisionPrice r.replies fills r.result.fills

def count (n : ℕ) (r : Report) : ℕ :=
  if r.Ignored then n
  else if OrderManager.Priced r.decisionPrice r.replies then r.result.fills.length
  else min r.result.fills.length (n + 1)

end Report

def finalFills (reports : List Report) : List Fill :=
  (reports.getLast?.map fun r => r.result.fills).getD []

def Cumulative (reports : List Report) : Prop :=
  reports.Pairwise fun r r' => r.result.fills.Subperm r'.result.fills

/-! ## Recording -/

theorem finalFills_cons_cons (r r' : Report) (reports : List Report) :
    finalFills (r :: r' :: reports) = finalFills (r' :: reports) := by
  rw [finalFills, List.getLast?_cons_cons]
  rfl

theorem Cumulative.subperm_finalFills {reports : List Report} (h : Cumulative reports)
    {r : Report} (hr : r ∈ reports) : r.result.fills.Subperm (finalFills reports) := by
  induction reports generalizing r with
  | nil => cases hr
  | cons first reports ih =>
      rw [Cumulative, List.pairwise_cons] at h
      rcases reports with - | ⟨second, reports⟩
      · rw [List.mem_singleton.1 hr]
        exact List.Subperm.refl _
      · rw [finalFills_cons_cons]
        rcases List.mem_cons.1 hr with rfl | hrest
        · exact (h.1 second List.mem_cons_self).trans (ih h.2 List.mem_cons_self)
        · exact ih h.2 hrest

section Recording

variable {held : List Fill}

theorem nodup_recordedFills (decisionPrice : Option Dec) (replies : ApplyReplies)
    (reported : List Fill) (h : (held.map Fill.reported).Nodup) :
    ((OrderManager.recordedFills decisionPrice replies held reported).map Fill.reported).Nodup := by
  have hall : ((recordUnseen Fill.reported held reported).map Fill.reported).Nodup :=
    nodup_recordUnseen h
  rw [OrderManager.recordedFills]
  split_ifs
  · exact hall
  · exact ((List.take_sublist _ _).map Fill.reported).nodup hall

theorem nodup_take (r : Report) (h : (held.map Fill.reported).Nodup) :
    ((r.take held).map Fill.reported).Nodup := by
  rw [Report.take]
  split_ifs
  · exact h
  · exact nodup_recordedFills _ _ _ h

theorem nodup_foldl_take (reports : List Report) (h : (held.map Fill.reported).Nodup) :
    ((reports.foldl Report.take held).map Fill.reported).Nodup := by
  induction reports generalizing held with
  | nil => exact h
  | cons r reports ih => exact ih (nodup_take r h)

theorem take_spec {r : Report} (hkeys : (r.result.fills.map Fill.reported).Nodup)
    (hnodup : (held.map Fill.reported).Nodup) (hheld : held ⊆ r.result.fills) :
    r.take held ⊆ r.result.fills ∧ (r.take held).length = r.count held.length := by
  have hperm := recordUnseen_perm hkeys hnodup hheld
  rw [Report.take, Report.count]
  by_cases hignored : r.Ignored
  · rw [if_pos hignored, if_pos hignored]
    exact ⟨hheld, rfl⟩
  · rw [if_neg hignored, if_neg hignored, OrderManager.recordedFills]
    by_cases hpriced : OrderManager.Priced r.decisionPrice r.replies
    · rw [if_pos hpriced, if_pos hpriced]
      exact ⟨hperm.subset, hperm.length_eq⟩
    · rw [if_neg hpriced, if_neg hpriced, List.length_take, hperm.length_eq, Nat.min_comm]
      exact ⟨fun fill hfill => hperm.subset (List.take_subset _ _ hfill), rfl⟩

theorem foldl_take_spec {reports : List Report} {final : List Fill}
    (hcumulative : Cumulative reports) (hkeys : (final.map Fill.reported).Nodup)
    (hfinal : ∀ r ∈ reports, r.result.fills.Subperm final)
    (hnodup : (held.map Fill.reported).Nodup) (hheld : ∀ r ∈ reports, held ⊆ r.result.fills)
    (hsubset : held ⊆ final) :
    reports.foldl Report.take held ⊆ final ∧
      (reports.foldl Report.take held).length = reports.foldl Report.count held.length := by
  induction reports generalizing held with
  | nil => exact ⟨hsubset, rfl⟩
  | cons r reports ih =>
      rw [Cumulative, List.pairwise_cons] at hcumulative
      have hr := hfinal r List.mem_cons_self
      have hdistinct : (r.result.fills.map Fill.reported).Nodup := by
        obtain ⟨fills, hperm, hsublist⟩ := hr
        exact (hperm.map Fill.reported).nodup_iff.1 ((hsublist.map Fill.reported).nodup hkeys)
      obtain ⟨htaken, hlength⟩ := take_spec hdistinct hnodup (hheld r List.mem_cons_self)
      rw [List.foldl_cons, List.foldl_cons, ← hlength]
      apply ih hcumulative.2 (fun r' hr' => hfinal r' (List.mem_cons_of_mem r hr'))
        (nodup_take r hnodup)
      · intro r' hr'
        exact fun fill hfill => (hcumulative.1 r' hr').subset (htaken hfill)
      · exact fun fill hfill => hr.subset (htaken hfill)

theorem foldl_take_perm_iff {reports : List Report} (hcumulative : Cumulative reports) :
    (reports.foldl Report.take []).Perm (finalFills reports) ↔
      ((finalFills reports).map Fill.reported).Nodup ∧
        reports.foldl Report.count 0 = (finalFills reports).length := by
  have hnodup : ((reports.foldl Report.take []).map Fill.reported).Nodup :=
    nodup_foldl_take reports List.nodup_nil
  have hspec : ((finalFills reports).map Fill.reported).Nodup →
      reports.foldl Report.take [] ⊆ finalFills reports ∧
        (reports.foldl Report.take []).length = reports.foldl Report.count 0 := fun hkeys =>
    foldl_take_spec hcumulative hkeys (fun r hr => hcumulative.subperm_finalFills hr)
      List.nodup_nil (fun r _ => List.nil_subset _) (List.nil_subset _)
  constructor
  · intro hperm
    have hkeys := (hperm.map Fill.reported).nodup_iff.1 hnodup
    exact ⟨hkeys, (hspec hkeys).2.symm.trans hperm.length_eq⟩
  · rintro ⟨hkeys, hcount⟩
    obtain ⟨hsubset, hlength⟩ := hspec hkeys
    apply (List.Nodup.subperm hnodup.of_map hsubset).perm_of_length_le
    rw [hlength]
    exact hcount.ge

end Recording

/-! ## The order -/

namespace OrderManager

variable {c : String} {o : Order} {quarantine : List String}

theorem moved_fills (new : OrderState) (o : Order) (quarantine : List String) :
    (moved new o quarantine).order.fills = o.fills := by
  rw [moved]
  split_ifs <;> rfl

variable (intent : OrderIntent)

theorem movedUnknown_fills (o : Order) (quarantine : List String) :
    (movedUnknown intent o quarantine).order.fills = o.fills := by
  rw [movedUnknown, OwnStanding.andThen]
  split_ifs <;> exact moved_fills .unknown o quarantine

theorem finished_fills (result : SubmitResult) (replies : ApplyReplies)
    (o : Order) (quarantine : List String) :
    (finished intent result replies o quarantine).order.fills = o.fills := by
  rw [finished]
  split_ifs
  · exact movedUnknown_fills intent o quarantine
  · obtain ⟨confirmed, quarantine', hreasserted, -, -⟩ :=
      reasserted_spec intent result replies o quarantine
    rw [hreasserted]
    exact moved_fills _ _ _

theorem applied_fills (r : Report) (o : Order) (quarantine : List String) :
    (applied intent r.result r.decisionPrice r.replies o quarantine).order.fills =
      r.take o.fills := by
  rw [applied, Report.take]
  by_cases hrejected : r.result.state = .rejected
  · rw [if_pos hrejected, if_pos (.inl hrejected), OwnStanding.andThen]
    split_ifs
    · exact moved_fills _ _ _
    · exact moved_fills _ _ _
  by_cases hunknown : r.result.state = .unknown
  · rw [if_neg hrejected, if_pos hunknown, if_pos (.inr hunknown)]
    exact movedUnknown_fills _ _ _
  have hread : ¬ r.Ignored := not_or.2 ⟨hrejected, hunknown⟩
  rw [if_neg hrejected, if_neg hunknown, if_neg hread]
  split_ifs
  · rfl
  · exact finished_fills _ _ _ _ _

def applyReports (c : String) (intent : OrderIntent) (reports : List Report)
    (om : OrderManager) : OrderManager :=
  reports.foldl
    (fun om r => finalState (applyResult c intent r.result r.decisionPrice r.replies) om) om

theorem order?_applyReports (reports : List Report) {om : OrderManager}
    (ho : om.order? c = some o) :
    ∃ o', (applyReports c intent reports om).order? c = some o' ∧
      o'.fills = reports.foldl Report.take o.fills := by
  induction reports generalizing om o with
  | nil => exact ⟨o, ho, rfl⟩
  | cons r reports ih =>
      have hmeans : Means c _ o om.quarantine _ :=
        means_applyResult intent r.result r.decisionPrice r.replies
      obtain ⟨o', ho', hfills⟩ := ih (hmeans.finalState ⟨ho, rfl⟩).1
      rw [applied_fills] at hfills
      exact ⟨o', ho', hfills⟩

def HasFills (c : String) (fills : List Fill) (om : OrderManager) : Prop :=
  ∃ o, om.order? c = some o ∧ o.fills.Perm fills ∧
    o.filledLots = (fills.map Fill.lots).sum ∧
    o.avgFillPrice =
      if (fills.map Fill.lots).sum ≤ 0 then none
      else some ((fills.map fun f => f.price * f.lots).sum / (fills.map Fill.lots).sum)

theorem hasFills_iff {fills : List Fill} {om : OrderManager} (ho : om.order? c = some o) :
    HasFills c fills om ↔ o.fills.Perm fills := by
  constructor
  · rintro ⟨o', ho', hperm, -⟩
    cases ho.symm.trans ho'
    exact hperm
  · intro hperm
    have hlots : o.filledLots = (fills.map Fill.lots).sum := (hperm.map Fill.lots).sum_eq
    refine ⟨o, ho, hperm, hlots, ?_⟩
    rw [Order.avgFillPrice, hlots, (hperm.map fun f => f.price * f.lots).sum_eq]

/-- After cumulative reports a new order has the venue's final fills exactly
when no two of them share order id, lots and price, and the reports it looks at
and can price bring it as many. -/
theorem applyReports_hasFills_iff {om : OrderManager} (intent : OrderIntent)
    {reports : List Report} (ho : om.order? c = some o) (hfills : o.fills = [])
    (hcumulative : Cumulative reports) :
    HasFills c (finalFills reports) (applyReports c intent reports om) ↔
      ((finalFills reports).map Fill.reported).Nodup ∧
        reports.foldl Report.count 0 = (finalFills reports).length := by
  obtain ⟨o', ho', hrecorded⟩ := order?_applyReports intent reports ho
  rw [hfills] at hrecorded
  rw [hasFills_iff ho', hrecorded]
  exact foldl_take_perm_iff hcumulative

def halfFill (price : Dec) : Fill where
  venueOrderId := "v-1"
  lots := 1 / 2
  price := price

def twoPrices : List Report :=
  [{ result := { state := .partlyFilled, fills := [halfFill 1] } },
    { result := { state := .filled, fills := [halfFill 1, halfFill 2] } }]

theorem applyReports_twoPrices :
    HasFills "c-1" (finalFills twoPrices) (applyReports "c-1" stoppedBuy twoPrices timedOut) :=
  (applyReports_hasFills_iff stoppedBuy order?_timedOut rfl (by
    simp [Cumulative, twoPrices, List.singleton_subperm_iff])).2 (by decide +kernel)

def onePrice : List Report :=
  [{ result := { state := .filled, fills := [halfFill 1, halfFill 1] } }]

/-- The second of two equal fills is taken for the first. -/
theorem equal_fill_dropped :
    Cumulative onePrice ∧
      ((applyReports "c-1" stoppedBuy onePrice timedOut).order? "c-1").map Order.filledLots =
        some (1 / 2) ∧
      ¬ HasFills "c-1" (finalFills onePrice)
        (applyReports "c-1" stoppedBuy onePrice timedOut) := by
  have hlots : ((applyReports "c-1" stoppedBuy onePrice timedOut).order? "c-1").map
      Order.filledLots = some (1 / 2) := by
    decide +kernel
  refine ⟨List.pairwise_singleton _ _, hlots, ?_⟩
  rintro ⟨o, ho, -, hfilled, -⟩
  rw [ho, Option.map_some, hfilled] at hlots
  revert hlots
  decide +kernel

end OrderManager

end Sentinel
