import Mathlib.Tactic.NormNum
import Sentinel.Risk.Protect

/-!
# Protective stops and the market

Where the stops that the protection rules ask for lie relative to the price at
which the position could be closed now.  The trail and the ratchet compare their
level with that price; the break-even rule does not.
-/

namespace Sentinel

/-! ## Collapsing competing stops -/

def stopMoves (out : List ProtectInstruction) : List (ProtectInstruction × Dec) :=
  out.filterMap fun i => i.newStop?.map fun stop => (i, stop)

variable {out : List ProtectInstruction}

variable {i : ProtectInstruction}

theorem mem_stopMoves {stop : Dec} :
    (i, stop) ∈ stopMoves out ↔ i ∈ out ∧ i.newStop? = some stop := by
  simp only [stopMoves, List.mem_filterMap, Option.map_eq_some_iff, Prod.mk.injEq]
  constructor
  · rintro ⟨j, hj, s, hs, rfl, rfl⟩
    exact ⟨hj, hs⟩
  · rintro ⟨hi, hstop⟩
    exact ⟨i, hi, stop, hstop, rfl, rfl⟩

variable {side : Side}

theorem foldl_saferMove_of_safest {first : ProtectInstruction × Dec}
    {rest : List (ProtectInstruction × Dec)}
    (h : ∀ m ∈ rest, side.AtLeastAsSafe m.2 first.2) :
    rest.foldl (saferMove side) first = first := by
  induction rest with
  | nil => rfl
  | cons next rest ih =>
      have hfirst : saferMove side first next = first := by
        have hnext := h next List.mem_cons_self
        unfold saferMove
        cases side
        · exact if_neg (not_lt.mpr hnext)
        · exact if_neg (not_lt.mpr hnext)
      rw [List.foldl_cons, hfirst]
      exact ih fun m hm => h m (List.mem_cons_of_mem _ hm)

theorem mem_collapseMoves_of_safest
    {first : ProtectInstruction × Dec} {rest : List (ProtectInstruction × Dec)}
    (hmoves : stopMoves out = first :: rest)
    (h : ∀ m ∈ rest, side.AtLeastAsSafe m.2 first.2) : first.1 ∈ collapseMoves side out := by
  have hin : first.1 ∈ out := by
    have hmem : first ∈ stopMoves out := hmoves ▸ List.mem_cons_self
    exact (mem_stopMoves.mp hmem).1
  rw [collapseMoves]
  rw [← stopMoves, hmoves]
  rcases rest with _ | ⟨second, rest⟩
  · exact hin
  · simp only [foldl_saferMove_of_safest h]
    exact List.mem_append_right _ List.mem_cons_self

theorem supersede_of_open
    (h : ∀ i ∈ out, i.action ≠ .close) : supersede side out = collapseMoves side out := by
  have hnone : (out.filter fun i => i.action = .close) = [] :=
    List.filter_eq_nil_iff.mpr fun i hi => by simpa using h i hi
  rw [supersede]
  rw [hnone]

theorem exists_supersede_eq (side : Side) {out : List ProtectInstruction}
    {j : ProtectInstruction} (hj : j ∈ out) (hclose : j.action = .close) :
    ∃ i, i.action = .close ∧ supersede side out = [i] := by
  rw [supersede]
  split
  · rename_i hnone
    exact absurd hclose (by simpa using List.filter_eq_nil_iff.mp hnone j hj)
  · rename_i first rest hclosed
    have hfirst : first ∈ out.filter fun i => i.action = .close :=
      hclosed ▸ List.mem_cons_self
    exact ⟨first, by simpa using (List.mem_filter.mp hfirst).2, rfl⟩

theorem newStop?_of_close (h : i.action = .close) : i.newStop? = none := by
  rw [ProtectInstruction.newStop?, h]

theorem newStop?_of_partialClose {lots : Dec}
    (h : i.action = .partialClose lots) : i.newStop? = none := by
  rw [ProtectInstruction.newStop?, h]

/-! ## The rules and the market -/

/-- The stop of an instruction is strictly short of the price `ref`. -/
def ProtectInstruction.ShortOf (side : Side) (ref : Dec) (i : ProtectInstruction) : Prop :=
  ∀ stop ∈ i.newStop?, beyond side ref stop = false

section Market

variable {cfg : ProtectConfig} {p : Position} {quote : Quote} {inst : Instrument}
  {atr : Option Dec} {r conv : Dec} {costModel : Option CostModel} {i : ProtectInstruction}

theorem partialTakeRule_action (h : partialTakeRule cfg p inst r = some i) :
    i.action =
      .partialClose (inst.roundLotsDown (p.lots * cfg.partialTakeFraction)) := by
  rw [partialTakeRule] at h
  simp only at h
  split_ifs at h
  rw [← Option.some.inj h]

theorem atrTrailRule_shortOf (h : atrTrailRule cfg p quote inst r atr = some i) :
    (∃ stop, i.newStop? = some stop) ∧
      i.ShortOf p.side (quote.priceFor p.side.opposite) := by
  unfold atrTrailRule at h
  rcases atr with _ | range
  · exact absurd h (by simp)
  · simp only at h
    split_ifs at h with harmed hbeyond
    rw [moveStop] at h
    split_ifs at h
    rw [← Option.some.inj h]
    refine ⟨⟨_, rfl⟩, ?_⟩
    intro stop hstop
    rw [← Option.some.inj hstop]
    simpa using hbeyond

def givebackFloor (cfg : ProtectConfig) (p : Position) (inst : Instrument) (conv : Dec) : Dec :=
  inst.roundPrice (p.entryPrice +
    riskDistance p inst conv * (p.maxFavourable * cfg.givebackKeepFraction) * p.side.sign)

structure GivebackDue (cfg : ProtectConfig) (p : Position) (inst : Instrument) (conv : Dec) :
    Prop where
  on : 0 < cfg.givebackArmR
  sized : 0 < riskDistance p inst conv
  armed : cfg.givebackArmR ≤ p.maxFavourable
  tightens : tighter p.side p.stopLoss (givebackFloor cfg p inst conv) = true

structure GivebackCloses (cfg : ProtectConfig) (p : Position) (quote : Quote)
    (inst : Instrument) (conv : Dec) : Prop where
  due : GivebackDue cfg p inst conv
  past : beyond p.side (quote.priceFor p.side.opposite) (givebackFloor cfg p inst conv) = true

theorem givebackRule_of_due (quote : Quote) (r : Dec) (h : GivebackDue cfg p inst conv) :
    givebackRule cfg p quote inst r conv =
      some { action :=
               if beyond p.side (quote.priceFor p.side.opposite) (givebackFloor cfg p inst conv)
               then .close else .moveStop (givebackFloor cfg p inst conv)
             rule := .giveback
             rAtTrigger := r } := by
  have htight := h.tightens
  rw [givebackFloor] at htight ⊢
  rw [givebackRule]
  simp only [priceAtR, if_neg (not_le.mpr h.sized)]
  rw [if_pos ⟨h.on, h.sized, h.armed⟩, if_pos htight]
  split_ifs
  · rfl
  · rfl

theorem givebackDue_of_rule (h : givebackRule cfg p quote inst r conv = some i) :
    GivebackDue cfg p inst conv := by
  unfold givebackRule at h
  simp only at h
  split_ifs at h with harmed
  obtain ⟨hon, hsized, hpeak⟩ := harmed
  simp only [priceAtR, if_neg (not_le.mpr hsized)] at h
  split_ifs at h with htighter hbeyond
  · exact ⟨hon, hsized, hpeak, htighter⟩
  · exact ⟨hon, hsized, hpeak, htighter⟩

theorem givebackRule_cases (h : givebackRule cfg p quote inst r conv = some i) :
    i.action = .close ∧ GivebackCloses cfg p quote inst conv ∨
      i.newStop? = some (givebackFloor cfg p inst conv) ∧
        i.ShortOf p.side (quote.priceFor p.side.opposite) := by
  have hdue := givebackDue_of_rule h
  rw [givebackRule_of_due quote r hdue] at h
  rw [← Option.some.inj h]
  by_cases hpast : beyond p.side (quote.priceFor p.side.opposite) (givebackFloor cfg p inst conv)
  · exact .inl ⟨by simp [hpast], hdue, hpast⟩
  · refine .inr ⟨by simp [ProtectInstruction.newStop?, hpast], ?_⟩
    intro stop hstop
    simp only [ProtectInstruction.newStop?, if_neg hpast, Option.mem_some_iff] at hstop
    rw [← hstop]
    simpa using hpast

/-- The break-even rule is due, and the level it asks for (entry plus the cost
of the round trip, on the tick grid) tightens the stop and lies at the price the
position could be closed at, or past it. -/
structure BreakevenCrosses (cfg : ProtectConfig) (p : Position) (quote : Quote)
    (inst : Instrument) (conv : Dec) (costModel : Option CostModel) : Prop where
  on : 0 < cfg.breakevenTriggerR
  notMoved : ¬p.breakevenMoved
  reached : ∃ r ∈ p.rMultiple quote inst conv, cfg.breakevenTriggerR ≤ r
  sized : 0 < riskDistance p inst conv
  tightens : tighter p.side p.stopLoss (breakevenStop inst p conv costModel)
  past : beyond p.side (quote.priceFor p.side.opposite) (breakevenStop inst p conv costModel)

theorem breakevenRule_shortOf (hr : p.rMultiple quote inst conv = some r)
    (hfree : ¬BreakevenCrosses cfg p quote inst conv costModel)
    (h : breakevenRule cfg p inst r conv costModel = some i) :
    i.ShortOf p.side (quote.priceFor p.side.opposite) := by
  rw [breakevenRule] at h
  split_ifs at h with harmed
  obtain ⟨hon, hmoved, hreached, hsized⟩ := harmed
  rw [moveStop] at h
  split_ifs at h with htighter
  rw [← Option.some.inj h]
  intro stop hstop
  rw [← Option.some.inj hstop, Bool.eq_false_iff]
  exact fun hpast =>
    hfree ⟨hon, hmoved, ⟨r, hr, hreached⟩, hsized, htighter, hpast⟩

theorem breakevenRule_of_crosses (hr : p.rMultiple quote inst conv = some r)
    (h : BreakevenCrosses cfg p quote inst conv costModel) :
    breakevenRule cfg p inst r conv costModel =
      some { action := .moveStop (breakevenStop inst p conv costModel),
             rule := .breakeven, rAtTrigger := r } := by
  obtain ⟨r', hr', hreached⟩ := h.reached
  obtain rfl : r' = r := Option.some.inj (hr'.symm.trans hr)
  rw [breakevenRule, if_pos ⟨h.on, h.notMoved, hreached, h.sized⟩, moveStop,
    if_pos h.tightens]

end Market

/-! ## One call -/

/-- What a call may return: at most one stop move, strictly tighter than the
stop there is and strictly short of the price the position could be closed at,
and a close only by itself. -/
structure ProtectionSafe (p : Position) (quote : Quote) (out : List ProtectInstruction) :
    Prop where
  one_stop : (out.filterMap ProtectInstruction.newStop?).length ≤ 1
  tightens : ∀ i ∈ out, ∀ stop ∈ i.newStop?, tighter p.side p.stopLoss stop = true
  short : ∀ i ∈ out, i.ShortOf p.side (quote.priceFor p.side.opposite)
  close_alone : ∀ i ∈ out, i.action = .close → out = [i]

theorem atLeastAsSafe_of_beyond {ref past short : Dec}
    (hpast : beyond side ref past = true) (hshort : beyond side ref short = false) :
    side.AtLeastAsSafe short past := by
  rcases side with _ | _
  · have hlt : ¬ref ≤ short := of_decide_eq_false hshort
    exact (not_le.mp hlt).le.trans (of_decide_eq_true hpast)
  · have hlt : ¬short ≤ ref := of_decide_eq_false hshort
    exact (of_decide_eq_true hpast : past ≤ ref).trans (not_le.mp hlt).le

section Call

variable (cfg : ProtectConfig) (p : Position) (quote : Quote) (inst : Instrument)
  (atr : Option Dec) (conv : Dec) (costModel : Option CostModel)

theorem crossing_stop_returned (hcross : BreakevenCrosses cfg p quote inst conv costModel)
    (hopen : ¬GivebackCloses cfg p quote inst conv) :
    ∃ i ∈ evaluateProtection cfg p quote inst atr conv costModel,
      i.newStop? = some (breakevenStop inst p conv costModel) := by
  obtain ⟨r, hr, -⟩ := hcross.reached
  have hr' : p.rMultiple quote inst conv = some r := hr
  have hothers : ∀ j ∈ (partialTakeRule cfg p inst r).toList ++
      (atrTrailRule cfg p quote inst r atr).toList ++
      (givebackRule cfg p quote inst r conv).toList,
      j.action ≠ .close ∧ j.ShortOf p.side (quote.priceFor p.side.opposite) := by
    intro j hj
    simp only [List.mem_append, Option.mem_toList] at hj
    rcases hj with (htake | htrail) | hgiveback
    · have haction := partialTakeRule_action htake
      exact ⟨by simp [haction], by
        simp [ProtectInstruction.ShortOf, newStop?_of_partialClose haction]⟩
    · obtain ⟨⟨stop, hstop⟩, hshort⟩ := atrTrailRule_shortOf htrail
      exact ⟨fun hclose => by simp [newStop?_of_close hclose] at hstop, hshort⟩
    · rcases givebackRule_cases hgiveback with ⟨-, hcloses⟩ | ⟨hstop, hshort⟩
      · exact absurd hcloses hopen
      · exact ⟨fun hclose => by simp [newStop?_of_close hclose] at hstop, hshort⟩
  obtain ⟨others, hlist⟩ : ∃ others, others = (partialTakeRule cfg p inst r).toList ++
      (atrTrailRule cfg p quote inst r atr).toList ++
      (givebackRule cfg p quote inst r conv).toList := ⟨_, rfl⟩
  rw [← hlist] at hothers
  have heval : evaluateProtection cfg p quote inst atr conv costModel =
      supersede p.side
        ({ action := .moveStop (breakevenStop inst p conv costModel)
           rule := .breakeven
           rAtTrigger := r } :: others) := by
    rw [evaluateProtection]
    simp only [hr', breakevenRule_of_crosses hr' hcross, hlist, Option.toList_some,
      List.append_assoc, List.cons_append, List.nil_append]
  rw [heval, supersede_of_open]
  · refine ⟨_, mem_collapseMoves_of_safest
      (show stopMoves _ = (_, breakevenStop inst p conv costModel) :: _ from rfl)
        fun m hm => ?_, rfl⟩
    obtain ⟨hin, hstop⟩ := mem_stopMoves.mp hm
    exact atLeastAsSafe_of_beyond hcross.past ((hothers m.1 hin).2 m.2 hstop)
  · intro j hj
    rcases List.mem_cons.mp hj with rfl | hj
    · simp
    · exact (hothers j hj).1

theorem not_safe_of_crossing (hcross : BreakevenCrosses cfg p quote inst conv costModel)
    (hopen : ¬GivebackCloses cfg p quote inst conv) :
    ¬ProtectionSafe p quote (evaluateProtection cfg p quote inst atr conv costModel) := by
  intro hsafe
  obtain ⟨i, hi, hstop⟩ :=
    crossing_stop_returned cfg p quote inst atr conv costModel hcross hopen
  have hshort := hsafe.short i hi _ hstop
  rw [hcross.past] at hshort
  exact Bool.noConfusion hshort

/-- One call is safe exactly when the break-even level does not cross the
market, or the ratchet closes the position instead. -/
theorem protectionSafe_iff :
    ProtectionSafe p quote (evaluateProtection cfg p quote inst atr conv costModel) ↔
      (BreakevenCrosses cfg p quote inst conv costModel →
        GivebackCloses cfg p quote inst conv) := by
  constructor
  · intro hsafe hcross
    by_contra hopen
    exact not_safe_of_crossing cfg p quote inst atr conv costModel hcross hopen hsafe
  · intro hfree
    refine ⟨evaluateProtection_moves cfg p quote inst atr conv costModel,
      fun i hi stop hstop => (evaluateProtection_sound hi stop hstop).2, fun i hi => ?_,
      fun i hi hclose => evaluateProtection_close hi hclose⟩
    rw [evaluateProtection] at hi
    rcases hr : p.rMultiple quote inst conv with _ | r
    · rw [hr] at hi
      exact absurd hi List.not_mem_nil
    · simp only [hr] at hi
      by_cases hcloses : GivebackCloses cfg p quote inst conv
      · have hgiveback := givebackRule_of_due quote r hcloses.due
        rw [if_pos hcloses.past] at hgiveback
        obtain ⟨j, hclose, hsingle⟩ := exists_supersede_eq p.side
          (List.mem_append_right _ (Option.mem_toList.mpr hgiveback)) rfl
        rw [hsingle, List.mem_singleton] at hi
        rw [hi]
        simp [ProtectInstruction.ShortOf, newStop?_of_close hclose]
      · have hcross : ¬BreakevenCrosses cfg p quote inst conv costModel :=
          fun hcross => hcloses (hfree hcross)
        have hmem := mem_of_mem_supersede hi
        simp only [List.mem_append, Option.mem_toList] at hmem
        rcases hmem with ((hbreakeven | htake) | htrail) | hgiveback
        · exact breakevenRule_shortOf hr hcross hbreakeven
        · simp [ProtectInstruction.ShortOf,
            newStop?_of_partialClose (partialTakeRule_action htake)]
        · exact (atrTrailRule_shortOf htrail).2
        · rcases givebackRule_cases hgiveback with ⟨-, hgives⟩ | ⟨-, hshort⟩
          · exact absurd hgives hcloses
          · exact hshort

end Call

def fivePipStop : Position where
  instrument := "EUR_USD"
  side := .buy
  lots := 1
  entryPrice := 11000 / 10000
  stopLoss := some (10995 / 10000)
  initialRisk := 50

def sixPipSpread : Quote where
  instrument := "EUR_USD"
  bid := 11005 / 10000
  ask := 11011 / 10000

/-- At one R behind a spread wider than the profit the break-even stop lies
above the bid. -/
theorem wideSpread_crosses :
    ¬ProtectionSafe fivePipStop sixPipSpread
      (evaluateProtection {} fivePipStop sixPipSpread
        { symbol := "EUR_USD", base := "EUR", quote := "USD" } none 1
        (some { spreadPips := 6 })) := by
  have hcross : BreakevenCrosses {} fivePipStop sixPipSpread
      { symbol := "EUR_USD", base := "EUR", quote := "USD" } 1
      (some { spreadPips := 6 }) := by
    refine ⟨?_, ?_, ⟨1, ?_, ?_⟩, ?_, ?_, ?_⟩
    all_goals decide +kernel
  have hopen : ¬GivebackCloses {} fivePipStop sixPipSpread
      { symbol := "EUR_USD", base := "EUR", quote := "USD" } 1 :=
    fun h => absurd h.due.armed (by decide +kernel)
  exact not_safe_of_crossing _ _ _ _ none 1 _ hcross hopen

end Sentinel
