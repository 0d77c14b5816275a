import Sentinel.Agent.Manage

/-!
# The stop levels the agent sends

A call of `_manage_positions` may move the stop of a position twice: for the
profit lock, and for the protection rules.  Both levels are safer than the stop
the position was read with, but the second is not compared with the first.  The
levels are recorded by tracing the venue.
-/

namespace Sentinel

/-- A level handed to the venue, and whether the venue took it. -/
structure SentStop where
  instrument : String
  level : Dec
  taken : Bool
  deriving DecidableEq

structure Traced (σ : Type) where
  venue : σ
  sent : List SentStop := []

def levelsFor (symbol : String) (sent : List SentStop) : List SentStop :=
  sent.filter fun e => e.instrument = symbol

@[simp] theorem levelsFor_append (symbol : String) (l₁ l₂ : List SentStop) :
    levelsFor symbol (l₁ ++ l₂) = levelsFor symbol l₁ ++ levelsFor symbol l₂ :=
  List.filter_append ..

section Venue

variable {σ : Type}

def traced (broker : ManageVenue σ) : ManageVenue (Traced σ) where
  instruments := broker.instruments
  modifyPosition v symbol stop :=
    let (answer, venue) := broker.modifyPosition v.venue symbol stop
    match answer with
    | .ok taken => (.ok taken, { venue, sent := v.sent ++ [⟨symbol, stop, taken⟩] })
    | .error error => (.error error, { v with venue })
  closePosition v symbol lots :=
    let (answer, venue) := broker.closePosition v.venue symbol lots
    (answer, { v with venue })
  positions v := broker.positions v.venue

abbrev Holding (σ : Type) : Type := σ → String → Option (Side × Option Dec)

/-- An adapter that keeps the positions as it is asked to, and raises rather
than loosen a stop. -/
structure Guarding (broker : ManageVenue σ) (hold : Holding σ) : Prop where
  modify_other : ∀ v symbol stop other, other ≠ symbol →
    hold (broker.modifyPosition v symbol stop).2 other = hold v other
  modify_taken : ∀ v symbol stop v' side held inst,
    broker.instruments.get? symbol = some inst → inst.OnTick stop →
    hold v symbol = some (side, held) →
    broker.modifyPosition v symbol stop = (.ok true, v') →
    hold v' symbol = some (side, some stop)
  modify_none : ∀ v symbol stop v', hold v symbol = none →
    broker.modifyPosition v symbol stop ≠ (.ok true, v')
  close_other : ∀ v symbol lots other, other ≠ symbol →
    hold (broker.closePosition v symbol lots).2 other = hold v other
  close_self : ∀ v symbol lots,
    hold (broker.closePosition v symbol lots).2 symbol = hold v symbol ∨
      hold (broker.closePosition v symbol lots).2 symbol = none
  refuses : ∀ v symbol stop side held inst, broker.instruments.get? symbol = some inst →
    inst.OnTick stop → hold v symbol = some (side, some held) → ¬side.AtLeastAsSafe held stop →
    ∃ error, (broker.modifyPosition v symbol stop).1 = .error error

/-! ## One call -/

/-- What one call of `_manage_positions` starts from. -/
structure ManageCall (σ : Type) where
  cfg : ProtectConfig
  input : ManageInput
  agent : Agent
  venue : σ
  positions : List Position

namespace ManageCall

variable (broker : ManageVenue σ) (call : ManageCall σ)

def sends : List SentStop :=
  (managePositions (traced broker) call.cfg call.input ⟨call.agent, ⟨call.venue, []⟩⟩
    call.positions).venue.sent

def lockStop (p : Position) : Option Dec :=
  if profitLockEngaged call.cfg call.input call.agent ∧ 0 < p.lots then
    profitLockStop broker call.input (giveBackShare call.cfg call.input call.positions) p
  else none

def ruleStops (p : Position) : List Dec :=
  match pricing broker call.input p with
  | none => []
  | some (inst, quote, conversion) =>
      (protections call.cfg call.input inst quote conversion
        (call.agent.trackExcursion p quote inst conversion).2).filterMap
          ProtectInstruction.newStop?

end ManageCall

/-! ## What concerns one instrument only -/

variable (a : Agent)

def Agent.recordedExcursions (symbol : String) : Dec × Dec :=
  let m := (a.positionMeta.get? symbol).getD .empty
  (m.maxFavourable.getD 0, m.maxAdverse.getD 0)

@[simp] theorem Agent.get?_updateMeta_of_ne {symbol other : String}
    (h : other ≠ symbol) (f : PositionMeta → PositionMeta) :
    (a.updateMeta symbol f).positionMeta.get? other = a.positionMeta.get? other :=
  Dict.get?_set_of_ne _ h _

@[simp] theorem Agent.get?_updateMeta_self (symbol : String)
    (f : PositionMeta → PositionMeta) :
    (a.updateMeta symbol f).positionMeta.get? symbol =
      some (f ((a.positionMeta.get? symbol).getD .empty)) :=
  Dict.get?_set_self _ _ _

theorem Agent.trackExcursion_congr {a b : Agent} {p : Position}
    (h : a.recordedExcursions p.instrument = b.recordedExcursions p.instrument)
    (quote : Quote) (inst : Instrument) (conversion : Dec) :
    (a.trackExcursion p quote inst conversion).2 =
      (b.trackExcursion p quote inst conversion).2 := by
  unfold recordedExcursions at h
  simp only [Prod.mk.injEq] at h
  unfold trackExcursion
  cases p.rMultiple quote inst conversion with
  | none => rfl
  | some r => simp only [h.1, h.2]

theorem Agent.trackExcursion_get?_of_ne (p : Position) (quote : Quote)
    (inst : Instrument) (conversion : Dec) {symbol : String} (h : symbol ≠ p.instrument) :
    (a.trackExcursion p quote inst conversion).1.positionMeta.get? symbol =
      a.positionMeta.get? symbol := by
  rw [trackExcursion]
  cases p.rMultiple quote inst conversion with
  | none => rfl
  | some r => exact a.get?_updateMeta_of_ne h _

theorem Agent.trackExcursion_fields (p : Position) (quote : Quote)
    (inst : Instrument) (conversion : Dec) :
    let q := (a.trackExcursion p quote inst conversion).2
    q.instrument = p.instrument ∧ q.side = p.side ∧ q.stopLoss = p.stopLoss := by
  rw [trackExcursion]
  cases p.rMultiple quote inst conversion with
  | none => exact ⟨rfl, rfl, rfl⟩
  | some r => exact ⟨rfl, rfl, rfl⟩

structure SameFor (broker : ManageVenue σ) (hold : Holding σ) (symbol : String)
    (d d' : Desk (Traced σ)) : Prop where
  levels : levelsFor symbol d'.venue.sent = levelsFor symbol d.venue.sent
  held : Guarding broker hold → hold d'.venue.venue symbol = hold d.venue.venue symbol
  entry : d'.agent.positionMeta.get? symbol = d.agent.positionMeta.get? symbol

section Frame

variable {broker : ManageVenue σ} {hold : Holding σ} {symbol : String} {d d' d'' : Desk (Traced σ)}

theorem SameFor.refl : SameFor broker hold symbol d d := ⟨rfl, fun _ => rfl, rfl⟩

theorem SameFor.trans (h : SameFor broker hold symbol d d')
    (h' : SameFor broker hold symbol d' d'') :
    SameFor broker hold symbol d d'' :=
  ⟨h'.levels.trans h.levels, fun hg => (h'.held hg).trans (h.held hg), h'.entry.trans h.entry⟩

theorem SameFor.foldl {α : Type} {f : Desk (Traced σ) → α → Desk (Traced σ)} {l : List α}
    (h : ∀ a ∈ l, ∀ e, SameFor broker hold symbol e (f e a)) :
    SameFor broker hold symbol d (l.foldl f d) := by
  induction l generalizing d with
  | nil => exact .refl
  | cons a l ih =>
      rw [List.forall_mem_cons] at h
      exact (h.1 d).trans (ih h.2)

theorem modify_sameFor {other : String} (h : symbol ≠ other) (v : Traced σ) (stop : Dec) :
    let v' := ((traced broker).modifyPosition v other stop).2
    levelsFor symbol v'.sent = levelsFor symbol v.sent ∧
      (Guarding broker hold → hold v'.venue symbol = hold v.venue symbol) := by
  have hother := fun hg : Guarding broker hold => hg.modify_other v.venue other stop symbol h
  rw [traced]
  simp only
  split
  · exact ⟨by simp [levelsFor, Ne.symm h], hother⟩
  · exact ⟨rfl, hother⟩

theorem close_sameFor {other : String} (h : symbol ≠ other) (v : Traced σ)
    (lots : Option Dec) :
    let v' := ((traced broker).closePosition v other lots).2
    levelsFor symbol v'.sent = levelsFor symbol v.sent ∧
      (Guarding broker hold → hold v'.venue symbol = hold v.venue symbol) :=
  ⟨rfl, fun hg => hg.close_other v.venue other lots symbol h⟩

theorem profitLockOne_sameFor {input : ManageInput} {share : Dec} {p : Position}
    (h : symbol ≠ p.instrument) :
    SameFor broker hold symbol d (profitLockOne (traced broker) input share d p) := by
  rw [profitLockOne]
  cases hstop : profitLockStop (traced broker) input share p with
  | none => exact .refl
  | some candidate =>
      have hvenue := @modify_sameFor _ broker hold symbol _ h d.venue candidate
      simp only
      split
      · rename_i venue hmodify
        rw [hmodify] at hvenue
        exact ⟨hvenue.1, hvenue.2, d.agent.get?_updateMeta_of_ne h _⟩
      · rename_i venue hmodify
        rw [hmodify] at hvenue
        exact ⟨hvenue.1, hvenue.2, rfl⟩

theorem closeWhole_sameFor {p : Position} (h : symbol ≠ p.instrument) :
    SameFor broker hold symbol d (closeWhole (traced broker) d p).1 := by
  have hvenue := @close_sameFor _ broker hold symbol _ h d.venue none
  rw [closeWhole]
  split
  · rename_i venue hclose
    rw [hclose] at hvenue
    exact ⟨hvenue.1, hvenue.2, by simp⟩
  · rename_i result venue hclose
    rw [hclose] at hvenue
    simp only
    split_ifs
    · exact ⟨hvenue.1, hvenue.2, by simp⟩
    · exact ⟨hvenue.1, hvenue.2, Dict.get?_erase_of_ne _ h⟩
    · exact ⟨hvenue.1, hvenue.2, by simp⟩

theorem applyInstruction_sameFor {p : Position} {i : ProtectInstruction}
    (h : symbol ≠ p.instrument) :
    SameFor broker hold symbol d (applyInstruction (traced broker) p d i) := by
  rw [applyInstruction]
  cases i.action with
  | moveStop stop =>
      have hvenue := @modify_sameFor _ broker hold symbol _ h d.venue stop
      simp only
      split
      · rename_i venue hmodify
        rw [hmodify] at hvenue
        exact ⟨hvenue.1, hvenue.2, by simp [h]⟩
      · rename_i venue hmodify
        rw [hmodify] at hvenue
        exact ⟨hvenue.1, hvenue.2, by simp [h]⟩
  | partialClose lots =>
      have hvenue := @close_sameFor _ broker hold symbol _ h d.venue (some lots)
      simp only
      split_ifs
      · exact ⟨rfl, fun _ => rfl, by simp [h]⟩
      · split
        · rename_i venue hclose
          rw [hclose] at hvenue
          split_ifs
          · exact ⟨hvenue.1, hvenue.2, by simp [h]⟩
          · exact ⟨hvenue.1, hvenue.2, by simp [h]⟩
        · rename_i venue hclose
          rw [hclose] at hvenue
          exact ⟨hvenue.1, hvenue.2, by simp [h]⟩
  | close =>
      have hentry : SameFor broker hold symbol d
          { d with agent := d.agent.updateMeta p.instrument id } :=
        ⟨rfl, fun _ => rfl, by simp [h]⟩
      exact hentry.trans (closeWhole_sameFor h)

theorem manageOne_sameFor {cfg : ProtectConfig} {input : ManageInput} {p : Position}
    (h : symbol ≠ p.instrument) :
    SameFor broker hold symbol d (manageOne (traced broker) cfg input d p) := by
  rw [manageOne]
  split_ifs
  · exact .refl
  · exact closeWhole_sameFor h
  · split
    · exact .refl
    · rename_i inst quote conversion hpricing
      have htracked := d.agent.trackExcursion_fields p quote inst conversion
      have hsame : SameFor broker hold symbol d
          { d with agent := (d.agent.trackExcursion p quote inst conversion).1 } :=
        ⟨rfl, fun _ => rfl, d.agent.trackExcursion_get?_of_ne p quote inst conversion h⟩
      refine hsame.trans (SameFor.foldl ?_)
      intro i _ e
      apply applyInstruction_sameFor
      rwa [htracked.1]

end Frame

/-! ## What one call sends for a position -/

/-- The levels the protection rules ask for, read with the entries of `a`. -/
def ruleStopsAt (broker : ManageVenue σ) (cfg : ProtectConfig) (input : ManageInput) (a : Agent)
    (p : Position) : List Dec :=
  match pricing broker input p with
  | none => []
  | some (inst, quote, conversion) =>
      (protections cfg input inst quote conversion
        (a.trackExcursion p quote inst conversion).2).filterMap ProtectInstruction.newStop?

theorem ruleStopsAt_congr {broker : ManageVenue σ} {cfg : ProtectConfig} {input : ManageInput}
    {a b : Agent} {p : Position}
    (h : a.recordedExcursions p.instrument = b.recordedExcursions p.instrument) :
    ruleStopsAt broker cfg input a p = ruleStopsAt broker cfg input b p := by
  unfold ruleStopsAt
  split
  · rfl
  · rw [Agent.trackExcursion_congr h]

theorem single_of_filterMap_length_le {α β : Type} {f : α → Option β} {l : List α}
    (h : (l.filterMap f).length ≤ 1) :
    (∀ a ∈ l, f a = none) ∨
      ∃ before a b after, l = before ++ a :: after ∧ f a = some b ∧
        (∀ x ∈ before, f x = none) ∧ ∀ x ∈ after, f x = none := by
  induction l with
  | nil => exact .inl (by simp)
  | cons a l ih =>
      cases ha : f a with
      | none =>
          rw [List.filterMap_cons_none ha] at h
          rcases ih h with hnone | ⟨before, x, b, after, rfl, hx, hbefore, hafter⟩
          · exact .inl (List.forall_mem_cons.2 ⟨ha, hnone⟩)
          · exact .inr ⟨a :: before, x, b, after, rfl, hx,
              List.forall_mem_cons.2 ⟨ha, hbefore⟩, hafter⟩
      | some b =>
          rw [List.filterMap_cons_some ha, List.length_cons] at h
          have hempty : l.filterMap f = [] := List.length_eq_zero_iff.1 (by omega)
          rw [List.filterMap_eq_nil_iff] at hempty
          exact .inr ⟨[], a, b, l, rfl, ha, by simp, hempty⟩

theorem ProtectInstruction.newStop?_eq_some_iff {i : ProtectInstruction} {stop : Dec} :
    i.newStop? = some stop ↔ i.action = .moveStop stop := by
  rw [newStop?]
  cases i.action <;> simp

section Own

variable {broker : ManageVenue σ} {hold : Holding σ} {d d' d'' : Desk (Traced σ)}
  {p : Position}

structure StillHeld (broker : ManageVenue σ) (hold : Holding σ) (symbol : String)
    (d d' : Desk (Traced σ)) : Prop where
  levels : levelsFor symbol d'.venue.sent = levelsFor symbol d.venue.sent
  held : Guarding broker hold →
    hold d'.venue.venue symbol = hold d.venue.venue symbol ∨
      hold d'.venue.venue symbol = none

theorem StillHeld.refl {symbol : String} : StillHeld broker hold symbol d d :=
  ⟨rfl, fun _ => .inl rfl⟩

theorem StillHeld.trans {symbol : String} (h : StillHeld broker hold symbol d d')
    (h' : StillHeld broker hold symbol d' d'') : StillHeld broker hold symbol d d'' := by
  refine ⟨h'.levels.trans h.levels, fun hg => ?_⟩
  rcases h'.held hg with hsame | hgone
  · rw [hsame]
    exact h.held hg
  · exact .inr hgone

variable {input : ManageInput}

theorem instrument_of_pricing {inst : Instrument} {quote : Quote}
    {conversion : Dec} (h : pricing broker input p = some (inst, quote, conversion)) :
    broker.instruments.get? p.instrument = some inst := by
  rw [pricing] at h
  simp only [Option.bind_eq_bind, Option.bind_eq_some_iff] at h
  obtain ⟨inst', hget, quote', -, conversion', -, hrest⟩ := h
  split_ifs at hrest
  simp only [Option.some.injEq, Prod.mk.injEq] at hrest
  rw [hget, hrest.1]

theorem profitLockStop_sound {share stop : Dec}
    (h : profitLockStop broker input share p = some stop) :
    tighter p.side p.stopLoss stop = true ∧
      ∃ inst, broker.instruments.get? p.instrument = some inst ∧ inst.OnTick stop := by
  rw [profitLockStop] at h
  simp only [Option.bind_eq_bind, Option.bind_eq_some_iff] at h
  obtain ⟨⟨inst, quote, conversion⟩, hpricing, hrest⟩ := h
  simp only at hrest
  split_ifs at hrest with _ htighter
  have hstop := Option.some.inj hrest
  rw [← hstop]
  exact ⟨by simpa using htighter, inst, instrument_of_pricing hpricing,
    roundPrice_onTick inst _⟩

theorem profitLockOne_own {share : Dec} : let d' := profitLockOne (traced broker) input share d p
    d'.agent.recordedExcursions p.instrument = d.agent.recordedExcursions p.instrument ∧
      (levelsFor p.instrument d'.venue.sent = levelsFor p.instrument d.venue.sent ∨
        ∃ stop taken, profitLockStop broker input share p = some stop ∧
          levelsFor p.instrument d'.venue.sent =
            levelsFor p.instrument d.venue.sent ++ [⟨p.instrument, stop, taken⟩] ∧
          (Guarding broker hold → ∀ side held,
            hold d.venue.venue p.instrument = some (side, held) → taken = true →
            hold d'.venue.venue p.instrument = some (side, some stop))) := by
  have hsame : profitLockStop (traced broker) input share p =
      profitLockStop broker input share p := rfl
  rw [profitLockOne]
  rw [hsame]
  cases hstop : profitLockStop broker input share p with
  | none => exact ⟨rfl, .inl rfl⟩
  | some stop =>
      obtain ⟨-, inst, hinst, htick⟩ := profitLockStop_sound hstop
      cases hmodify : broker.modifyPosition d.venue.venue p.instrument stop with
      | mk answer venue =>
          cases answer with
          | error error => simp [traced, hmodify]
          | ok taken =>
              have hnow : Guarding broker hold → ∀ side held,
                  hold d.venue.venue p.instrument = some (side, held) → taken = true →
                  hold venue p.instrument = some (side, some stop) := by
                intro hg side held hhold htaken
                subst htaken
                exact hg.modify_taken _ _ stop _ side held inst hinst htick hhold hmodify
              cases taken with
              | false => simp [traced, hmodify, levelsFor]
              | true =>
                  refine ⟨by simp [traced, hmodify, Agent.recordedExcursions],
                    .inr ⟨stop, true, rfl, by simp [traced, hmodify, levelsFor], ?_⟩⟩
                  simpa [traced, hmodify] using hnow

theorem closeWhole_stillHeld :
    StillHeld broker hold p.instrument d (closeWhole (traced broker) d p).1 := by
  have hclose := fun hg : Guarding broker hold => hg.close_self d.venue.venue p.instrument none
  rw [closeWhole, traced]
  simp only
  split
  · rename_i venue hanswer
    obtain ⟨-, rfl⟩ := Prod.mk.inj hanswer
    exact ⟨rfl, hclose⟩
  · rename_i result venue hanswer
    obtain ⟨-, rfl⟩ := Prod.mk.inj hanswer
    split_ifs
    · exact ⟨rfl, hclose⟩
    · exact ⟨rfl, hclose⟩
    · exact ⟨rfl, hclose⟩

theorem applyInstruction_stillHeld {i : ProtectInstruction} (hi : i.newStop? = none) :
    StillHeld broker hold p.instrument d (applyInstruction (traced broker) p d i) := by
  rw [applyInstruction]
  rw [ProtectInstruction.newStop?] at hi
  cases haction : i.action with
  | moveStop stop => simp [haction] at hi
  | partialClose lots =>
      have hclose := fun hg : Guarding broker hold =>
        hg.close_self d.venue.venue p.instrument (some lots)
      simp only
      split_ifs
      · exact ⟨rfl, fun _ => .inl rfl⟩
      · split
        · rename_i result venue hanswer
          obtain ⟨-, rfl⟩ := Prod.mk.inj hanswer
          split_ifs
          · exact ⟨rfl, hclose⟩
          · exact ⟨rfl, hclose⟩
        · rename_i error venue hanswer
          obtain ⟨-, rfl⟩ := Prod.mk.inj hanswer
          exact ⟨rfl, hclose⟩
  | close =>
      obtain ⟨hlevels, hheld⟩ := @closeWhole_stillHeld _ broker hold
        ⟨d.agent.updateMeta p.instrument id, d.venue⟩ p
      exact ⟨hlevels, hheld⟩

theorem foldl_applyInstruction_stillHeld {l : List ProtectInstruction}
    (h : ∀ i ∈ l, i.newStop? = none) :
    StillHeld broker hold p.instrument d (l.foldl (applyInstruction (traced broker) p) d) := by
  induction l generalizing d with
  | nil => exact .refl
  | cons i l ih =>
      rw [List.forall_mem_cons] at h
      exact (applyInstruction_stillHeld h.1).trans (ih h.2)

theorem applyInstruction_move {i : ProtectInstruction} {stop : Dec} {inst : Instrument}
    (hinst : broker.instruments.get? p.instrument = some inst) (htick : inst.OnTick stop)
    (hi : i.action = .moveStop stop) :
    let d' := applyInstruction (traced broker) p d i
    levelsFor p.instrument d'.venue.sent = levelsFor p.instrument d.venue.sent ∨
      ∃ taken, levelsFor p.instrument d'.venue.sent =
          levelsFor p.instrument d.venue.sent ++ [⟨p.instrument, stop, taken⟩] ∧
        (Guarding broker hold → taken = true →
          ∃ side held, hold d.venue.venue p.instrument = some (side, held) ∧
            ∀ level, held = some level → side.AtLeastAsSafe level stop) := by
  rw [applyInstruction]
  rw [hi]
  cases hmodify : broker.modifyPosition d.venue.venue p.instrument stop with
  | mk answer venue =>
      cases answer with
      | error error => simp [traced, hmodify]
      | ok taken =>
          refine .inr ⟨taken, ?_, ?_⟩
          · cases taken <;> simp [traced, hmodify, levelsFor]
          · intro hg htaken
            subst htaken
            cases hheld : hold d.venue.venue p.instrument with
            | none => exact absurd hmodify (hg.modify_none _ _ _ _ hheld)
            | some holding =>
                obtain ⟨side, held⟩ := holding
                refine ⟨side, held, rfl, ?_⟩
                rintro level rfl
                by_contra hloose
                obtain ⟨error, herror⟩ :=
                  hg.refuses _ _ stop side level inst hinst htick hheld hloose
                rw [hmodify] at herror
                cases herror

theorem manageOne_own {cfg : ProtectConfig} {input : ManageInput} :
    let d' := manageOne (traced broker) cfg input d p
    levelsFor p.instrument d'.venue.sent = levelsFor p.instrument d.venue.sent ∨
      ∃ stop taken, stop ∈ ruleStopsAt broker cfg input d.agent p ∧
        levelsFor p.instrument d'.venue.sent =
          levelsFor p.instrument d.venue.sent ++ [⟨p.instrument, stop, taken⟩] ∧
        (Guarding broker hold → taken = true →
          ∀ side level, hold d.venue.venue p.instrument = some (side, some level) →
            side.AtLeastAsSafe level stop) := by
  rw [manageOne]
  split_ifs
  · exact .inl rfl
  · exact .inl (@closeWhole_stillHeld _ broker hold d p).levels
  · have hpricing : pricing (traced broker) input p = pricing broker input p := rfl
    rw [ruleStopsAt]
    rw [hpricing]
    cases hpriced : pricing broker input p with
    | none => exact .inl rfl
    | some priced =>
        obtain ⟨inst, quote, conversion⟩ := priced
        have hinst := instrument_of_pricing hpriced
        obtain ⟨hsymbol, -, -⟩ := d.agent.trackExcursion_fields p quote inst conversion
        simp only
        generalize htracked : d.agent.trackExcursion p quote inst conversion = tracked at *
        obtain ⟨agent, q⟩ := tracked
        simp only at hsymbol ⊢
        have hmoves : ((protections cfg input inst quote conversion q).filterMap
            ProtectInstruction.newStop?).length ≤ 1 := evaluateProtection_moves _ _ _ _ _ _ _
        have hstill := fun (e : Desk (Traced σ)) (l : List ProtectInstruction)
            (hl : ∀ i ∈ l, i.newStop? = none) =>
          @foldl_applyInstruction_stillHeld _ broker hold e q l hl
        rcases single_of_filterMap_length_le hmoves with
          hnone | ⟨before, i, stop, after, hlist, hi, hbefore, hafter⟩
        · left
          have hall := hstill ⟨agent, d.venue⟩ _ hnone
          rw [hsymbol] at hall
          exact hall.levels
        · have hmem : i ∈ protections cfg input inst quote conversion q := by
            rw [hlist]
            simp
          have hsound := evaluateProtection_sound hmem stop hi
          have hfirst := hstill ⟨agent, d.venue⟩ _ hbefore
          have hlast := hstill
            (applyInstruction (traced broker) q
              (before.foldl (applyInstruction (traced broker) q) ⟨agent, d.venue⟩) i) _ hafter
          have hmove := @applyInstruction_move _ broker hold
            (before.foldl (applyInstruction (traced broker) q) ⟨agent, d.venue⟩) q i stop inst
            (by rw [hsymbol, hinst]) hsound.1 (ProtectInstruction.newStop?_eq_some_iff.1 hi)
          rw [hlist, List.foldl_append, List.foldl_cons]
          rw [hsymbol] at hfirst hlast hmove
          rcases hmove with hsame | ⟨taken, hsent, hguard⟩
          · left
            rw [hlast.levels, hsame, hfirst.levels]
          · right
            refine ⟨stop, taken, ?_, ?_, ?_⟩
            · exact List.mem_filterMap.2 ⟨i, by simp, hi⟩
            · rw [hlast.levels, hsent, hfirst.levels]
            · intro hg htaken side level hheld
              obtain ⟨side', held', hnow, hsafe⟩ := hguard hg htaken
              rcases hfirst.held hg with hkept | hgone
              · rw [hkept, hheld] at hnow
                simp only [Option.some.injEq, Prod.mk.injEq] at hnow
                obtain ⟨rfl, rfl⟩ := hnow
                exact hsafe level rfl
              · rw [hgone] at hnow
                cases hnow

end Own

end Venue

end Sentinel
