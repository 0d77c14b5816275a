import Sentinel.Brokers.Ccxt
import Sentinel.Brokers.MetaTrader
import Sentinel.Brokers.Oanda
import Sentinel.Brokers.Paper

/-!
# The risk of an emergency stop

`_attach_emergency_stop` writes the risk of the stop it placed on the position
object of its own snapshot.  The live adapters build new objects on every call,
so the next snapshot knows nothing of it and takes the figure of the agent's
record; the paper venue hands out the objects of its book, so there the figure
stays.
-/

namespace Sentinel

/-! ## Snapshots -/

inductive VenueKind where
  | oanda
  | metaTrader
  | ccxt
  | paper
  deriving DecidableEq

namespace VenueKind

/-- The object `positions()` hands out for a position the venue holds.  OANDA,
MetaTrader and CCXT do not know the initial risk. -/
def reports : VenueKind → Position → Position
  | .paper, p => p
  | _, p => { p with initialRisk := 0, initialRisk_nonneg := noRisk_nonneg }

/-- What the venue holds once the object it handed out was changed to `written`:
the live venues learn the stop only. -/
def holds : VenueKind → Position → Position → Position
  | .paper, _, written => written
  | _, p, written =>
      { p with
        stopLoss := written.stopLoss
        brokerStopConfirmed := written.brokerStopConfirmed }

end VenueKind

def emergencyProtected (inst : Instrument) (quote : Quote) (position : Position)
    (stopPips : Dec) (conversion : Option Dec) : Position :=
  let distance := (emergencyDistance inst position stopPips conversion).1
  { position with
    stopLoss := some (emergencyStop inst quote position distance)
    brokerStopConfirmed := true
    initialRisk :=
      match emergencyPipValue inst position conversion with
      | none => position.initialRisk
      | some pipValue => max 0 (distance * pipValue)
    initialRisk_nonneg := by
      split
      · exact position.initialRisk_nonneg
      · exact le_max_left _ _ }

section Later

variable (kind : VenueKind) (inst : Instrument) (quote : Quote) (p : Position)
  (stopPips : Dec) (conversion : Option Dec)

def nextSnapshot : Position :=
  kind.reports
    (kind.holds p (emergencyProtected inst quote (kind.reports p) stopPips conversion))

/-- The initial risk a later cycle uses: that of the position once `_hydrate`
went over the next snapshot, in which other positions stand before and after
it. -/
def laterRisk (agent : Agent) (before after : List Position) : Option Dec :=
  ((agent.hydrate
    (before ++ nextSnapshot kind inst quote p stopPips conversion :: after)).2[before.length]?
    ).map Position.initialRisk

def stopDistance : Dec := (emergencyDistance inst (kind.reports p) stopPips conversion).1

def riskToStop (rate : Dec) : Dec :=
  |p.entryPrice - emergencyStop inst quote p (stopDistance kind inst p stopPips conversion)| /
    inst.pip * (inst.pipValueQuote p.lots * rate)

structure RiskCarried (agent : Agent) (before after : List Position) (rate : Dec) : Prop where
  figure : laterRisk kind inst quote p stopPips conversion agent before after =
    some (riskToStop kind inst quote p stopPips conversion rate)
  nonzero : riskToStop kind inst quote p stopPips conversion rate ≠ 0
  fresh : ∀ other : Agent,
    laterRisk kind inst quote p stopPips conversion other before after =
      laterRisk kind inst quote p stopPips conversion agent before after

/-- The paper venue, with a stop as far from the entry as from the price it was
measured from; or, where no rate was passed on, a position that already carries
the risk to its stop. -/
structure RiskRewritten (rate : Dec) : Prop where
  own_objects : kind = .paper
  level : match conversion with
    | some _ =>
        |p.entryPrice -
          emergencyStop inst quote p (stopDistance kind inst p stopPips conversion)| =
            inst.pip * stopDistance kind inst p stopPips conversion
    | none => 0 < p.initialRisk ∧
        p.initialRisk = riskToStop kind inst quote p stopPips conversion rate

end Later

/-! ## Hydrating one position of a snapshot -/

namespace Agent

variable (a : Agent)

theorem length_hydrateAll (positions : List Position) :
    (a.hydrateAll positions).2.length = positions.length := by
  induction positions generalizing a with
  | nil => rfl
  | cons p ps ih => simp [hydrateAll, ih]

theorem hydrateAll_append (before after : List Position) :
    (a.hydrateAll (before ++ after)).2 =
      (a.hydrateAll before).2 ++ ((a.hydrateAll before).1.hydrateAll after).2 := by
  induction before generalizing a with
  | nil => rfl
  | cons p ps ih => simp [hydrateAll, ih]

@[simp] theorem attachExcursions_initialRisk (p : Position) :
    (a.attachExcursions p).initialRisk = p.initialRisk := by
  rw [attachExcursions]
  split
  · rfl
  · split_ifs
    · rfl
    · rfl

theorem hydrate_initialRisk (before after : List Position) (p : Position) :
    ((a.hydrate (before ++ p :: after)).2[before.length]?).map Position.initialRisk =
      some ((a.hydrateAll before).1.hydrateOne p).2.initialRisk := by
  have hlength : before.length = (a.hydrateAll before).2.length :=
    (length_hydrateAll a before).symm
  simp only [hydrate, List.getElem?_map, hydrateAll_append, hlength,
    List.getElem?_append_right (le_refl _), Nat.sub_self, hydrateAll, List.getElem?_cons_zero,
    Option.map_some, attachExcursions_initialRisk]

theorem hydrateOne_initialRisk_of_pos {p : Position} (h : 0 < p.initialRisk) :
    (a.hydrateOne p).2.initialRisk = p.initialRisk := by
  rw [hydrateOne]
  split_ifs
  · rfl
  · split
    · rfl
    · split_ifs
      · simp [attach, not_le.mpr h]
      · rfl

theorem hydrateAll_positionMeta_empty {a : Agent} (h : a.positionMeta = .empty)
    (positions : List Position) : (a.hydrateAll positions).1.positionMeta = .empty := by
  induction positions generalizing a with
  | nil => exact h
  | cons p ps ih =>
      have hone : (a.hydrateOne p).1 = a := by simp [hydrateOne, stale, h]
      simp only [hydrateAll, hone]
      exact ih h

theorem hydrateOne_of_empty {a : Agent} (h : a.positionMeta = .empty) (p : Position) :
    (a.hydrateOne p).2 = p := by
  simp [hydrateOne, stale, h]

end Agent

/-! ## What later cycles use -/

section Later

variable {kind : VenueKind} {inst : Instrument} {quote : Quote} {p : Position}
  {stopPips rate : Dec} {conversion : Option Dec} {agent : Agent} {before after : List Position}

theorem laterRisk_of_pos
    (h : 0 < (nextSnapshot kind inst quote p stopPips conversion).initialRisk) :
    laterRisk kind inst quote p stopPips conversion agent before after =
      some (nextSnapshot kind inst quote p stopPips conversion).initialRisk := by
  rw [laterRisk, Agent.hydrate_initialRisk, Agent.hydrateOne_initialRisk_of_pos _ h]

theorem laterRisk_empty
    (h : (nextSnapshot kind inst quote p stopPips conversion).initialRisk = 0) :
    laterRisk kind inst quote p stopPips conversion {} before after = some 0 := by
  rw [laterRisk, Agent.hydrate_initialRisk,
    Agent.hydrateOne_of_empty (Agent.hydrateAll_positionMeta_empty rfl before), h]

theorem not_riskCarried_of_zero
    (h : (nextSnapshot kind inst quote p stopPips conversion).initialRisk = 0) :
    ¬RiskCarried kind inst quote p stopPips conversion agent before after rate := by
  intro hcarried
  have hlater : laterRisk kind inst quote p stopPips conversion {} before after = some 0 :=
    laterRisk_empty h
  have hzero := hlater.symm.trans ((hcarried.fresh {}).trans hcarried.figure)
  exact hcarried.nonzero (Option.some.inj hzero).symm

theorem riskCarried_iff_of_pos
    (h : 0 < (nextSnapshot kind inst quote p stopPips conversion).initialRisk) :
    RiskCarried kind inst quote p stopPips conversion agent before after rate ↔
      (nextSnapshot kind inst quote p stopPips conversion).initialRisk =
        riskToStop kind inst quote p stopPips conversion rate := by
  constructor
  · intro hcarried
    exact Option.some.inj ((laterRisk_of_pos h).symm.trans hcarried.figure)
  · intro heq
    refine ⟨?_, heq ▸ h.ne', fun other => ?_⟩
    · rw [laterRisk_of_pos h, heq]
    · rw [laterRisk_of_pos h, laterRisk_of_pos h]

theorem emergencyPipValue_of_pos (inst : Instrument) (hlots : 0 < p.lots) (hrate : 0 < rate) :
    emergencyPipValue inst p (some rate) = some (inst.pipValueQuote p.lots * rate) ∧
      0 < inst.pipValueQuote p.lots * rate := by
  have hpip : 0 < inst.pipValueQuote p.lots * rate :=
    mul_pos (mul_pos (mul_pos hlots inst.contractSize_pos) inst.pip_pos) hrate
  exact ⟨if_pos ⟨hrate, hpip⟩, hpip⟩

theorem emergencyDistance_pos (hstop : 0 < stopPips) :
    0 < (emergencyDistance inst p stopPips conversion).1 := by
  rw [emergencyDistance]
  split
  · exact hstop
  · split_ifs with hrisk
    · exact lt_min hrisk.2 hstop
    · exact hstop

/-- Later cycles use the risk to the emergency stop exactly on the paper venue,
when the stop lies as far from the entry as from the price it was measured from,
or no rate was known and the position carried that risk already. -/
theorem riskCarried_iff (hlots : 0 < p.lots) (hstop : 0 < stopPips) (hrate : 0 < rate)
    (hconversion : ∀ c ∈ conversion, c = rate) :
    RiskCarried kind inst quote p stopPips conversion agent before after rate ↔
      RiskRewritten kind inst quote p stopPips conversion rate := by
  rcases kind with _ | _ | _ | _
  · exact iff_of_false (not_riskCarried_of_zero rfl) fun h => by cases h.own_objects
  · exact iff_of_false (not_riskCarried_of_zero rfl) fun h => by cases h.own_objects
  · exact iff_of_false (not_riskCarried_of_zero rfl) fun h => by cases h.own_objects
  · rcases conversion with _ | c
    · have hkept : (nextSnapshot .paper inst quote p stopPips none).initialRisk =
          p.initialRisk := rfl
      rcases p.initialRisk_nonneg.eq_or_lt with hzero | hpos
      · exact iff_of_false (not_riskCarried_of_zero (hkept.trans hzero.symm))
          fun h => h.level.1.ne hzero
      · rw [riskCarried_iff_of_pos (hkept ▸ hpos), hkept]
        exact ⟨fun h => ⟨rfl, hpos, h⟩, fun h => h.level.2⟩
    · obtain rfl : c = rate := hconversion c rfl
      obtain ⟨hvalue, hpip⟩ := emergencyPipValue_of_pos inst hlots hrate
      have hdistance : 0 < stopDistance .paper inst p stopPips (some c) :=
        emergencyDistance_pos hstop
      have hwritten : (nextSnapshot .paper inst quote p stopPips (some c)).initialRisk =
          stopDistance .paper inst p stopPips (some c) * (inst.pipValueQuote p.lots * c) := by
        have hmax : (nextSnapshot .paper inst quote p stopPips (some c)).initialRisk =
            max 0 (stopDistance .paper inst p stopPips (some c) *
              (inst.pipValueQuote p.lots * c)) := by
          simp only [nextSnapshot, VenueKind.reports, VenueKind.holds, emergencyProtected,
            hvalue]
          rfl
        rw [hmax, max_eq_right (mul_pos hdistance hpip).le]
      rw [riskCarried_iff_of_pos (hwritten ▸ mul_pos hdistance hpip), hwritten, riskToStop,
        mul_left_inj' hpip.ne', eq_div_iff inst.pip_pos.ne', mul_comm]
      exact ⟨fun h => ⟨rfl, h.symm⟩, fun h => h.level.symm⟩

def nakedEuro : Position where
  instrument := "EUR_USD"
  side := .buy
  lots := 1
  entryPrice := 11 / 10

theorem euroQuote_le : (11 / 10 : Dec) ≤ 11001 / 10000 := by norm_num

def euroQuote : Quote where
  instrument := "EUR_USD"
  bid := 11 / 10
  ask := 11001 / 10000
  bid_le_ask := euroQuote_le

/-- On the paper venue, with the market at the entry, the risk is carried. -/
theorem riskCarried_iff_atEntry :
    RiskCarried .paper euro euroQuote nakedEuro 50 (some 1) {} [] [] 1 := by
  have hlevel : |nakedEuro.entryPrice - emergencyStop euro euroQuote nakedEuro
      (stopDistance .paper euro nakedEuro 50 (some 1))| =
        euro.pip * stopDistance .paper euro nakedEuro 50 (some 1) := by
    decide +kernel
  exact (riskCarried_iff (by decide) (by decide) (by decide) (by simp)).mpr ⟨rfl, hlevel⟩

/-- OANDA reports it, and the agent recorded a risk of 200 for it earlier: that
is what later cycles use, not the 500 to the emergency stop. -/
theorem emergencyRisk_lost :
    ¬RiskCarried .oanda euro euroQuote nakedEuro 50 (some 1)
      { positionMeta := Dict.empty.set "EUR_USD"
          { initialRisk := some 200, side := some "BUY" } } [] [] 1 := by
  intro h
  exact absurd h.figure (by decide +kernel)

end Later

end Sentinel
