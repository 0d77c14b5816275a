import Sentinel.Agent.StopMoves
import Sentinel.Brokers.MetaTrader
import Sentinel.Brokers.Paper

/-!
# The stop of a position only moves toward safety

The paper broker compares a level with the one in force and raises; the
MetaTrader adapter does not.  There a call in which the rules ask for a looser
level than the one the profit lock has just placed takes the lock back.

For one position a call sends at most two levels, the one of the profit lock
first.  Both are safer than the stop the position was read with; nothing but
the adapter compares the second with the first.
-/

namespace Sentinel

section Venue

variable {σ : Type} {broker : ManageVenue σ} {hold : Holding σ} {call : ManageCall σ}
  {p : Position}

/-! ## One position among the others -/

theorem foldl_around {f : Desk (Traced σ) → Position → Desk (Traced σ)}
    {pre post : List Position} (d : Desk (Traced σ))
    (hother : ∀ q e, p.instrument ≠ q.instrument → SameFor broker hold p.instrument e (f e q))
    (hpre : ∀ q ∈ pre, p.instrument ≠ q.instrument)
    (hpost : ∀ q ∈ post, p.instrument ≠ q.instrument) :
    ∃ e, SameFor broker hold p.instrument d e ∧
      SameFor broker hold p.instrument (f e p) ((pre ++ p :: post).foldl f d) := by
  refine ⟨pre.foldl f d, SameFor.foldl fun q hq e => hother q e (hpre q hq), ?_⟩
  rw [List.foldl_append, List.foldl_cons]
  exact SameFor.foldl fun q hq e => hother q e (hpost q hq)

theorem exists_split_of_distinct {positions : List Position}
    (hdistinct : (positions.map Position.instrument).Nodup) (hp : p ∈ positions) :
    ∃ pre post, positions = pre ++ p :: post ∧
      (∀ q ∈ pre, p.instrument ≠ q.instrument) ∧ ∀ q ∈ post, p.instrument ≠ q.instrument := by
  obtain ⟨pre, post, rfl⟩ := List.append_of_mem hp
  rw [List.map_append, List.map_cons, List.nodup_append] at hdistinct
  obtain ⟨-, hpost, hdisjoint⟩ := hdistinct
  rw [List.nodup_cons] at hpost
  refine ⟨pre, post, rfl, fun q hq heq => ?_, fun q hq heq => ?_⟩
  · exact hdisjoint _ (List.mem_map_of_mem hq) _ List.mem_cons_self heq.symm
  · exact hpost.1 (heq ▸ List.mem_map_of_mem hq)

theorem SameFor.recordedExcursions {symbol : String} {d d' : Desk (Traced σ)}
    (h : SameFor broker hold symbol d d') :
    d'.agent.recordedExcursions symbol = d.agent.recordedExcursions symbol := by
  unfold Agent.recordedExcursions
  rw [h.entry]

/-! ## One call -/

theorem applyProfitLock_own (hdistinct : (call.positions.map Position.instrument).Nodup)
    (hp : p ∈ call.positions) :
    let d' := applyProfitLock (traced broker) call.cfg call.input
      ⟨call.agent, ⟨call.venue, []⟩⟩ call.positions
    d'.agent.recordedExcursions p.instrument =
        call.agent.recordedExcursions p.instrument ∧
      (levelsFor p.instrument d'.venue.sent = [] ∨
        ∃ stop taken, call.lockStop broker p = some stop ∧
          levelsFor p.instrument d'.venue.sent = [⟨p.instrument, stop, taken⟩] ∧
          (Guarding broker hold → ∀ side held,
            hold call.venue p.instrument = some (side, held) → taken = true →
            hold d'.venue.venue p.instrument = some (side, some stop))) := by
  rw [applyProfitLock, ManageCall.lockStop]
  split_ifs with hengaged hactive hactive
  · obtain ⟨pre, post, hsplit, hpre, hpost⟩ := exists_split_of_distinct hdistinct hp
    have hfilter : (call.positions.filter fun q => 0 < q.lots) =
        (pre.filter fun q => 0 < q.lots) ++ p :: post.filter fun q => 0 < q.lots := by
      rw [hsplit, List.filter_append, List.filter_cons_of_pos (by simpa using hactive.2)]
    rw [hfilter]
    obtain ⟨e, hbefore, hafter⟩ := @foldl_around σ broker hold p
      (profitLockOne (traced broker) call.input
        (giveBackShare call.cfg call.input call.positions)) _ _
      ⟨{ call.agent with dayProfitLocked := true }, ⟨call.venue, []⟩⟩
      (fun q e hq => profitLockOne_sameFor hq)
      (fun q hq => hpre q (List.mem_of_mem_filter hq))
      (fun q hq => hpost q (List.mem_of_mem_filter hq))
    obtain ⟨hexcursions, hlevels⟩ := @profitLockOne_own σ broker hold e p call.input
      (giveBackShare call.cfg call.input call.positions)
    refine ⟨?_, ?_⟩
    · rw [hafter.recordedExcursions, hexcursions, hbefore.recordedExcursions]
      rfl
    · have hnone : levelsFor p.instrument e.venue.sent = [] := hbefore.levels
      rcases hlevels with hsame | ⟨stop, taken, hstop, hsent, hheld⟩
      · left
        rw [hafter.levels, hsame, hnone]
      · right
        refine ⟨stop, taken, hstop, by rw [hafter.levels, hsent, hnone, List.nil_append], ?_⟩
        intro hg side held hhold htaken
        rw [hafter.held hg]
        exact hheld hg side held (by rw [hbefore.held hg, hhold]) htaken
  · have hlots : ¬0 < p.lots := fun hpos => hactive ⟨hengaged, hpos⟩
    have hsame : SameFor broker hold p.instrument
        ⟨{ call.agent with dayProfitLocked := true }, ⟨call.venue, []⟩⟩
        ((call.positions.filter fun q => 0 < q.lots).foldl
          (profitLockOne (traced broker) call.input
            (giveBackShare call.cfg call.input call.positions))
          ⟨{ call.agent with dayProfitLocked := true }, ⟨call.venue, []⟩⟩) := by
      refine SameFor.foldl fun q hq e => profitLockOne_sameFor fun heq => hlots ?_
      obtain ⟨hmem, hpos⟩ := List.mem_filter.1 hq
      have hqp : q = p := List.inj_on_of_nodup_map hdistinct hmem hp heq.symm
      rw [← hqp]
      simpa using hpos
    exact ⟨hsame.recordedExcursions, .inl hsame.levels⟩
  · exact absurd hactive.1 hengaged
  · exact ⟨rfl, .inl rfl⟩

theorem sends_cases (hdistinct : (call.positions.map Position.instrument).Nodup)
    (hp : p ∈ call.positions) :
    ∃ lock rule : Option SentStop,
      levelsFor p.instrument (call.sends broker) = lock.toList ++ rule.toList ∧
      (∀ e ∈ lock, call.lockStop broker p = some e.level) ∧
      (∀ e ∈ rule, e.level ∈ call.ruleStops broker p) ∧
      (Guarding broker hold → hold call.venue p.instrument = some (p.side, p.stopLoss) →
        ∀ e ∈ lock, ∀ e' ∈ rule, e.taken = true → e'.taken = true →
          p.side.AtLeastAsSafe e.level e'.level) := by
  obtain ⟨hexcursions, hlock⟩ := @applyProfitLock_own σ broker hold call p hdistinct hp
  obtain ⟨pre, post, hsplit, hpre, hpost⟩ := exists_split_of_distinct hdistinct hp
  have hrules : ∀ a : Agent, a.recordedExcursions p.instrument =
      call.agent.recordedExcursions p.instrument →
      ruleStopsAt broker call.cfg call.input a p = call.ruleStops broker p :=
    fun a ha => ruleStopsAt_congr ha
  rw [ManageCall.sends, managePositions]
  generalize hlocked : applyProfitLock (traced broker) call.cfg call.input
    ⟨call.agent, ⟨call.venue, []⟩⟩ call.positions = locked at *
  rw [hsplit]
  obtain ⟨e, hbefore, hafter⟩ := @foldl_around σ broker hold p
    (manageOne (traced broker) call.cfg call.input) _ _ locked
    (fun q e hq => manageOne_sameFor hq) hpre hpost
  have hread := hrules e.agent (by rw [hbefore.recordedExcursions, hexcursions])
  have hown := @manageOne_own σ broker hold e p call.cfg call.input
  rw [hread] at hown
  rw [hafter.levels]
  rcases hlock with hnone | ⟨stop, taken, hstop, hsent, hheld⟩
  · rcases hown with hsame | ⟨stop', taken', hmem, hsent', -⟩
    · exact ⟨none, none, by rw [hsame, hbefore.levels, hnone]; rfl, by simp, by simp, by simp⟩
    · exact ⟨none, some ⟨p.instrument, stop', taken'⟩,
        by rw [hsent', hbefore.levels, hnone]; rfl, by simp, by simpa using hmem, by simp⟩
  · rcases hown with hsame | ⟨stop', taken', hmem, hsent', hguard⟩
    · exact ⟨some ⟨p.instrument, stop, taken⟩, none,
        by rw [hsame, hbefore.levels, hsent]; rfl, by simpa using hstop, by simp, by simp⟩
    · refine ⟨some ⟨p.instrument, stop, taken⟩, some ⟨p.instrument, stop', taken'⟩,
        by rw [hsent', hbefore.levels, hsent]; rfl, by simpa using hstop, by simpa using hmem, ?_⟩
      intro hg hhold
      simp only [Option.mem_def, Option.some.injEq, forall_eq']
      intro htaken htaken'
      refine hguard hg htaken' p.side stop ?_
      rw [hbefore.held hg]
      exact hheld hg p.side p.stopLoss hhold htaken

theorem sends_eq_nil {symbol : String} (h : ∀ p ∈ call.positions, symbol ≠ p.instrument) :
    levelsFor symbol (call.sends broker) = [] := by
  have hlock : SameFor broker (fun _ _ => none) symbol ⟨call.agent, ⟨call.venue, []⟩⟩
      (applyProfitLock (traced broker) call.cfg call.input ⟨call.agent, ⟨call.venue, []⟩⟩
        call.positions) := by
    rw [applyProfitLock]
    split_ifs
    · have hflag : SameFor broker (fun _ _ => none) symbol ⟨call.agent, ⟨call.venue, []⟩⟩
          ⟨{ call.agent with dayProfitLocked := true }, ⟨call.venue, []⟩⟩ :=
        ⟨rfl, fun _ => rfl, rfl⟩
      exact hflag.trans (SameFor.foldl fun q hq e =>
        profitLockOne_sameFor (h q (List.mem_of_mem_filter hq)))
    · exact .refl
  exact (hlock.trans (SameFor.foldl fun q hq e => manageOne_sameFor (h q hq))).levels

theorem lockStop_tighter {stop : Dec} (h : call.lockStop broker p = some stop) :
    tighter p.side p.stopLoss stop = true := by
  rw [ManageCall.lockStop] at h
  split_ifs at h
  exact (profitLockStop_sound h).1

theorem ruleStops_tighter {stop : Dec} (h : stop ∈ call.ruleStops broker p) :
    tighter p.side p.stopLoss stop = true := by
  rw [ManageCall.ruleStops] at h
  split at h
  · cases h
  · rename_i inst quote conversion hpricing
    obtain ⟨-, hside, hstop⟩ := call.agent.trackExcursion_fields p quote inst conversion
    obtain ⟨i, hi, hnew⟩ := List.mem_filterMap.1 h
    have hsound := (evaluateProtection_sound hi stop hnew).2
    rwa [hside, hstop] at hsound

/-! ## A run of calls -/

def sendAll (broker : ManageVenue σ) (sent : List SentStop) (call : ManageCall σ) :
    List SentStop :=
  sent ++ call.sends broker

/-- The state in which a call finds a position: the only one of its instrument,
on its side, and with a stop no looser than any level sent for it before.  The
profit lock and the rules do not both ask to move its stop, or the adapter
compares the second level with the first. -/
structure CallSound (broker : ManageVenue σ) (hold : Holding σ) (symbol : String) (side : Side)
    (sent : List SentStop) (call : ManageCall σ) : Prop where
  distinct : (call.positions.map Position.instrument).Nodup
  kept : ∀ p ∈ call.positions, p.instrument = symbol →
    p.side = side ∧ ∀ e ∈ levelsFor symbol sent,
      ∃ held, p.stopLoss = some held ∧ side.AtLeastAsSafe e.level held
  ordered : ∀ p ∈ call.positions, p.instrument = symbol →
    call.lockStop broker p = none ∨ call.ruleStops broker p = [] ∨
    (Guarding broker hold ∧ hold call.venue symbol = some (p.side, p.stopLoss) ∧
      ∀ e ∈ levelsFor symbol (call.sends broker), e.taken = true)

def TowardSafety (symbol : String) (side : Side) (sent : List SentStop) : Prop :=
  ((levelsFor symbol sent).map SentStop.level).Pairwise side.AtLeastAsSafe

theorem CallSound.step {symbol : String} {side : Side} {sent : List SentStop}
    (h : CallSound broker hold symbol side sent call) (hsent : TowardSafety symbol side sent) :
    TowardSafety symbol side (sendAll broker sent call) := by
  rw [TowardSafety, sendAll] at *
  rw [levelsFor_append, List.map_append]
  by_cases hheld : ∃ p ∈ call.positions, p.instrument = symbol
  · obtain ⟨p, hp, rfl⟩ := hheld
    obtain ⟨lock, rule, hlevels, hlock, hrule, hguard⟩ := @sends_cases σ broker hold call p
      h.distinct hp
    obtain ⟨hside, hkept⟩ := h.kept p hp rfl
    have htighter : ∀ e ∈ lock.toList ++ rule.toList,
        tighter p.side p.stopLoss e.level = true := by
      intro e he
      rcases List.mem_append.1 he with he | he
      · exact lockStop_tighter (hlock e (Option.mem_toList.1 he))
      · exact ruleStops_tighter (hrule e (Option.mem_toList.1 he))
    have hordered : ∀ e ∈ lock, ∀ e' ∈ rule, side.AtLeastAsSafe e.level e'.level := by
      intro e he e' he'
      rcases h.ordered p hp rfl with hidle | hquiet | ⟨hg, hread, htaken⟩
      · exact absurd (hlock e he) (by simp [hidle])
      · exact absurd (hrule e' he') (by simp [hquiet])
      · rw [hlevels] at htaken
        rw [← hside]
        exact hguard hg hread e he e' he' (htaken e (by simp [Option.mem_def.1 he]))
          (htaken e' (by simp [Option.mem_def.1 he']))
    rw [hlevels]
    refine List.pairwise_append.2 ⟨hsent, ?_, ?_⟩
    · cases lock with
      | none => cases rule <;> simp
      | some e =>
          cases rule with
          | none => simp
          | some e' => simpa using hordered e rfl e' rfl
    · intro level hlevel level' hlevel'
      obtain ⟨e, he, rfl⟩ := List.mem_map.1 hlevel
      obtain ⟨e', he', rfl⟩ := List.mem_map.1 hlevel'
      obtain ⟨held, hstop, hsafe⟩ := hkept e he
      have hnext := htighter e' he'
      rw [hstop, hside] at hnext
      exact hsafe.trans (atLeastAsSafe_of_tighter hnext)
  · have hnone : levelsFor symbol (call.sends broker) = [] :=
      sends_eq_nil fun q hq heq => hheld ⟨q, hq, heq.symm⟩
    rw [hnone, List.map_nil, List.append_nil]
    exact hsent

end Venue

end Sentinel

namespace Sentinel

theorem Paper.broker_guarding (instruments : Dict String Instrument) :
    Guarding (Paper.broker instruments) Paper.holding where
  modify_other v _ stop _ h := Paper.holding_modifyPosition_of_ne instruments v stop h
  modify_taken := by
    intro v symbol stop v' side held inst hinst htick hhold hmodify
    simp only [Paper.broker] at hinst
    simp only [Paper.broker, Paper.modifyPosition] at hmodify
    cases hp : v.positions.get? symbol with
    | none => simp [Paper.holding, hp] at hhold
    | some p =>
        simp only [Paper.holding, hp, Option.map_some, Option.some.injEq, Prod.mk.injEq] at hhold
        simp only [hp, hinst] at hmodify
        unfold Instrument.OnTick at htick
        rw [htick] at hmodify
        cases hwide : Paper.widening p stop with
        | some refusal => simp [hwide] at hmodify
        | none =>
            simp only [hwide, Prod.mk.injEq, true_and] at hmodify
            simp [Paper.holding, ← hmodify, hhold.1]
  modify_none := by
    intro v symbol stop v' hhold hmodify
    have hp : v.positions.get? symbol = none := by simpa [Paper.holding] using hhold
    simp [Paper.broker, Paper.modifyPosition, hp] at hmodify
  close_other v symbol lots other h :=
    (Paper.holding_closePosition instruments v symbol lots).1 other h
  close_self v symbol lots := (Paper.holding_closePosition instruments v symbol lots).2
  refuses := by
    intro v symbol stop side held inst hinst htick hhold hloose
    simp only [Paper.broker] at hinst
    cases hp : v.positions.get? symbol with
    | none => simp [Paper.holding, hp] at hhold
    | some p =>
        simp only [Paper.holding, hp, Option.map_some, Option.some.injEq, Prod.mk.injEq] at hhold
        obtain ⟨rfl, hstop⟩ := hhold
        obtain ⟨refusal, hrefusal⟩ := Option.isSome_iff_exists.1
          ((Paper.widening_isSome_iff p stop).2 ⟨held, hstop, hloose⟩)
        unfold Instrument.OnTick at htick
        exact ⟨refusal, by
          simp [Paper.broker, Paper.modifyPosition, hp, hinst, htick, hrefusal]⟩

/-! ## A long ticket on MetaTrader -/

def riskedThousand : Agent :=
  { positionMeta := .ofEntries
      [("EUR_USD", { side := some "BUY", lots := some 1, initialRisk := some 1000 })] }

/-- A call on the book as the adapter reads it and the agent completes it, with
the price at `bid` and the day `dayPnl` up. -/
def mt5Call (sl bid dayPnl : Dec) : ManageCall (List MetaTrader.Ticket) where
  cfg := {}
  input :=
    { nowNs := 0
      nyOffset := fun _ => -14400
      quote := fun _ => some
        { instrument := "EUR_USD", bid, ask := bid + 1 / 10000,
          bid_le_ask := by linarith [show (0 : Dec) ≤ 1 / 10000 by norm_num] }
      conversion := fun _ => some 1
      dayPnl
      dayPnlPct := dayPnl / 50000 * 100
      atr := fun _ => none
      costModel := fun _ => none }
  agent := riskedThousand
  venue := [longTicket sl]
  positions := (riskedThousand.hydrate [obligingMt5.position (longTicket sl)]).2

/-! ## The order of the levels -/

section Venue

variable {σ : Type} {broker : ManageVenue σ} {hold : Holding σ}

/-- Over a run of calls that find the position as they should, every level sent
for it is at least as safe as each one before it. -/
theorem stopLevels_towardSafety {symbol : String} {side : Side} {calls : List (ManageCall σ)}
    (hcalls : Along (sendAll broker) (CallSound broker hold symbol side) [] calls) :
    TowardSafety symbol side (calls.foldl (sendAll broker) []) := by
  refine Along.invariant (I := TowardSafety symbol side) ?_ ?_ hcalls
  · intro sent call hsent hcall
    exact hcall.step hsent
  · exact List.Pairwise.nil

end Venue


/-- The break-even rule, and in the next call the profit lock. -/
theorem stopLevels_towardSafety_lockLast :
    TowardSafety "EUR_USD" .buy
      ([mt5Call (109 / 100) (1112 / 1000) 0, mt5Call (22003 / 20000) (1112 / 1000) 2000].foldl
        (sendAll obligingMt5.broker) []) := by
  have hfirst : sendAll obligingMt5.broker [] (mt5Call (109 / 100) (1112 / 1000) 0) =
      [⟨"EUR_USD", 22003 / 20000, true⟩] := by
    decide +kernel
  have hread : ∀ p ∈ (mt5Call (22003 / 20000) (1112 / 1000) 2000).positions,
      p.side = .buy ∧ p.stopLoss = some (22003 / 20000) := by
    decide +kernel
  let hold : Holding (List MetaTrader.Ticket) := fun _ _ => none
  refine @stopLevels_towardSafety _ _ hold _ _ _ ⟨⟨?_, ?_, ?_⟩, ⟨?_, ?_, ?_⟩, trivial⟩
  · decide +kernel
  · have hside : ∀ p ∈ (mt5Call (109 / 100) (1112 / 1000) 0).positions, p.side = .buy := by
      decide +kernel
    exact fun p hp _ => ⟨hside p hp, by simp [levelsFor]⟩
  · have hlock : ∀ p ∈ (mt5Call (109 / 100) (1112 / 1000) 0).positions,
        (mt5Call (109 / 100) (1112 / 1000) 0).lockStop obligingMt5.broker p = none := by
      decide +kernel
    exact fun p hp _ => .inl (hlock p hp)
  · decide +kernel
  · intro p hp _
    obtain ⟨hside, hstop⟩ := hread p hp
    refine ⟨hside, fun e he => ⟨22003 / 20000, hstop, ?_⟩⟩
    rw [hfirst] at he
    obtain rfl : e = ⟨"EUR_USD", 22003 / 20000, true⟩ := by simpa [levelsFor] using he
    exact .refl _ _
  · have hrules : ∀ p ∈ (mt5Call (22003 / 20000) (1112 / 1000) 2000).positions,
        (mt5Call (22003 / 20000) (1112 / 1000) 2000).ruleStops obligingMt5.broker p = [] := by
      decide +kernel
    exact fun p hp _ => .inr (.inl (hrules p hp))

/-- The profit lock, and in the same call the break-even rule. -/
theorem not_towardSafety_lockFirst :
    obligingMt5.positions (mt5Call (109 / 100) (1112 / 1000) 2000).venue =
        .ok [obligingMt5.position (longTicket (109 / 100))] ∧
      ¬TowardSafety "EUR_USD" .buy
        ((mt5Call (109 / 100) (1112 / 1000) 2000).sends obligingMt5.broker) := by
  refine ⟨rfl, ?_⟩
  have hsends : (mt5Call (109 / 100) (1112 / 1000) 2000).sends obligingMt5.broker =
      [⟨"EUR_USD", 1104 / 1000, true⟩, ⟨"EUR_USD", 22003 / 20000, true⟩] := by
    decide +kernel
  rw [hsends]
  norm_num [TowardSafety, levelsFor, Side.AtLeastAsSafe]

end Sentinel
