import Sentinel.Agent.Moves
import Sentinel.Agent.Persistence
import Sentinel.Brokers.MetaTrader

/-!
# The side an entry records

Only an order writes an entry with a side.  The profit lock and the tracking of
excursions make an entry where there is none, without a side: from then on the
position does not match what the agent recorded, whichever side it is on.  An
order on the other side of a position overwrites the side of its entry, also
where the venue nets and the position only shrinks.
-/

namespace Sentinel

def Sided (told : String → Side → Prop) (entries : Dict String PositionMeta) : Prop :=
  ∀ symbol m, entries.get? symbol = some m → ∃ side, m.HasSide side ∧ told symbol side

namespace Sided

variable {told : String → Side → Prop} {entries : Dict String PositionMeta}

theorem set (h : Sided told entries) {symbol : String} {m : PositionMeta}
    (hm : ∃ side, m.HasSide side ∧ told symbol side) :
    Sided told (entries.set symbol m) := by
  intro other m' hget
  rw [Dict.get?_set] at hget
  split_ifs at hget with heq
  · obtain rfl := Option.some.inj hget
    rw [heq]
    exact hm
  · exact h other m' hget

theorem erase (h : Sided told entries) (symbol : String) :
    Sided told (entries.erase symbol) := by
  intro other m hget
  rw [Dict.get?_erase] at hget
  split_ifs at hget
  exact h other m hget

theorem restrict (h : Sided told entries) (keep : String → Bool) :
    Sided told (entries.restrict keep) := by
  intro other m hget
  rw [Dict.get?_restrict] at hget
  split_ifs at hget
  exact h other m hget

end Sided

def KeepsSide (f : PositionMeta → PositionMeta) : Prop := ∀ m, (f m).side = m.side

theorem stopMoved_keepsSide (rule : ProtectRule) (stop : Dec) : KeepsSide (stopMoved rule stop) :=
  fun _ => rfl

theorem partialTaken_keepsSide (p : Position) (lots : Dec) : KeepsSide (partialTaken p lots) :=
  fun _ => rfl

theorem excursions_keepsSide (changed : Prop) [Decidable changed] (best worst : Dec) :
    KeepsSide fun m =>
      if changed then { m with maxFavourable := some best, maxAdverse := some worst } else m := by
  intro m
  simp only
  split_ifs <;> rfl

/-! ## Updates of an entry that is there -/

structure SidedWith (told : String → Side → Prop) (symbol : String) (a : Agent) : Prop where
  sided : Sided told a.positionMeta
  present : (a.positionMeta.get? symbol).isSome

theorem SidedWith.updateMeta {told : String → Side → Prop} {symbol : String} {a : Agent}
    (h : SidedWith told symbol a) {f : PositionMeta → PositionMeta} (hf : KeepsSide f) :
    SidedWith told symbol (a.updateMeta symbol f) where
  sided := by
    obtain ⟨m, hm⟩ := Option.isSome_iff_exists.1 h.present
    obtain ⟨side, hside, hmem⟩ := h.sided symbol m hm
    refine h.sided.set ⟨side, ?_, hmem⟩
    rw [hm, Option.getD_some]
    exact (hf m).trans hside
  present := by simp [Agent.updateMeta]

theorem SidedWith.trackExcursion {told : String → Side → Prop} {a : Agent} {p : Position}
    (h : SidedWith told p.instrument a) (quote : Quote) (inst : Instrument)
    (conversion : Dec) :
    SidedWith told p.instrument (a.trackExcursion p quote inst conversion).1 := by
  rw [Agent.trackExcursion]
  cases p.rMultiple quote inst conversion with
  | none => exact h
  | some r =>
      simp only
      exact h.updateMeta (excursions_keepsSide _ _ _)

section Venue

variable {σ : Type} {broker : ManageVenue σ} {told : String → Side → Prop} {d : Desk σ}
  {p : Position}

theorem Sided.closeWhole (h : Sided told d.agent.positionMeta) :
    Sided told (closeWhole broker d p).1.agent.positionMeta := by
  rw [Sentinel.closeWhole]
  split
  · simpa using h
  · simp only
    split_ifs
    · simpa using h
    · exact h.erase p.instrument
    · simpa using h

theorem SidedWith.applyInstruction {i : ProtectInstruction} (hi : i.action ≠ .close)
    (h : SidedWith told p.instrument d.agent) :
    SidedWith told p.instrument (applyInstruction broker p d i).agent := by
  have hentry : SidedWith told p.instrument (d.agent.updateMeta p.instrument id) :=
    h.updateMeta fun _ => rfl
  rw [Sentinel.applyInstruction]
  cases haction : i.action with
  | moveStop stop =>
      simp only
      split
      · exact hentry.updateMeta (stopMoved_keepsSide _ _)
      · exact hentry
  | partialClose lots =>
      simp only
      split_ifs
      · exact hentry
      · split
        · split_ifs
          · exact hentry.updateMeta (partialTaken_keepsSide _ _)
          · exact hentry
        · exact hentry
  | close => exact absurd haction hi

theorem SidedWith.protections {l : List ProtectInstruction}
    (hl : ∀ i ∈ l, i.action = .close → l = [i]) (h : SidedWith told p.instrument d.agent) :
    Sided told (l.foldl (Sentinel.applyInstruction broker p) d).agent.positionMeta := by
  by_cases hclose : ∃ i ∈ l, i.action = .close
  · obtain ⟨i, hi, haction⟩ := hclose
    rw [hl i hi haction, List.foldl_cons, List.foldl_nil]
    rw [Sentinel.applyInstruction]
    rw [haction]
    exact Sided.closeWhole (h.updateMeta (f := id) fun _ => rfl).sided
  · have hall : ∀ i ∈ l, i.action ≠ .close := fun i hi haction => hclose ⟨i, hi, haction⟩
    clear hl hclose
    suffices hwith : SidedWith told p.instrument
        (l.foldl (Sentinel.applyInstruction broker p) d).agent from hwith.sided
    induction l generalizing d with
    | nil => exact h
    | cons i l ih =>
        rw [List.forall_mem_cons] at hall
        exact ih (h.applyInstruction hall.1) hall.2

/-! ## The rounds of `_manage_positions` -/

def LockSided (broker : ManageVenue σ) (input : ManageInput) (share : Dec) (d : Desk σ)
    (p : Position) : Prop :=
  (d.agent.positionMeta.get? p.instrument).isSome ∨
    ∀ stop, profitLockStop broker input share p = some stop →
      (broker.modifyPosition d.venue p.instrument stop).1 ≠ .ok true

def Tracked (broker : ManageVenue σ) (cfg : ProtectConfig) (input : ManageInput) (a : Agent)
    (p : Position) : Prop :=
  0 < p.initialRisk ∧ (pricing broker input p).isSome ∧ timedExit cfg input a p = none

def RoundSided (broker : ManageVenue σ) (cfg : ProtectConfig) (input : ManageInput) (d : Desk σ)
    (p : Position) : Prop :=
  (d.agent.positionMeta.get? p.instrument).isSome ∨ ¬Tracked broker cfg input d.agent p

theorem Sided.profitLockOne {input : ManageInput} {share : Dec}
    (h : Sided told d.agent.positionMeta) (hlock : LockSided broker input share d p) :
    Sided told (profitLockOne broker input share d p).agent.positionMeta := by
  rw [Sentinel.profitLockOne]
  cases hstop : profitLockStop broker input share p with
  | none => exact h
  | some stop =>
      simp only
      split
      · rename_i venue hmodify
        rcases hlock with hpresent | hrefused
        · have hwith : SidedWith told p.instrument d.agent := ⟨h, hpresent⟩
          exact (hwith.updateMeta (f := fun m => { m with stopLoss := some (some stop) })
            fun _ => rfl).sided
        · exact absurd (by rw [hmodify]) (hrefused stop hstop)
      · exact h

theorem Sided.manageOne {cfg : ProtectConfig} {input : ManageInput}
    (h : Sided told d.agent.positionMeta) (hround : RoundSided broker cfg input d p) :
    Sided told (manageOne broker cfg input d p).agent.positionMeta := by
  rw [Sentinel.manageOne]
  split_ifs with hknown hexit
  · exact h
  · exact h.closeWhole
  · cases hpricing : pricing broker input p with
    | none => exact h
    | some priced =>
        obtain ⟨inst, quote, conversion⟩ := priced
        have hinstrument : (d.agent.trackExcursion p quote inst conversion).2.instrument =
            p.instrument := by
          rw [Agent.trackExcursion]
          cases p.rMultiple quote inst conversion <;> rfl
        simp only
        by_cases hrisk : 0 < p.initialRisk
        · have hpresent : (d.agent.positionMeta.get? p.instrument).isSome := by
            rcases hround with hpresent | hfree
            · exact hpresent
            · refine absurd ⟨hrisk, by rw [hpricing]; rfl, ?_⟩ hfree
              simpa using hexit
          have hwith : SidedWith told p.instrument d.agent := ⟨h, hpresent⟩
          have htracked := hwith.trackExcursion quote inst conversion
          rw [← hinstrument] at htracked
          exact SidedWith.protections
            (d := ⟨(d.agent.trackExcursion p quote inst conversion).1, d.venue⟩)
            (fun i hi hclose => evaluateProtection_close hi hclose) htracked
        · -- without a known risk there is nothing to track and no rule asks for anything
          have hnone : p.rMultiple quote inst conversion = none := by
            rw [Position.rMultiple]
            rw [if_pos (not_lt.1 hrisk)]
          have htracked : d.agent.trackExcursion p quote inst conversion = (d.agent, p) := by
            rw [Agent.trackExcursion]
            rw [hnone]
          have hrules : protections cfg input inst quote conversion p = [] := by
            rw [protections, evaluateProtection]
            rw [hnone]
          rw [htracked, hrules]
          exact h

def CallSided (broker : ManageVenue σ) (cfg : ProtectConfig) (input : ManageInput) (d : Desk σ)
    (positions : List Position) : Prop :=
  (profitLockEngaged cfg input d.agent = true →
    Along (profitLockOne broker input (giveBackShare cfg input positions))
      (LockSided broker input (giveBackShare cfg input positions))
      { d with agent := { d.agent with dayProfitLocked := true } }
      (positions.filter fun q => 0 < q.lots)) ∧
  Along (manageOne broker cfg input) (RoundSided broker cfg input)
    (applyProfitLock broker cfg input d positions) positions

theorem Sided.managePositions {cfg : ProtectConfig} {input : ManageInput}
    {positions : List Position} (h : Sided told d.agent.positionMeta)
    (hcall : CallSided broker cfg input d positions) :
    Sided told (managePositions broker cfg input d positions).agent.positionMeta := by
  have hlocked : Sided told
      (applyProfitLock broker cfg input d positions).agent.positionMeta := by
    rw [applyProfitLock]
    split_ifs with hengaged
    · refine Along.invariant (I := fun e : Desk σ => Sided told e.agent.positionMeta)
        ?_ ?_ (hcall.1 hengaged)
      · exact fun e q he hlock => he.profitLockOne hlock
      · exact h
    · exact h
  exact Along.invariant (I := fun e : Desk σ => Sided told e.agent.positionMeta)
    (fun e q he hround => he.manageOne hround) hlocked hcall.2

end Venue

/-! ## `_hydrate` -/

namespace Agent

variable {told : String → Side → Prop} {a : Agent}

theorem side_of_not_stale {p : Position} {m : PositionMeta} {side : Side}
    (h : ¬a.stale p = true) (hm : a.positionMeta.get? p.instrument = some m)
    (hside : m.HasSide side) : p.side = side := by
  by_contra hne
  obtain rfl := Side.eq_opposite_of_ne (Ne.symm hne)
  refine h ((Option.any_eq_true _ _).2 ⟨m, hm, ?_⟩)
  have hsome : m ≠ .empty := by
    rintro rfl
    cases hside
  rw [PositionMeta.HasSide] at hside
  cases hp : p.side <;>
    simp_all [PositionMeta.sideText, PositionMeta.truthy, Side.opposite, Side.value]

theorem hydrateOne_kept {p : Position} {symbol : String} {m : PositionMeta}
    (h : (a.hydrateOne p).1.positionMeta.get? symbol = some m) :
    a.positionMeta.get? symbol = some m ∧
      ∀ side, m.HasSide side → p.instrument = symbol → p.side = side := by
  rw [hydrateOne] at h
  split_ifs at h with hstale
  · simp only [halt_positionMeta, Dict.get?_erase] at h
    split_ifs at h with heq
    exact ⟨h, fun _ _ hsame => absurd hsame.symm heq⟩
  · have hsame : a.positionMeta.get? symbol = some m := by
      split at h <;> exact h
    refine ⟨hsame, ?_⟩
    rintro side hside rfl
    exact side_of_not_stale hstale hsame hside

theorem hydrate_kept {positions : List Position} {symbol : String} {m : PositionMeta}
    (h : (a.hydrate positions).1.positionMeta.get? symbol = some m) :
    a.positionMeta.get? symbol = some m ∧ (∃ p ∈ positions, p.instrument = symbol) ∧
      ∀ side, m.HasSide side → ∀ p ∈ positions, p.instrument = symbol → p.side = side := by
  have hpruned : ((a.hydrateAll positions).1.prune positions).positionMeta.get? symbol =
      some m := h
  rw [prune, Dict.get?_restrict] at hpruned
  split_ifs at hpruned with hreported
  have hmet : a.positionMeta.get? symbol = some m ∧
      ∀ side, m.HasSide side → ∀ p ∈ positions, p.instrument = symbol → p.side = side := by
    clear h hreported
    induction positions generalizing a with
    | nil => exact ⟨hpruned, by simp⟩
    | cons p positions ih =>
        obtain ⟨hnext, hrest⟩ := ih (a := (a.hydrateOne p).1) hpruned
        obtain ⟨hsame, hp⟩ := hydrateOne_kept hnext
        exact ⟨hsame, fun side hside => List.forall_mem_cons.2 ⟨hp side hside, hrest side hside⟩⟩
  exact ⟨hmet.1, by simpa using hreported, hmet.2⟩

theorem exists_stale_of_hydrate {a : Agent} {positions : List Position}
    (hbefore : a.halted = false) (hafter : (a.hydrate positions).1.halted = true) :
    ∃ p ∈ positions, a.stale p = true := by
  have hall : (a.hydrateAll positions).1.halted = true := hafter
  clear hafter
  induction positions with
  | nil =>
      rw [hydrateAll, hbefore] at hall
      cases hall
  | cons p positions ih =>
      by_cases hstale : a.stale p = true
      · exact ⟨p, List.mem_cons_self, hstale⟩
      · have hsame : (a.hydrateOne p).1 = a := by
          rw [hydrateOne]
          rw [if_neg hstale]
          split <;> rfl
        have hrest : (a.hydrateAll positions).1.halted = true := by
          simpa only [hydrateAll, hsame] using hall
        obtain ⟨q, hq, hqstale⟩ := ih hrest
        exact ⟨q, List.mem_cons_of_mem _ hq, hqstale⟩

theorem restored_sided (h : Sided told a.positionMeta) :
    Sided told a.restored.positionMeta := by
  intro symbol m hget
  have hmapped : (a.positionMeta.get? symbol).map PositionMeta.restored = some m := by
    rw [← Dict.get?_mapValues]
    exact hget
  obtain ⟨m', hm', rfl⟩ := Option.map_eq_some_iff.1 hmapped
  obtain ⟨side, hside, hmem⟩ := h symbol m' hm'
  refine ⟨side, ?_, hmem⟩
  rw [PositionMeta.HasSide] at hside
  simp [PositionMeta.HasSide, PositionMeta.restored, PositionMeta.sideText, hside]

end Agent

/-! ## Runs -/

/-- A step of a run, or a restart from the saved state. -/
inductive LifeMove where
  | move (m : AgentMove)
  | restart

/-- The agent and its venue, with the positions the venue last reported and the
sides of the orders recorded since. -/
structure Life (σ : Type) where
  desk : Desk σ
  reported : List Position := []
  placed : Dict String Side := .empty

/-- The order is one `_execute` writes an entry for. -/
def Order.Entered (order : Order) : Prop :=
  order.state = .unknown ∨ order.state = .acked ∨
    order.state ∈ [.filled, .partlyFilled] ∧ 0 < order.filledLots

instance (order : Order) : Decidable order.Entered := inferInstanceAs (Decidable (_ ∨ _))

section Run

variable {σ : Type} (broker : ManageVenue σ)

def Life.told (l : Life σ) (symbol : String) (side : Side) : Prop :=
  (∀ ordered ∈ l.placed.get? symbol, ordered = side) ∧
    (l.placed.get? symbol = none →
      (∃ p ∈ l.reported, p.instrument = symbol) ∧
        ∀ p ∈ l.reported, p.instrument = symbol → p.side = side)

def Life.step (l : Life σ) : LifeMove → Life σ
  | .move (.hydrate positions) =>
      { desk := l.desk.step broker (.hydrate positions), reported := positions }
  | .move (.record ctx intent order) =>
      { l with
        desk := l.desk.step broker (.record ctx intent order)
        placed :=
          if order.Entered then l.placed.set intent.instrument intent.side else l.placed }
  | .move m => { l with desk := l.desk.step broker m }
  | .restart => { l with desk := { l.desk with agent := l.desk.agent.restored } }

def Life.Confirms (l : Life σ) (positions : List Position) : Prop :=
  ∀ p ∈ positions, ∀ ordered ∈ l.placed.get? p.instrument, p.side = ordered

instance (l : Life σ) (positions : List Position) : Decidable (l.Confirms positions) :=
  inferInstanceAs (Decidable (∀ p ∈ positions, ∀ ordered ∈ _, _))

/-- The venue reports what was ordered since the last report, and the rounds of
`_manage_positions` find an entry where they would make one. -/
def SidesKept (l : Life σ) : LifeMove → Prop
  | .move (.hydrate positions) => l.Confirms positions
  | .move (.manage cfg input positions) => CallSided broker cfg input l.desk positions
  | _ => True

variable {broker}

theorem Agent.record_entry (a : Agent) (ctx : EntryContext) (intent : OrderIntent)
    (order : Order) :
    if order.Entered then
      ∃ m, (a.record ctx intent order).positionMeta = a.positionMeta.set intent.instrument m ∧
        m.HasSide intent.side
    else (a.record ctx intent order).positionMeta = a.positionMeta := by
  have hpartly : ∀ state : OrderState, state ∈ [.filled, .partlyFilled, .acked] ↔
      state ∈ [OrderState.filled, .partlyFilled] ∨ state = .acked := by
    intro state
    cases state <;> simp
  unfold Order.Entered Agent.record
  simp only [hpartly]
  by_cases hunknown : order.state = .unknown
  · rw [if_pos (.inl hunknown), if_pos hunknown]
    exact ⟨provisionalEntry ctx intent, rfl, rfl⟩
  · by_cases hacked : order.state = .acked
    · rw [if_pos (.inr (.inl hacked)), if_neg hunknown, if_pos (.inr hacked),
        if_pos (.inr hacked)]
      exact ⟨liveEntry ctx intent order, rfl, rfl⟩
    · simp only [hunknown, hacked, false_or, or_false, if_false]
      split_ifs with hboth hfilled hlots
      · exact ⟨liveEntry ctx intent order, rfl, rfl⟩
      · exact absurd hboth.2 hlots
      · exact absurd hboth.1 hfilled
      · rename_i hfilled hlots
        exact absurd ⟨hfilled, hlots⟩ hboth
      · rfl
      · rfl

variable {l : Life σ}

theorem Sided.record (h : Sided l.told l.desk.agent.positionMeta) (ctx : EntryContext)
    (intent : OrderIntent) (order : Order) :
    let l' := l.step broker (.move (.record ctx intent order))
    Sided l'.told l'.desk.agent.positionMeta := by
  have hentry := l.desk.agent.record_entry ctx intent order
  by_cases hentered : order.Entered
  · rw [if_pos hentered] at hentry
    obtain ⟨m, hset, hside⟩ := hentry
    intro l' symbol m' hget
    have hmeta : l'.desk.agent.positionMeta =
        l.desk.agent.positionMeta.set intent.instrument m := hset
    have hplaced : l'.placed = l.placed.set intent.instrument intent.side := if_pos hentered
    rw [hmeta, Dict.get?_set] at hget
    split_ifs at hget with heq
    · obtain rfl := Option.some.inj hget
      refine ⟨intent.side, hside, ?_⟩
      unfold Life.told
      rw [hplaced, heq, Dict.get?_set_self]
      simp
    · obtain ⟨side, hnamed, htold⟩ := h symbol m' hget
      refine ⟨side, hnamed, ?_⟩
      unfold Life.told at htold ⊢
      rwa [hplaced, Dict.get?_set_of_ne _ heq]
  · rw [if_neg hentered] at hentry
    have hplaced : (l.step broker (.move (.record ctx intent order))).placed = l.placed :=
      if_neg hentered
    intro l' symbol m' hget
    obtain ⟨side, hnamed, htold⟩ := h symbol m' (hentry ▸ hget)
    refine ⟨side, hnamed, ?_⟩
    unfold Life.told at htold ⊢
    rwa [hplaced]

theorem Sided.hydrate {positions : List Position}
    (h : Sided l.told l.desk.agent.positionMeta) :
    let l' := l.step broker (.move (.hydrate positions))
    Sided l'.told l'.desk.agent.positionMeta := by
  intro l' symbol m hget
  obtain ⟨hbefore, hreported, hsides⟩ := Agent.hydrate_kept hget
  obtain ⟨side, hside, -⟩ := h symbol m hbefore
  have hnone : l'.placed.get? symbol = none := rfl
  refine ⟨side, hside, ?_, fun _ => ⟨hreported, hsides side hside⟩⟩
  rw [hnone]
  simp

theorem Sided.step {m : LifeMove} (h : Sided l.told l.desk.agent.positionMeta)
    (hm : SidesKept broker l m) :
    Sided (l.step broker m).told (l.step broker m).desk.agent.positionMeta := by
  cases m with
  | restart => exact Agent.restored_sided h
  | move m =>
      cases m with
      | record ctx intent order => exact h.record ctx intent order
      | manage cfg input positions => exact h.managePositions hm
      | hydrate positions => exact h.hydrate
      | forget stillOpen => exact h.restrict _
      | roll nowNs equity =>
          have hrolled :
              Sided l.told (l.desk.agent.rollPeriods nowNs equity).positionMeta := by
            simpa using h
          exact hrolled
      | peaks cfg balance equity =>
          have hmarked :
              Sided l.told (l.desk.agent.markPeaks cfg balance equity).positionMeta := by
            simpa using h
          exact hmarked
      | mark nowNs equity => exact h
      | halt reason =>
          have hhalted : Sided l.told (l.desk.agent.halt reason).positionMeta := by
            simpa using h
          exact hhalted
      | resume =>
          have hresumed : Sided l.told l.desk.agent.resume.positionMeta := by
            simpa using h
          exact hresumed

/-- In a run whose steps meet the condition every entry names the side the venue
last reported, or that of an order recorded since; and `_hydrate` halts only when
the venue reports the opposite of the side it reported the cycle before. -/
theorem entries_sided {venue : σ} {moves : List LifeMove}
    (hmoves : Along (Life.step broker) (SidesKept broker) { desk := ⟨{}, venue⟩ } moves) :
    let l := moves.foldl (Life.step broker) { desk := ⟨{}, venue⟩ }
    Sided l.told l.desk.agent.positionMeta ∧
      ∀ positions, l.Confirms positions → l.desk.agent.halted = false →
        (l.desk.agent.hydrate positions).1.halted = true →
        ∃ p ∈ positions, (∃ q ∈ l.reported, q.instrument = p.instrument) ∧
          ∀ q ∈ l.reported, q.instrument = p.instrument → q.side = p.side.opposite := by
  have hsided := Along.invariant
    (I := fun l : Life σ => Sided l.told l.desk.agent.positionMeta)
    (fun l m hl hm => hl.step hm) (by intro symbol m hget; cases hget) hmoves
  refine ⟨hsided, ?_⟩
  intro positions hplaced hbefore hafter
  obtain ⟨p, hp, hstale⟩ := Agent.exists_stale_of_hydrate hbefore hafter
  obtain ⟨m, hm, hmatch⟩ := (Option.any_eq_true _ _).1 hstale
  obtain ⟨side, hside, hordered, hreported⟩ := hsided p.instrument m hm
  have hne : side ≠ p.side := by
    rintro rfl
    rw [PositionMeta.HasSide] at hside
    simp [PositionMeta.sideText, hside] at hmatch
  obtain rfl := Side.eq_opposite_of_ne hne
  cases hget : (moves.foldl (Life.step broker)
      { desk := ⟨{}, venue⟩ }).placed.get? p.instrument with
  | none => exact ⟨p, hp, hreported hget⟩
  | some ordered =>
      have hsame : p.side = ordered := hplaced p hp ordered hget
      exact absurd ((hordered ordered hget).symm.trans hsame.symm) hne

end Run

/-! ## A long ticket, ordered and adopted -/

def longIntent : OrderIntent where
  clientOrderId := "SFX7"
  strategy := "trend"
  instrument := "EUR_USD"
  side := .buy
  lots := 1
  stopLoss := some (109 / 100)
  riskAmount := 1000
  accepted := by decide +kernel

def longOrder : Order :=
  { intent := longIntent, state := .filled
    fills := [{ venueOrderId := "7", lots := 1, price := 11 / 10 }] }

/-- A cycle with the price at 1.1120 and the day `dayPnl` up. -/
def manageLong (dayPnl : Dec) (sl : Dec) : LifeMove :=
  .move (.manage {}
    { nowNs := 0
      nyOffset := fun _ => -14400
      quote := fun _ => some { instrument := "EUR_USD", bid := 1112 / 1000, ask := 11121 / 10000 }
      conversion := fun _ => some 1
      dayPnl
      dayPnlPct := dayPnl / 50000 * 100
      atr := fun _ => none
      costModel := fun _ => none }
    [obligingMt5.position (longTicket sl)])

def shortTicket : MetaTrader.Ticket := { longTicket 0 with ticket := 8, side := .sell }

/-- The agent that ordered the ticket knows its side; reported the other way
round in a later cycle, it halts the agent. -/
theorem entries_sided_ordered :
    let moves : List LifeMove :=
      [.move (.record { nowNs := 0, instruments := .empty, conversion := fun _ => none }
        longIntent longOrder), .move (.hydrate [obligingMt5.position (longTicket (109 / 100))]),
        manageLong 0 (109 / 100)]
    let l := moves.foldl (Life.step obligingMt5.broker) { desk := ⟨{}, [longTicket (109 / 100)]⟩ }
    l.desk.agent.positionMeta.keys = ["EUR_USD"] ∧ Sided l.told l.desk.agent.positionMeta ∧
      ∃ p ∈ [obligingMt5.position shortTicket], (∃ q ∈ l.reported, q.instrument = p.instrument) ∧
        ∀ q ∈ l.reported, q.instrument = p.instrument → q.side = p.side.opposite := by
  have hmoves : Along (Life.step obligingMt5.broker) (SidesKept obligingMt5.broker)
      { desk := ⟨{}, [longTicket (109 / 100)]⟩ }
      [.move (.record { nowNs := 0, instruments := .empty, conversion := fun _ => none }
        longIntent longOrder), .move (.hydrate [obligingMt5.position (longTicket (109 / 100))]),
        manageLong 0 (109 / 100)] := by
    refine ⟨trivial, ?_, ⟨?_, ?_, trivial⟩, trivial⟩
    · change Life.Confirms _ _
      decide +kernel
    · intro hengaged
      refine absurd hengaged ?_
      decide +kernel
    · left
      decide +kernel
  obtain ⟨hsided, hhalts⟩ := entries_sided hmoves
  exact ⟨by decide +kernel, hsided, hhalts [obligingMt5.position shortTicket]
    (by decide +kernel) (by decide +kernel) (by decide +kernel)⟩

/-- The profit lock moves the stop of an adopted ticket: the next `_hydrate`
halts, although the ticket never changed its side. -/
theorem not_entries_sided_adopted :
    let moves : List LifeMove :=
      [.move (.hydrate [obligingMt5.position (longTicket 0)]), manageLong 2000 0]
    let l := moves.foldl (Life.step obligingMt5.broker) { desk := ⟨{}, [longTicket 0]⟩ }
    ¬Sided l.told l.desk.agent.positionMeta ∧ l.desk.agent.halted = false ∧
      (l.desk.agent.hydrate [obligingMt5.position (longTicket (1104 / 1000))]).1.halted = true := by
  refine ⟨?_, by decide +kernel, by decide +kernel⟩
  intro hsided
  obtain ⟨side, hside, -⟩ := hsided "EUR_USD" { stopLoss := some (some (1104 / 1000)) }
    (by decide +kernel)
  cases hside

end Sentinel
