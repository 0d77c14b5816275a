import Mathlib.Logic.Function.Basic
import Sentinel.Agent.EntrySides

/-!
# Runs whose book agrees with the venue's

The agent and a venue that nets, step by step: an entry with what the venue has
executed of it, later fills, the reading of the venue's book, position
management, a stop the reconciler asserts, a restart.

The entries of `_position_meta` describe the positions the agent believes it
has.  The venue holds what was executed.  The two agree for as long as every
change of the one goes with the same change of the other.
-/

namespace Sentinel

abbrev Holdings : Type := String → Option (Side × Dec)

/-! ## What the entries say -/

def PositionMeta.believed (m : PositionMeta) : Option (Side × Dec) :=
  if m.provisional = some true then none
  else (Side.ofValue? m.sideText).map fun side => (side, m.lots.getD 0)

def KeepsBelief (f : PositionMeta → PositionMeta) : Prop := ∀ m, (f m).believed = m.believed

theorem stopMoved_keepsBelief (rule : ProtectRule) (stop : Dec) :
    KeepsBelief (stopMoved rule stop) :=
  fun _ => rfl

theorem partialTaken_keepsBelief (p : Position) (lots : Dec) :
    KeepsBelief (partialTaken p lots) :=
  fun _ => rfl

theorem excursions_keepsBelief (changed : Prop) [Decidable changed] (best worst : Dec) :
    KeepsBelief fun m =>
      if changed then { m with maxFavourable := some best, maxAdverse := some worst } else m := by
  intro m
  simp only
  split_ifs <;> rfl

theorem PositionMeta.sideText_of_believed {m : PositionMeta} {side : Side} {lots : Dec}
    (h : m.believed = some (side, lots)) : m.sideText = side.value := by
  rw [believed] at h
  split_ifs at h
  obtain ⟨side', hside, heq⟩ := Option.map_eq_some_iff.1 h
  rw [Prod.mk.injEq] at heq
  rw [← heq.1]
  rw [Side.ofValue?] at hside
  split_ifs at hside with hbuy hsell
  · cases hside
    exact hbuy
  · cases hside
    exact hsell

namespace Agent

variable (a : Agent) (symbol : String)

def believes : Holdings := fun symbol =>
  (a.positionMeta.get? symbol).bind PositionMeta.believed

theorem bookRow_map (symbol : String) (m : PositionMeta) :
    (bookRow symbol m).map (fun p => (p.side, p.lots)) = m.believed := by
  rw [bookRow, PositionMeta.believed]
  split_ifs
  · rfl
  · rw [Option.map_map]
    rfl

theorem believes_congr {a b : Agent} (h : b.positionMeta = a.positionMeta) :
    b.believes = a.believes := by
  unfold believes
  rw [h]

@[simp] theorem believes_halt (reason : String) : (a.halt reason).believes = a.believes :=
  believes_congr (halt_positionMeta a reason)

theorem believes_updateMeta {f : PositionMeta → PositionMeta}
    (hf : KeepsBelief f) : (a.updateMeta symbol f).believes = a.believes := by
  funext other
  unfold believes updateMeta
  by_cases hother : other = symbol
  · subst hother
    rw [Dict.get?_set_self, Option.bind_some, hf]
    cases a.positionMeta.get? other <;> rfl
  · rw [Dict.get?_set_of_ne _ hother]

theorem believes_set (m : PositionMeta) :
    ({ a with positionMeta := a.positionMeta.set symbol m } : Agent).believes =
      Function.update a.believes symbol m.believed := by
  funext other
  by_cases hother : other = symbol
  · subst hother
    simp [believes]
  · simp [believes, Dict.get?_set_of_ne _ hother, Function.update_of_ne hother]

theorem believes_erase : ({ a with positionMeta := a.positionMeta.erase symbol } : Agent).believes =
      Function.update a.believes symbol none := by
  funext other
  by_cases hother : other = symbol
  · subst hother
    simp [believes]
  · simp [believes, Dict.get?_erase_of_ne _ hother, Function.update_of_ne hother]

theorem believes_trackExcursion (p : Position) (quote : Quote) (inst : Instrument)
    (conversion : Dec) : (a.trackExcursion p quote inst conversion).1.believes = a.believes := by
  rw [trackExcursion]
  cases p.rMultiple quote inst conversion with
  | none => rfl
  | some r =>
      simp only
      exact a.believes_updateMeta _ (excursions_keepsBelief _ _ _)

theorem believes_restored : a.restored.believes = a.believes := by
  funext symbol
  unfold believes restored
  rw [Dict.get?_mapValues]
  cases a.positionMeta.get? symbol with
  | none => rfl
  | some m =>
      simp only [Option.map_some, Option.bind_some, PositionMeta.believed, PositionMeta.restored,
        PositionMeta.sideText, Option.getD_some, Option.some.injEq]
      cases m.provisional with
      | none => simp
      | some provisional => cases provisional <;> simp

theorem byInstrument_localBook :
    ((byInstrument a.localBook).get? symbol).map (fun p => (p.side, p.lots)) =
      a.believes symbol := by
  have hentries : a.localBook.map (fun p => (p.instrument, p)) =
      a.positionMeta.items.filterMap fun kv =>
        (bookRow kv.1 kv.2).map fun p => (kv.1, p) := by
    rw [localBook]
    rw [List.map_filterMap]
    refine List.filterMap_congr ?_
    rintro ⟨symbol', m⟩ -
    unfold bookRow
    simp only
    split_ifs
    · rfl
    · simp only [Option.map_map]
      rfl
  rw [byInstrument]
  rw [hentries, Dict.get?_ofEntries_filterMap]
  rw [believes]
  cases a.positionMeta.get? symbol with
  | none => rfl
  | some m => exact bookRow_map symbol m

end Agent

/-! ## A venue that nets -/

structure Shows (held : Holdings) (positions : List Position) : Prop where
  sound : ∀ p ∈ positions, held p.instrument = some (p.side, p.lots)
  complete : ∀ symbol, held symbol ≠ none → symbol ∈ positions.map Position.instrument

section Venue

variable {σ : Type} (broker : ManageVenue σ) (books : ReconcileVenue σ)
  (execute : σ → OrderIntent → Fill → σ) (held : σ → Holdings)

/-- What the venue does to the holdings: it reports them as they are, a stop
leaves them alone, so does a close it refuses, and a whole close that is filled
ends the position.  A fill opens a position, or adds to one on its side. -/
structure Netting : Prop where
  positions : ∀ v book, broker.positions v = .ok book → Shows (held v) book
  book : ∀ v book, books.book v = .ok book → Shows (held v) book.positions
  modified : ∀ v symbol stop, held (broker.modifyPosition v symbol stop).2 = held v
  repaired : ∀ v symbol stop, held (books.modifyPosition v symbol stop).2 = held v
  refused : ∀ v symbol lots result v',
    broker.closePosition v symbol lots = (.ok result, v') →
      result.state ≠ .filled → result.state ≠ .partlyFilled → held v' = held v
  closed : ∀ v symbol result v',
    broker.closePosition v symbol none = (.ok result, v') →
      result.state = .filled → held v' = Function.update (held v) symbol none
  opened : ∀ v intent fill, 0 < fill.lots → held v intent.instrument = none →
    held (execute v intent fill) =
      Function.update (held v) intent.instrument (some (intent.side, fill.lots))
  added : ∀ v intent fill lots, 0 < fill.lots →
    held v intent.instrument = some (intent.side, lots) →
      held (execute v intent fill) =
        Function.update (held v) intent.instrument (some (intent.side, lots + fill.lots))

def Mirrors (d : Desk σ) : Prop := d.agent.believes = held d.venue

/-! ## The rounds of position management -/

def CloseKept (d : Desk σ) (symbol : String) : Prop :=
  match broker.closePosition d.venue symbol none with
  | (.ok result, _) => result.state ≠ .partlyFilled
  | (.error _, v) => held v = held d.venue

def InstructionKept (p : Position) (d : Desk σ) (i : ProtectInstruction) : Prop :=
  match i.action with
  | .moveStop _ => True
  | .partialClose lots =>
      lots = 0 ∨ held (broker.closePosition d.venue p.instrument (some lots)).2 = held d.venue
  | .close => CloseKept broker held d p.instrument

/-- A round of `_manage_positions` executes no partial close, and every whole
close either ends the position or does not act. -/
def RoundKept (cfg : ProtectConfig) (input : ManageInput) (d : Desk σ) (p : Position) : Prop :=
  ((timedExit cfg input d.agent p).isSome → CloseKept broker held d p.instrument) ∧
    ∀ inst quote conversion, pricing broker input p = some (inst, quote, conversion) →
      let tracked := d.agent.trackExcursion p quote inst conversion
      Along (applyInstruction broker tracked.2) (InstructionKept broker held tracked.2)
        { d with agent := tracked.1 } (protections cfg input inst quote conversion tracked.2)

variable {broker books execute held}

theorem Mirrors.closeWhole (hnet : Netting broker books execute held) {d : Desk σ}
    (h : Mirrors held d) {p : Position} (hclose : CloseKept broker held d p.instrument) :
    Mirrors held (closeWhole broker d p).1 := by
  rw [CloseKept] at hclose
  rw [Sentinel.closeWhole, Mirrors]
  cases hcall : broker.closePosition d.venue p.instrument none with
  | mk answer v' =>
      cases answer with
      | error error =>
          rw [hcall] at hclose
          simpa using h.trans hclose.symm
      | ok result =>
          rw [hcall] at hclose
          simp only
          by_cases hfilled : result.state = .filled
          · have hgone := hnet.closed _ _ _ _ hcall hfilled
            have herased : ({ d.agent with
                positionMeta := d.agent.positionMeta.erase p.instrument } : Agent).believes =
                  held v' := by
              rw [Agent.believes_erase, hgone, h]
            rw [if_pos (.inl hfilled)]
            cases hbook : broker.positions v' with
            | error error => simpa using herased
            | ok book =>
                have hnone : (book.filter fun q => q.instrument = p.instrument) = [] := by
                  refine List.filter_eq_nil_iff.2 fun q hq hsame => ?_
                  have hheld := (hnet.positions v' book hbook).sound q hq
                  rw [of_decide_eq_true hsame, hgone, Function.update_self] at hheld
                  cases hheld
                simp only [hnone]
                simpa using herased
          · have hsame := hnet.refused _ _ _ _ _ hcall hfilled hclose
            rw [if_neg (by simp [hfilled, hclose])]
            simpa using h.trans hsame.symm

theorem Mirrors.applyInstruction (hnet : Netting broker books execute held) {d : Desk σ}
    (h : Mirrors held d) {p : Position} {i : ProtectInstruction}
    (hi : InstructionKept broker held p d i) : Mirrors held (applyInstruction broker p d i) := by
  have hentry : (d.agent.updateMeta p.instrument id).believes = held d.venue :=
    (d.agent.believes_updateMeta _ fun _ => rfl).trans h
  rw [InstructionKept] at hi
  rw [Sentinel.applyInstruction, Mirrors]
  cases haction : i.action with
  | moveStop stop =>
      have hmodified := hnet.modified d.venue p.instrument stop
      simp only
      split
      · rename_i venue hmodify
        rw [hmodify] at hmodified
        rw [Agent.believes_updateMeta _ _ (stopMoved_keepsBelief _ _)]
        exact hentry.trans hmodified.symm
      · rename_i answer venue hanswer hmodify
        rw [hmodify] at hmodified
        exact hentry.trans hmodified.symm
  | partialClose lots =>
      rw [haction] at hi
      simp only
      split_ifs with hzero
      · exact hentry
      · have hkept := hi.resolve_left hzero
        split
        · rename_i result venue hcall
          rw [hcall] at hkept
          split_ifs
          · rw [Agent.believes_updateMeta _ _ (partialTaken_keepsBelief _ _)]
            exact hentry.trans hkept.symm
          · exact hentry.trans hkept.symm
        · rename_i error venue hcall
          rw [hcall] at hkept
          exact hentry.trans hkept.symm
  | close =>
      rw [haction] at hi
      exact Mirrors.closeWhole hnet (d := ⟨d.agent.updateMeta p.instrument id, d.venue⟩) hentry hi

theorem Mirrors.manageOne (hnet : Netting broker books execute held) {cfg : ProtectConfig}
    {input : ManageInput} {d : Desk σ} (h : Mirrors held d) {p : Position}
    (hround : RoundKept broker held cfg input d p) :
    Mirrors held (manageOne broker cfg input d p) := by
  rw [Sentinel.manageOne]
  split_ifs with hknown hexit
  · exact h
  · exact h.closeWhole hnet (hround.1 hexit)
  · cases hpricing : pricing broker input p with
    | none => exact h
    | some priced =>
        obtain ⟨inst, quote, conversion⟩ := priced
        have htracked : Mirrors held
            { d with agent := (d.agent.trackExcursion p quote inst conversion).1 } :=
          (d.agent.believes_trackExcursion p quote inst conversion).trans h
        exact Along.invariant (I := Mirrors held)
          (fun e i he hi => Mirrors.applyInstruction hnet he hi) htracked
          (hround.2 inst quote conversion hpricing)

theorem Mirrors.profitLockOne (hnet : Netting broker books execute held) {input : ManageInput}
    {share : Dec} {d : Desk σ} (h : Mirrors held d) (p : Position) :
    Mirrors held (profitLockOne broker input share d p) := by
  rw [Sentinel.profitLockOne, Mirrors]
  split
  · exact h
  · rename_i stop hstop
    have hmodified := hnet.modified d.venue p.instrument stop
    split
    · rename_i venue hmodify
      rw [hmodify] at hmodified
      have hkept : KeepsBelief fun m => { m with stopLoss := some (some stop) } := fun _ => rfl
      exact (d.agent.believes_updateMeta _ hkept).trans (h.trans hmodified.symm)
    · rename_i answer venue hanswer hmodify
      rw [hmodify] at hmodified
      exact h.trans hmodified.symm

theorem Mirrors.managePositions (hnet : Netting broker books execute held)
    {cfg : ProtectConfig} {input : ManageInput} {d : Desk σ} {positions : List Position}
    (h : Mirrors held d)
    (hcall : Along (Sentinel.manageOne broker cfg input) (RoundKept broker held cfg input)
      (applyProfitLock broker cfg input d positions) positions) :
    Mirrors held (Sentinel.managePositions broker cfg input d positions) := by
  have hlocked : Mirrors held (applyProfitLock broker cfg input d positions) := by
    rw [applyProfitLock]
    split_ifs
    · refine List.foldlRecOn _ _ (motive := Mirrors held) ?_ fun e he p _ =>
        he.profitLockOne hnet p
      exact h
    · exact h
  exact Along.invariant (I := Mirrors held) (fun e p he hp => he.manageOne hnet hp) hlocked hcall

end Venue

end Sentinel

namespace Sentinel

/-! ## What each step does to the two books -/

namespace Agent

theorem hydrateAll_of_not_stale {a : Agent} {positions : List Position}
    (h : ∀ p ∈ positions, a.stale p = false) : (a.hydrateAll positions).1 = a := by
  induction positions with
  | nil => rfl
  | cons p positions ih =>
      have hsame : (a.hydrateOne p).1 = a := by
        rw [hydrateOne]
        rw [if_neg (by simp [h p List.mem_cons_self])]
        split <;> rfl
      simp only [hydrateAll, hsame]
      exact ih fun q hq => h q (List.mem_cons_of_mem p hq)

theorem believes_hydrate {a : Agent} {positions : List Position}
    (h : Shows a.believes positions) : (a.hydrate positions).1.believes = a.believes := by
  have hfresh : (a.hydrateAll positions).1 = a := by
    refine hydrateAll_of_not_stale fun p hp => ?_
    obtain ⟨m, hm, hbelieved⟩ := Option.bind_eq_some_iff.1 (h.sound p hp)
    rw [stale]
    simp [hm, m.sideText_of_believed hbelieved]
  funext symbol
  have hrun : (a.hydrate positions).1 = a.prune positions := by
    simp only [hydrate, hfresh]
  rw [hrun]
  by_cases hopen : symbol ∈ positions.map Position.instrument
  · simp only [believes, prune, Dict.get?_restrict, hopen, decide_true, if_true]
  · have hnone : a.believes symbol = none := by
      by_contra hheld
      exact hopen (h.complete symbol hheld)
    rw [hnone]
    simp only [believes, prune, Dict.get?_restrict, hopen, decide_false]
    rfl

end Agent

def Order.Sized (order : Order) : Prop :=
  order.state ∈ [OrderState.filled, .partlyFilled, .acked] ∧
    (0 < order.filledLots ∨ order.state = .acked)

instance (order : Order) : Decidable order.Sized := by
  rw [Order.Sized]
  exact inferInstance

theorem Agent.believes_record (a : Agent) (ctx : EntryContext) (intent : OrderIntent)
    (order : Order) :
    (a.record ctx intent order).believes =
      if order.state = .unknown then Function.update a.believes intent.instrument none
      else if order.Sized then
        Function.update a.believes intent.instrument
          (some (intent.side, orElse order.filledLots intent.lots))
      else a.believes := by
  unfold Agent.record
  simp only
  split_ifs with hunknown hlive hsize hsized hsized hsized
  · exact (a.countEntry ctx.nowNs).believes_set intent.instrument (provisionalEntry ctx intent)
  · have hentry : (liveEntry ctx intent order).believed =
        some (intent.side, orElse order.filledLots intent.lots) := by
      simp [PositionMeta.believed, liveEntry, PositionMeta.sideText]
    rw [← hentry]
    exact (a.countEntry ctx.nowNs).believes_set intent.instrument (liveEntry ctx intent order)
  · exact absurd ⟨hlive, hsize⟩ hsized
  · exact absurd hsized.2 hsize
  · rfl
  · exact absurd hsized.1 hlive
  · rfl

section Venue

variable {σ : Type} (broker : ManageVenue σ) (books : ReconcileVenue σ)
  (execute : σ → OrderIntent → Fill → σ) (held : σ → Holdings)

def executeAll (v : σ) (intent : OrderIntent) (fills : List Fill) : σ :=
  fills.foldl (fun v fill => execute v intent fill) v

variable {broker books execute held}

theorem held_executeAll (hnet : Netting broker books execute held) {v : σ} {intent : OrderIntent}
    {fills : List Fill} (hpos : ∀ fill ∈ fills, 0 < fill.lots) (hfills : fills ≠ [])
    (hflat : held v intent.instrument = none) :
    held (executeAll execute v intent fills) =
      Function.update (held v) intent.instrument
        (some (intent.side, (fills.map Fill.lots).sum)) := by
  have hmore : ∀ (todo : List Fill) (v' : σ) (lots : Dec), (∀ fill ∈ todo, 0 < fill.lots) →
      held v' = Function.update (held v) intent.instrument (some (intent.side, lots)) →
        held (executeAll execute v' intent todo) =
          Function.update (held v) intent.instrument
            (some (intent.side, lots + (todo.map Fill.lots).sum)) := by
    intro todo
    induction todo with
    | nil =>
        intro v' lots _ hv'
        simpa [executeAll] using hv'
    | cons fill todo ih =>
        intro v' lots htodo hv'
        have hadded := hnet.added v' intent fill lots (htodo fill List.mem_cons_self)
          (by rw [hv', Function.update_self])
        rw [hv', Function.update_idem] at hadded
        have hrest := ih (execute v' intent fill) (lots + fill.lots)
          (fun f hf => htodo f (List.mem_cons_of_mem fill hf)) hadded
        simpa [executeAll, add_assoc] using hrest
  cases fills with
  | nil => exact absurd rfl hfills
  | cons fill fills =>
      have hopened := hnet.opened v intent fill (hpos fill List.mem_cons_self) hflat
      have hrest := hmore fills (execute v intent fill) fill.lots
        (fun f hf => hpos f (List.mem_cons_of_mem fill hf)) hopened
      simpa [executeAll] using hrest

theorem Shows.byInstrument {h : Holdings} {positions : List Position} (hshows : Shows h positions)
    (symbol : String) :
    ((byInstrument positions).get? symbol).map (fun p => (p.side, p.lots)) = h symbol := by
  cases hget : (Sentinel.byInstrument positions).get? symbol with
  | some p =>
      obtain ⟨hsymbol, hp⟩ := instrument_of_mem_byInstrument ((Dict.mem_items_iff _ _ _).2 hget)
      rw [← hsymbol, hshows.sound p hp]
      rfl
  | none =>
      rw [Sentinel.byInstrument, Dict.get?_ofEntries_eq_none_iff, List.map_map] at hget
      by_contra hheld
      exact hget (hshows.complete symbol fun hnone => hheld hnone.symm)

end Venue

/-! ## Runs -/

def AgentMove.keepsEntries : AgentMove → Bool
  | .roll _ _ | .peaks _ _ _ | .mark _ _ | .halt _ | .resume => true
  | _ => false

/-- One thing that happens to the agent or to its venue. -/
inductive BookMove where
  /-- `_execute` records `order`, of which the venue has `executed` so far -/
  | entry (ctx : EntryContext) (intent : OrderIntent) (order : Order) (executed : List Fill)
  /-- the venue executes more of an order, whatever the order manager learns of it -/
  | fills (intent : OrderIntent) (executed : List Fill)
  /-- `_hydrate` on the venue's positions -/
  | read
  | manage (cfg : ProtectConfig) (input : ManageInput) (positions : List Position)
  /-- a stop that `reconcile` asserts -/
  | repair (symbol : String) (stop : Dec)
  /-- the state is saved, and loaded by a new process -/
  | restart
  | other (m : AgentMove) (h : m.keepsEntries = true)

section Run

variable {σ : Type} (broker : ManageVenue σ) (books : ReconcileVenue σ)
  (execute : σ → OrderIntent → Fill → σ) (held : σ → Holdings)

def BookMove.step (d : Desk σ) : BookMove → Desk σ
  | .entry ctx intent order executed =>
      { agent := d.agent.record ctx intent order
        venue := executeAll execute d.venue intent executed }
  | .fills intent executed => { d with venue := executeAll execute d.venue intent executed }
  | .read =>
      match broker.positions d.venue with
      | .error _ => d
      | .ok positions => { d with agent := (d.agent.hydrate positions).1 }
  | .manage cfg input positions => managePositions broker cfg input d positions
  | .repair symbol stop => { d with venue := (books.modifyPosition d.venue symbol stop).2 }
  | .restart => { d with agent := d.agent.restored }
  | .other m _ => d.step broker m

/-- An order is recorded with a size only on a flat instrument and once the
venue has executed that size; as UNKNOWN only on a flat instrument; and nothing
is executed of another order, or later.  Position management executes no
partial close, and its whole closes end the position or do not act. -/
def BookKept (d : Desk σ) : BookMove → Prop
  | .entry _ intent order executed =>
      if order.state = .unknown then executed = [] ∧ held d.venue intent.instrument = none
      else if order.Sized then
        held d.venue intent.instrument = none ∧ executed ≠ [] ∧
          (∀ fill ∈ executed, 0 < fill.lots) ∧
          (executed.map Fill.lots).sum = orElse order.filledLots intent.lots
      else executed = []
  | .fills _ executed => executed = []
  | .manage cfg input positions =>
      Along (manageOne broker cfg input) (RoundKept broker held cfg input)
        (applyProfitLock broker cfg input d positions) positions
  | _ => True

variable {broker books execute held}

theorem Mirrors.entry (hnet : Netting broker books execute held) {d : Desk σ}
    (h : Mirrors held d) {ctx : EntryContext} {intent : OrderIntent} {order : Order}
    {executed : List Fill} (hm : BookKept broker held d (.entry ctx intent order executed)) :
    Mirrors held (BookMove.step broker books execute d (.entry ctx intent order executed)) := by
  simp only [BookKept] at hm
  simp only [Mirrors, BookMove.step, Agent.believes_record]
  by_cases hunknown : order.state = .unknown
  · rw [if_pos hunknown] at hm ⊢
    obtain ⟨rfl, hflat⟩ := hm
    rw [h, ← hflat, Function.update_eq_self]
    rfl
  · rw [if_neg hunknown] at hm ⊢
    by_cases hsized : order.Sized
    · rw [if_pos hsized] at hm ⊢
      obtain ⟨hflat, hsome, hpos, hsum⟩ := hm
      rw [held_executeAll hnet hpos hsome hflat, hsum, h]
    · rw [if_neg hsized] at hm ⊢
      subst hm
      exact h

theorem Mirrors.step (hnet : Netting broker books execute held) {d : Desk σ}
    (h : Mirrors held d) {m : BookMove} (hm : BookKept broker held d m) :
    Mirrors held (BookMove.step broker books execute d m) := by
  cases m with
  | entry ctx intent order executed => exact Mirrors.entry hnet h hm
  | fills intent executed =>
      obtain rfl : executed = [] := hm
      exact h
  | read =>
      simp only [BookMove.step]
      split
      · exact h
      · rename_i positions hpositions
        have hshows := hnet.positions d.venue positions hpositions
        rw [← h] at hshows
        exact (Agent.believes_hydrate hshows).trans h
  | manage cfg input positions => exact Mirrors.managePositions hnet h hm
  | repair symbol stop => exact h.trans (hnet.repaired d.venue symbol stop).symm
  | restart => exact d.agent.believes_restored.trans h
  | other m hkeeps =>
      have hmeta : (d.step broker m).agent.positionMeta = d.agent.positionMeta ∧
          (d.step broker m).venue = d.venue := by
        cases m with
        | roll nowNs equity => exact ⟨by simp [Desk.step, Desk.move], rfl⟩
        | peaks cfg balance equity => exact ⟨by simp [Desk.step, Desk.move], rfl⟩
        | mark nowNs equity => exact ⟨rfl, rfl⟩
        | halt reason => exact ⟨by simp [Desk.step, Desk.move], rfl⟩
        | resume => exact ⟨by simp [Desk.step, Desk.move], rfl⟩
        | hydrate positions => cases hkeeps
        | manage cfg input positions => cases hkeeps
        | record ctx intent order => cases hkeeps
        | forget stillOpen => cases hkeeps
      simp only [Mirrors, BookMove.step, Agent.believes_congr hmeta.1, hmeta.2]
      exact h

end Run

end Sentinel
