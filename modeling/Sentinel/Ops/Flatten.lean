import Sentinel.Agent.Manage
import Sentinel.Ops.Watchdog

/-!
# Flattening the book

What the watchdog does with open positions when its action is to flatten.  A
close that is refused is put on record and the next position is tried; a close
that raises ends the loop.  The book is flattened on the first trip only, so what
could not be closed then is not tried again while the heartbeat stays stale.
-/

namespace Sentinel

variable {σ F : Type}

/-! ## `flatten_positions` -/

/-- What `flatten_positions` puts on record. -/
inductive FlattenEntry where
  | close (instrument : String) (closed : Bool) (reason : Option String)
  | summary (requested : ℕ) (closed failed stillOpen : List String) (complete : Bool)
  | error (message : String)
  deriving DecidableEq

structure Flattening (σ : Type) where
  venue : σ
  attempted : List Position := []
  closed : List Position := []
  failed : List Position := []
  raised : Option String := none
  entries : List FlattenEntry := []

/-- `result.state.value in ("filled", "partial")`. -/
def CloseResult.isClosed (result : CloseResult) : Bool :=
  result.state = .filled || result.state = .partlyFilled

variable (broker : ManageVenue σ)

/-- The loop of `flatten_positions`. -/
def flattenFrom (broker : ManageVenue σ) : List Position → σ → Flattening σ
  | [], v => { venue := v }
  | p :: ps, v =>
      match broker.closePosition v p.instrument none with
      | (.error message, v') =>
          { venue := v', attempted := [p], failed := [p], raised := some message }
      | (.ok result, v') =>
          let rest := flattenFrom broker ps v'
          { rest with
            attempted := p :: rest.attempted
            closed := if result.isClosed then p :: rest.closed else rest.closed
            failed := if result.isClosed then rest.failed else p :: rest.failed
            entries :=
              .close p.instrument result.isClosed
                (if result.isClosed then none else result.rejectReason) :: rest.entries }

def stillOpen (v : σ) : List String :=
  match broker.positions v with
  | .ok book => book.map Position.instrument
  | .error message => ["<could not re-read the book: " ++ message ++ ">"]

/-- `flatten_positions`, where the broker could be built. -/
def flattenPositions (v : σ) : Flattening σ :=
  match broker.positions v with
  | .error message => { venue := v, entries := [.error message] }
  | .ok book =>
      let run := flattenFrom broker book v
      match run.raised with
      | some message => { run with entries := run.entries ++ [.error message] }
      | none =>
          let remaining := stillOpen broker run.venue
          { run with
            entries := run.entries ++
              [.summary book.length (run.closed.map Position.instrument)
                (run.failed.map Position.instrument) remaining remaining.isEmpty] }

def ReturnsBeforeLast (broker : ManageVenue σ) : List Position → σ → Prop
  | [], _ => True
  | p :: ps, v =>
      ps = [] ∨ ∃ result, (broker.closePosition v p.instrument none).1 = .ok result ∧
        ReturnsBeforeLast broker ps (broker.closePosition v p.instrument none).2

theorem flattenFrom_attempted_iff (book : List Position) (v : σ) :
    (flattenFrom broker book v).attempted = book ↔ ReturnsBeforeLast broker book v := by
  induction book generalizing v with
  | nil => exact iff_of_true rfl trivial
  | cons p ps ih =>
    rw [flattenFrom, ReturnsBeforeLast]
    rcases hclose : broker.closePosition v p.instrument none with ⟨message | result, v'⟩
    · simp [eq_comm]
    · simp only
      rw [List.cons_inj_right, ih]
      constructor
      · exact fun h => .inr ⟨result, rfl, h⟩
      · rintro (rfl | ⟨-, -, h⟩)
        · trivial
        · exact h

theorem attempted_flattenPositions {broker : ManageVenue σ} {v : σ} {book : List Position}
    (hbook : broker.positions v = .ok book) :
    (flattenPositions broker v).attempted = (flattenFrom broker book v).attempted := by
  rw [flattenPositions, hbook]
  simp only
  rcases (flattenFrom broker book v).raised with _ | message
  · rfl
  · rfl

/-! ## The watchdog over a venue -/

structure FlattenWatch (σ : Type) where
  dog : Watchdog := {}
  venue : σ
  attempted : List Position := []
  failed : List Position := []

inductive FlattenMove (σ : Type) where
  | watchdog (m : WatchdogMove)
  | venue (v : σ)

namespace Watchdog

def newEvents (before after : Watchdog) : List WatchdogEvent :=
  after.events.drop before.events.length

end Watchdog

namespace FlattenWatch

variable (py : Interpreter F) (args : WatchdogArgs) (broker : ManageVenue σ)

/-- The step calls `flatten_positions`. -/
def Flattens (w : FlattenWatch σ) (m : WatchdogMove) : Prop :=
  .flattened ∈ Watchdog.newEvents w.dog (w.dog.step py args m)

instance (w : FlattenWatch σ) (m : WatchdogMove) : Decidable (w.Flattens py args m) :=
  inferInstanceAs (Decidable (_ ∈ _))

def step (w : FlattenWatch σ) : FlattenMove σ → FlattenWatch σ
  | .venue v => { w with venue := v, attempted := [] }
  | .watchdog m =>
      let dog := w.dog.step py args m
      if w.Flattens py args m then
        let run := flattenPositions broker w.venue
        { dog, venue := run.venue, attempted := run.attempted, failed := run.failed }
      else { w with dog, attempted := [], failed := if dog.tripped then w.failed else [] }

def StalePoll (w : FlattenWatch σ) (m : FlattenMove σ) : Prop :=
  ∃ heartbeat wallNs monoSec written,
    m = .watchdog (.poll heartbeat wallNs monoSec written) ∧ w.dog.alive = true ∧
      ¬Watchdog.Fresh py args heartbeat wallNs ∧
        Interpreter.inGrace args w.dog monoSec = false

/-- What a step owes: a flatten tries every position of the book, and what the
trip could not close and is still open is tried again. -/
structure Kept (w : FlattenWatch σ) (m : FlattenMove σ) : Prop where
  tries_all : ∀ move book, m = .watchdog move → w.Flattens py args move →
    broker.positions w.venue = .ok book → (w.step py args broker m).attempted = book
  tries_again : args.action = .flatten → w.StalePoll py args m → ∀ p ∈ w.failed, ∀ book,
    broker.positions w.venue = .ok book → (∃ q ∈ book, q.instrument = p.instrument) →
      ∃ q ∈ (w.step py args broker m).attempted, q.instrument = p.instrument

structure ClosesAll (w : FlattenWatch σ) (m : FlattenMove σ) : Prop where
  returns : ∀ move book, m = .watchdog move → w.Flattens py args move →
    broker.positions w.venue = .ok book → ReturnsBeforeLast broker book w.venue
  gone : args.action = .flatten → w.StalePoll py args m → ∀ p ∈ w.failed, ∀ book,
    broker.positions w.venue = .ok book → ∀ q ∈ book, q.instrument ≠ p.instrument

end FlattenWatch

namespace Watchdog

variable {py : Interpreter F} {args : WatchdogArgs}

theorem iterate_events {w after : Watchdog} {heartbeat : FileState} {wallNs : ℤ} {monoSec : Dec}
    {written : List UInt8}
    (h : py.iterate args w heartbeat wallNs monoSec written = .ok after) :
    after.events = w.events ∨
      (after.tripped = true ∧ ∃ reason reEngaged,
        after.events = w.events ++ .trip args.action reason reEngaged ::
          (if args.action = .flatten ∧ w.tripped = false then [.flattened] else [])) ∨
      ∃ age, after.events = w.events ++ [.recovered age] := by
  rw [Interpreter.iterate] at h
  rcases hage : py.heartbeatAge heartbeat wallNs with e | age
  · rw [hage] at h
    cases h
  · rw [hage] at h
    simp only [bind, Except.bind] at h
    split_ifs at h with hgrace hact hfirst hrecovered
    all_goals obtain rfl := Except.ok.inj h
    · exact .inl rfl
    · refine .inr (.inl ⟨rfl, Interpreter.tripReason args.timeoutSec age, !!w.tripped, ?_⟩)
      rw [Bool.not_eq_true'] at hfirst
      rw [if_pos hfirst]
      rfl
    · refine .inr (.inl ⟨rfl, Interpreter.tripReason args.timeoutSec age, !!w.tripped, ?_⟩)
      rw [Bool.not_eq_true'] at hfirst
      rw [if_neg hfirst]
      rfl
    · exact .inr (.inr ⟨age, rfl⟩)
    · exact .inl rfl

theorem tripped_of_flattened (w : Watchdog) (m : WatchdogMove)
    (h : .flattened ∈ newEvents w (w.step py args m)) :
    w.tripped = false ∧ (w.step py args m).tripped = true := by
  have hnone : ∀ {after : Watchdog}, after.events = w.events → .flattened ∉ newEvents w after := by
    intro after hevents
    rw [newEvents, hevents, List.drop_length]
    exact List.not_mem_nil
  rcases m with monoSec | ⟨heartbeat, wallNs, monoSec, written⟩ | kill
  · refine absurd h (hnone ?_)
    rw [step]
    rcases py.readKill w.kill with e | state
    · rfl
    · rfl
  · rw [step] at h ⊢
    by_cases halive : w.alive = true
    · rw [if_pos halive] at h ⊢
      rcases hiterate : py.iterate args w heartbeat wallNs monoSec written with e | after
      · rw [hiterate] at h
        exact absurd h (hnone rfl)
      · rw [hiterate] at h
        simp only at h ⊢
        rcases iterate_events hiterate with hsame | ⟨htripped, reason, reEngaged, hevents⟩ |
          ⟨age, hevents⟩
        · exact absurd h (hnone hsame)
        · rw [newEvents, hevents, List.drop_left] at h
          by_cases hfirst : args.action = .flatten ∧ w.tripped = false
          · exact ⟨hfirst.2, htripped⟩
          · rw [if_neg hfirst] at h
            simp at h
        · rw [newEvents, hevents, List.drop_left] at h
          simp at h
    · rw [if_neg halive] at h
      exact absurd h (hnone rfl)
  · exact absurd h (hnone rfl)

end Watchdog

namespace FlattenWatch

variable {py : Interpreter F} {args : WatchdogArgs} {broker : ManageVenue σ}

def Inv (w : FlattenWatch σ) : Prop := w.failed ≠ [] → w.dog.tripped = true

variable {w : FlattenWatch σ}

theorem inv_step (h : w.Inv) (m : FlattenMove σ) : (w.step py args broker m).Inv := by
  rcases m with move | v
  · rw [step]
    split_ifs with hflattens htripped
    · exact fun _ => (Watchdog.tripped_of_flattened w.dog move hflattens).2
    · exact fun _ => htripped
    · exact fun hfailed => absurd rfl hfailed
  · exact h

theorem attempted_of_tripped (h : w.dog.tripped = true)
    (move : WatchdogMove) : (w.step py args broker (.watchdog move)).attempted = [] := by
  have hnot : ¬w.Flattens py args move := fun hflattens => by
    rw [(Watchdog.tripped_of_flattened w.dog move hflattens).1] at h
    cases h
  rw [step, if_neg hnot]

theorem kept_iff (h : w.Inv) (m : FlattenMove σ) :
    w.Kept py args broker m ↔ w.ClosesAll py args broker m := by
  have htries : ∀ move book, w.Flattens py args move → broker.positions w.venue = .ok book →
      ((w.step py args broker (.watchdog move)).attempted = book ↔
        ReturnsBeforeLast broker book w.venue) := by
    intro move book hflattens hbook
    rw [step, if_pos hflattens, ← flattenFrom_attempted_iff, ← attempted_flattenPositions hbook]
  have hnothing : w.StalePoll py args m → ∀ p ∈ w.failed,
      (w.step py args broker m).attempted = [] := by
    rintro ⟨heartbeat, wallNs, monoSec, written, rfl, -⟩ p hp
    exact attempted_of_tripped (h (List.ne_nil_of_mem hp)) _
  constructor
  · intro hkept
    refine ⟨?_, fun haction hstale p hp book hbook q hq hsame => ?_⟩
    · rintro move book rfl hflattens hbook
      exact (htries move book hflattens hbook).mp
        (hkept.tries_all move book rfl hflattens hbook)
    · obtain ⟨r, hr, -⟩ := hkept.tries_again haction hstale p hp book hbook ⟨q, hq, hsame⟩
      rw [hnothing hstale p hp] at hr
      exact absurd hr List.not_mem_nil
  · intro hcloses
    refine ⟨?_, fun haction hstale p hp book hbook hopen => ?_⟩
    · rintro move book rfl hflattens hbook
      exact (htries move book hflattens hbook).mpr
        (hcloses.returns move book rfl hflattens hbook)
    · obtain ⟨q, hq, hsame⟩ := hopen
      exact absurd hsame (hcloses.gone haction hstale p hp book hbook q hq)

/-- In runs of any length a flatten tries every position, and what it could not
close is tried again while the heartbeat stays stale, exactly when no close before
the last one raises and nothing that could not be closed is still open then. -/
theorem flattenKept_run_iff (py : Interpreter F) (args : WatchdogArgs) (broker : ManageVenue σ)
    (v : σ) (ms : List (FlattenMove σ)) :
    Along (step py args broker) (Kept py args broker) { venue := v } ms ↔
      Along (step py args broker) (ClosesAll py args broker) { venue := v } ms := by
  apply Along.iff_of_kept (I := Inv)
  · exact fun w m h _ => inv_step h m
  · exact fun w m h => kept_iff h m
  · exact fun hfailed => absurd rfl hfailed

/-! ## Two positions, the first of which cannot be closed -/

def stuckVenue : ManageVenue Unit where
  instruments := .empty
  modifyPosition v _ _ := (.ok false, v)
  closePosition v symbol _ :=
    if symbol = "EUR_USD" then (.error "no connection", v) else (.ok { state := .filled }, v)
  positions _ := .ok
    [{ instrument := "EUR_USD", side := .buy, lots := 1, entryPrice := 11 / 10 },
      { instrument := "GBP_USD", side := .buy, lots := 1, entryPrice := 13 / 10 }]

/-- The second position is not tried. -/
theorem second_not_tried :
    ¬Along (step Watchdog.plainInterpreter ⟨180, .flatten, false⟩ stuckVenue)
      (Kept Watchdog.plainInterpreter ⟨180, .flatten, false⟩ stuckVenue) { venue := () }
      [.watchdog (.start 0), .watchdog (.poll .missing 0 200 [])] := by
  intro h
  have hall := h.2.1.tries_all (.poll .missing 0 200 []) _ rfl (by decide +kernel) rfl
  exact absurd (congrArg List.length hall) (by decide +kernel)

end FlattenWatch

end Sentinel
