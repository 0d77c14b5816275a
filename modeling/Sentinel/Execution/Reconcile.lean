import Sentinel.Core.Types
import Sentinel.Support.Dict
import Sentinel.Support.Runs

/-!
# Account reconciliation

`reconcile` compares the agent's own book with the venue's and repairs what it
can.  Both books are first keyed by instrument, so of several positions on one
instrument only the last counts.  The venue is a state `σ` with the methods
the reconciler calls; `modifyPosition` is the one that changes it.  Journal
records and the printed form of numbers are left out.
-/

namespace Sentinel

/-- What `account()` and `positions()` return. -/
structure VenueBook where
  account : AccountState
  lastTransactionId : String := ""
  positions : List Position

/-- The methods of `Broker` that the reconciler uses; an exception is its
text. -/
structure ReconcileVenue (σ : Type) where
  /-- `account()` and then `positions()` -/
  book : σ → Except String VenueBook
  instrument : σ → String → Except String Instrument
  quote : σ → String → Except String Quote
  /-- `modify_position(instrument, stop_loss=stop)` -/
  modifyPosition : σ → String → Dec → Except String Bool × σ

inductive MismatchKind where
  | phantom
  | orphan
  | direction
  | sizeDrift
  deriving DecidableEq

namespace MismatchKind

/-- The text `kind` of a mismatch. -/
def value : MismatchKind → String
  | .phantom => "phantom"
  | .orphan => "orphan"
  | .direction => "direction"
  | .sizeDrift => "size_drift"

def action : MismatchKind → String
  | .phantom => "dropped locally; the venue is authoritative"
  | .orphan =>
      "adopted; a protective stop is attached immediately and new entries are frozen"
  | .direction => "adopted the venue direction"
  | .sizeDrift => "adopted the venue size"

def severity : MismatchKind → String
  | .phantom | .sizeDrift => "error"
  | .orphan | .direction => "critical"

def halts : MismatchKind → Bool
  | .orphan | .direction => true
  | .phantom | .sizeDrift => false

end MismatchKind

inductive HoldingText where
  | sideAndLots (side : Side) (lots : Dec)
  | side (side : Side)
  | lots (lots : Dec)
  deriving DecidableEq

structure Mismatch where
  kind : MismatchKind
  instrument : String
  localHolding : Option HoldingText
  venueHolding : Option HoldingText
  deriving DecidableEq

inductive ReconcileNote where
  /-- could not read the venue state -/
  | unreadable (error : String)
  /-- order(s) in an unknown state -/
  | unknownOrders (count : ℕ)
  /-- unprotected and no price is available to place a stop -/
  | noPrice (instrument error : String)
  /-- failed to attach a stop -/
  | attachFailed (instrument error : String)
  /-- emergency stop attached -/
  | stopAttached (instrument : String) (stop distancePips : Dec) (derived : Bool)
  /-- remains UNPROTECTED and could not be modified -/
  | remainsUnprotected (instrument : String)
  deriving DecidableEq

structure ReconcileReport where
  ok : Bool := true
  mismatches : List Mismatch := []
  venuePositions : ℕ := 0
  localPositions : ℕ := 0
  unprotected : List String := []
  unresolvedOrders : List String := []
  equity : Option Dec := none
  lastTransactionId : String := ""
  haltRequired : Bool := false
  notes : List ReconcileNote := []

/-- A report in the making, and the venue as the repairs have left it. -/
structure Reconciliation (σ : Type) where
  report : ReconcileReport
  venue : σ

/-- `{p.instrument: p for p in positions}`. -/
def byInstrument (positions : List Position) : Dict String Position :=
  .ofEntries (positions.map fun p => (p.instrument, p))

def Position.unprotected (p : Position) : Bool :=
  p.stopLoss.isNone || !p.brokerStopConfirmed

namespace ReconcileReport

variable (r : ReconcileReport)

def addNote (note : ReconcileNote) : ReconcileReport :=
  { r with notes := r.notes ++ [note] }

def requireHalt : ReconcileReport :=
  { r with haltRequired := true }

def addMismatch (m : Mismatch) : ReconcileReport :=
  { r with
    ok := false
    mismatches := r.mismatches ++ [m]
    haltRequired := r.haltRequired || m.kind.halts }

def addUnprotected (symbol : String) : ReconcileReport :=
  { r with ok := false, unprotected := r.unprotected ++ [symbol] }

def addComparison : Option Mismatch → ReconcileReport
  | none => r
  | some m => r.addMismatch m

variable (found : Option Mismatch)

theorem addComparison_mismatches :
    (r.addComparison found).mismatches = r.mismatches ++ found.toList := by
  cases found <;> simp [addComparison, addMismatch]

@[simp] theorem addComparison_unprotected :
    (r.addComparison found).unprotected = r.unprotected := by
  cases found <;> rfl

theorem addComparison_haltRequired :
    (r.addComparison found).haltRequired =
      (r.haltRequired || found.any fun m => m.kind.halts) := by
  cases found <;> simp [addComparison, addMismatch]

theorem foldl_addMismatch (ms : List Mismatch) (r : ReconcileReport) :
    (ms.foldl addMismatch r).mismatches = r.mismatches ++ ms ∧
      (ms.foldl addMismatch r).unprotected = r.unprotected ∧
      (ms.foldl addMismatch r).haltRequired =
        (r.haltRequired || ms.any fun m => m.kind.halts) := by
  induction ms generalizing r with
  | nil => simp
  | cons m ms ih =>
      obtain ⟨hm, hu, hh⟩ := ih (r.addMismatch m)
      rw [List.foldl_cons, hm, hu, hh]
      simp [addMismatch, Bool.or_assoc]

end ReconcileReport

def phantoms (localMap venueMap : Dict String Position) : List Mismatch :=
  localMap.items.filterMap fun (symbol, own) =>
    if venueMap.contains symbol then none
    else some ⟨.phantom, symbol, some (.sideAndLots own.side own.lots), none⟩

def compareHolding (own : Option Position) (symbol : String) (venue : Position) :
    Option Mismatch :=
  match own with
  | none => some ⟨.orphan, symbol, none, some (.sideAndLots venue.side venue.lots)⟩
  | some own =>
      if own.side ≠ venue.side then
        some ⟨.direction, symbol, some (.side own.side), some (.side venue.side)⟩
      else if 1 / 10000 < |own.lots - venue.lots| then
        some ⟨.sizeDrift, symbol, some (.lots own.lots), some (.lots venue.lots)⟩
      else none

section Venue

variable {σ : Type} (broker : ReconcileVenue σ)

def emergencyPipValue (inst : Instrument) (position : Position)
    (conversion : Option Dec) : Option Dec :=
  match conversion with
  | none => none
  | some rate =>
      let pipValue := inst.pipValueQuote position.lots * rate
      if 0 < rate ∧ 0 < pipValue then some pipValue else none

def emergencyDistance (inst : Instrument) (position : Position) (stopPips : Dec)
    (conversion : Option Dec) : Dec × Bool :=
  match emergencyPipValue inst position conversion with
  | none => (stopPips, false)
  | some pipValue =>
      if 0 < position.initialRisk ∧ 0 < position.initialRisk / pipValue then
        (min (position.initialRisk / pipValue) stopPips, true)
      else (stopPips, false)

def emergencyStop (inst : Instrument) (quote : Quote) (position : Position)
    (distancePips : Dec) : Dec :=
  inst.roundPrice
    (quote.priceFor position.side.opposite - inst.pip * distancePips * position.side.sign)

variable (position : Position) (stopPips : Dec) (conversion : Option Dec) (run : Reconciliation σ)

def attachEmergencyStop : Reconciliation σ :=
  let symbol := position.instrument
  let unpriced (error : String) : Reconciliation σ :=
    { run with report := (run.report.addNote (.noPrice symbol error)).requireHalt }
  match broker.instrument run.venue symbol with
  | .error error => unpriced error
  | .ok inst =>
      match broker.quote run.venue symbol with
      | .error error => unpriced error
      | .ok quote =>
          let (distance, derived) := emergencyDistance inst position stopPips conversion
          let stop := emergencyStop inst quote position distance
          match broker.modifyPosition run.venue symbol stop with
          | (.ok true, venue) =>
              { venue, report := run.report.addNote (.stopAttached symbol stop distance derived) }
          | (.ok false, venue) =>
              { venue
                report := run.report.requireHalt.addNote (.remainsUnprotected symbol) }
          | (.error error, venue) =>
              { venue
                report := ((run.report.addNote (.attachFailed symbol error)).requireHalt).addNote
                  (.remainsUnprotected symbol) }

/-- `(conversions or {}).get(instrument(symbol).quote) if conversions else None`;
it raises when the instrument is not known. -/
def conversionFor (venue : σ) (conversions : Dict String Dec) (symbol : String) :
    Except String (Option Dec) :=
  if conversions.isEmpty then .ok none
  else (broker.instrument venue symbol).map fun inst => conversions.get? inst.quote

structure ReconcileOptions where
  autoProtect : Bool := true
  emergencyStopPips : Dec := 50
  conversions : Dict String Dec := .empty

def reconcilePosition (options : ReconcileOptions) (localMap : Dict String Position)
    (run : Reconciliation σ) (item : String × Position) :
    Except String (Reconciliation σ) :=
  let (symbol, venue) := item
  let report := run.report.addComparison (compareHolding (localMap.get? symbol) symbol venue)
  if venue.unprotected then
    let run := { run with report := report.addUnprotected symbol }
    if options.autoProtect then
      (conversionFor broker run.venue options.conversions symbol).map fun conversion =>
        attachEmergencyStop broker venue options.emergencyStopPips conversion run
    else .ok run
  else .ok { run with report := report }

def openingReport (book : VenueBook) (localPositions : List Position)
    (unresolved : List String) : ReconcileReport where
  ok := unresolved.isEmpty
  venuePositions := book.positions.length
  localPositions := localPositions.length
  unresolvedOrders := unresolved
  equity := some book.account.equity
  lastTransactionId := book.lastTransactionId
  haltRequired := !unresolved.isEmpty
  notes := if unresolved.isEmpty then [] else [.unknownOrders unresolved.length]

/-- `Reconciler.reconcile`. -/
def reconcile (options : ReconcileOptions) (localPositions : List Position)
    (unresolved : List String) (venue : σ) : Except String (Reconciliation σ) :=
  match broker.book venue with
  | .error error =>
      .ok { venue, report := { ok := false, haltRequired := true, notes := [.unreadable error] } }
  | .ok book =>
      let localMap := byInstrument localPositions
      let venueMap := byInstrument book.positions
      let opened := openingReport book localPositions unresolved
      let compared := (phantoms localMap venueMap).foldl ReconcileReport.addMismatch opened
      venueMap.items.foldlM (reconcilePosition broker options localMap) ⟨compared, venue⟩

/-! ## What one round does -/

/-- The venue after at most one call of `modify_position` for `symbol`. -/
def Modified (symbol : String) (before after : σ) : Prop :=
  after = before ∨ ∃ stop, after = (broker.modifyPosition before symbol stop).2

def Repaired (symbol : String) (before after : Reconciliation σ) : Prop :=
  after.report.haltRequired = true ∨
    ∃ stop, broker.modifyPosition before.venue symbol stop = (.ok true, after.venue)

theorem attachEmergencyStop_report :
    let after := attachEmergencyStop broker position stopPips conversion run
    after.report.mismatches = run.report.mismatches ∧
      after.report.unprotected = run.report.unprotected ∧
      (run.report.haltRequired = true → after.report.haltRequired = true) := by
  rw [attachEmergencyStop]
  simp only
  split
  · exact ⟨rfl, rfl, fun _ => rfl⟩
  · split
    · exact ⟨rfl, rfl, fun _ => rfl⟩
    · split
      · exact ⟨rfl, rfl, fun h => h⟩
      · exact ⟨rfl, rfl, fun _ => rfl⟩
      · exact ⟨rfl, rfl, fun _ => rfl⟩

theorem attachEmergencyStop_repaired :
    Repaired broker position.instrument run
      (attachEmergencyStop broker position stopPips conversion run) := by
  rw [attachEmergencyStop]
  simp only
  split
  · exact .inl rfl
  · split
    · exact .inl rfl
    · split
      case h_1 venue hmodify => exact .inr ⟨_, hmodify⟩
      · exact .inl rfl
      · exact .inl rfl

theorem attachEmergencyStop_modified :
    Modified broker position.instrument run.venue
      (attachEmergencyStop broker position stopPips conversion run).venue := by
  rw [attachEmergencyStop]
  simp only
  split
  · exact .inl rfl
  · split
    · exact .inl rfl
    · split
      all_goals
        rename_i hmodify
        exact .inr ⟨_, by rw [hmodify]⟩

/-- One round of the loop, on the position kept for `symbol`. -/
structure PositionReconciled (options : ReconcileOptions) (localMap : Dict String Position)
    (symbol : String) (position : Position) (before after : Reconciliation σ) : Prop where
  mismatches : after.report.mismatches = before.report.mismatches ++
    (compareHolding (localMap.get? symbol) symbol position).toList
  unprotected : after.report.unprotected = before.report.unprotected ++
    if position.unprotected then [symbol] else []
  halt_kept : before.report.haltRequired = true → after.report.haltRequired = true
  halt_of_mismatch : ∀ m ∈ compareHolding (localMap.get? symbol) symbol position,
    m.kind.halts = true → after.report.haltRequired = true
  repaired : position.unprotected = true → options.autoProtect = true →
    Repaired broker position.instrument before after
  modified : Modified broker position.instrument before.venue after.venue

variable {broker}

variable {options : ReconcileOptions}

theorem reconcilePosition_spec
    {localMap : Dict String Position} {run run' : Reconciliation σ} {symbol : String}
    {position : Position}
    (h : reconcilePosition broker options localMap run (symbol, position) = .ok run') :
    PositionReconciled broker options localMap symbol position run run' := by
  rw [reconcilePosition] at h
  have hhalts : ∀ m ∈ compareHolding (localMap.get? symbol) symbol position,
      m.kind.halts = true →
        (run.report.addComparison
          (compareHolding (localMap.get? symbol) symbol position)).haltRequired = true := by
    intro m hm hmhalts
    rw [ReconcileReport.addComparison_haltRequired, Option.mem_def.1 hm]
    simp [hmhalts]
  have hkept : run.report.haltRequired = true →
      (run.report.addComparison
        (compareHolding (localMap.get? symbol) symbol position)).haltRequired = true := by
    intro hr
    simp [ReconcileReport.addComparison_haltRequired, hr]
  have hmismatches := ReconcileReport.addComparison_mismatches run.report
    (compareHolding (localMap.get? symbol) symbol position)
  have hunprotected := ReconcileReport.addComparison_unprotected run.report
    (compareHolding (localMap.get? symbol) symbol position)
  simp only at h
  generalize run.report.addComparison
    (compareHolding (localMap.get? symbol) symbol position) = report at *
  cases hprotected : position.unprotected with
  | false =>
      simp only [hprotected, Bool.false_eq_true, if_false, Except.ok.injEq] at h
      subst h
      exact
        { mismatches := hmismatches
          unprotected := by simpa [hprotected] using hunprotected
          halt_kept := hkept
          halt_of_mismatch := hhalts
          repaired := by simp [hprotected]
          modified := .inl rfl }
  | true =>
      cases hauto : options.autoProtect with
      | false =>
          simp only [hprotected, hauto, Bool.false_eq_true, if_false, if_true,
            Except.ok.injEq] at h
          subst h
          exact
            { mismatches := hmismatches
              unprotected := by
                simp [ReconcileReport.addUnprotected, hprotected, hunprotected]
              halt_kept := hkept
              halt_of_mismatch := hhalts
              repaired := by simp [hauto]
              modified := .inl rfl }
      | true =>
          simp only [hprotected, hauto, if_true] at h
          cases hconversion : conversionFor broker run.venue options.conversions symbol with
          | error e =>
              rw [hconversion] at h
              cases h
          | ok conversion =>
              rw [hconversion] at h
              have hrun : attachEmergencyStop broker position options.emergencyStopPips
                  conversion { run with report := report.addUnprotected symbol } = run' :=
                Except.ok.inj h
              obtain ⟨hm, hu, hh⟩ := attachEmergencyStop_report broker position
                options.emergencyStopPips conversion
                { run with report := report.addUnprotected symbol }
              have hrepaired := attachEmergencyStop_repaired broker position
                options.emergencyStopPips conversion
                { run with report := report.addUnprotected symbol }
              have hmodified := attachEmergencyStop_modified broker position
                options.emergencyStopPips conversion
                { run with report := report.addUnprotected symbol }
              rw [hrun] at hm hu hh hrepaired hmodified
              exact
                { mismatches := hm.trans hmismatches
                  unprotected := by
                    rw [hu, hprotected, if_pos rfl, ← hunprotected]
                    rfl
                  halt_kept := fun hr => hh (hkept hr)
                  halt_of_mismatch := fun m hmem hmhalts => hh (hhalts m hmem hmhalts)
                  repaired := fun _ _ => hrepaired
                  modified := hmodified }

/-! ## What a reconciliation reports -/

def bookMismatches (localPositions venuePositions : List Position) : List Mismatch :=
  let localMap := byInstrument localPositions
  let venueMap := byInstrument venuePositions
  phantoms localMap venueMap ++
    venueMap.items.filterMap fun item =>
      compareHolding (localMap.get? item.1) item.1 item.2

def unprotectedSymbols (venuePositions : List Position) : List String :=
  ((byInstrument venuePositions).items.filter fun item => item.2.unprotected).map Prod.fst

theorem instrument_of_mem_byInstrument {positions : List Position} {symbol : String}
    {position : Position} (h : (symbol, position) ∈ (byInstrument positions).items) :
    position.instrument = symbol ∧ position ∈ positions := by
  rw [Dict.mem_items_iff] at h
  have hmem := Dict.mem_of_get?_ofEntries h
  obtain ⟨p, hp, heq⟩ := List.mem_map.1 hmem
  rw [Prod.mk.injEq] at heq
  obtain ⟨hsymbol, rfl⟩ := heq
  exact ⟨hsymbol, hp⟩

def SameBook (own venue : List Position) : Prop :=
  ∀ symbol, ((byInstrument own).get? symbol).map (fun p => (p.side, p.lots)) =
    ((byInstrument venue).get? symbol).map fun p => (p.side, p.lots)

theorem bookMismatches_of_sameBook {own venue : List Position} (h : SameBook own venue) :
    bookMismatches own venue = [] := by
  rw [bookMismatches]
  rw [List.append_eq_nil_iff]
  constructor
  · rw [phantoms]
    rw [List.filterMap_eq_nil_iff]
    rintro ⟨symbol, p⟩ hp
    rw [Dict.mem_items_iff] at hp
    have hsame := h symbol
    rw [hp] at hsame
    cases hvenue : (byInstrument venue).get? symbol with
    | none => simp [hvenue] at hsame
    | some q => simp [Dict.contains, hvenue]
  · rw [List.filterMap_eq_nil_iff]
    rintro ⟨symbol, q⟩ hq
    rw [Dict.mem_items_iff] at hq
    have hsame := h symbol
    rw [hq] at hsame
    cases hown : (byInstrument own).get? symbol with
    | none => simp [hown] at hsame
    | some p =>
        have hpq : p.side = q.side ∧ p.lots = q.lots := by simpa [hown] using hsame
        norm_num [compareHolding, hpq]

theorem orphan_of_no_local {venuePositions : List Position} {p : Position}
    (hp : p ∈ venuePositions) :
    ∃ m ∈ bookMismatches [] venuePositions,
      m.instrument = p.instrument ∧ m.kind = .orphan := by
  have hkey : (byInstrument venuePositions).get? p.instrument ≠ none := by
    rw [byInstrument, Ne, Dict.get?_ofEntries_eq_none_iff, not_not, List.map_map]
    exact List.mem_map_of_mem hp
  obtain ⟨kept, hkept⟩ := Option.ne_none_iff_exists'.1 hkey
  refine ⟨⟨.orphan, p.instrument, none, some (.sideAndLots kept.side kept.lots)⟩, ?_, rfl, rfl⟩
  refine List.mem_append_right _ (List.mem_filterMap.2 ⟨(p.instrument, kept), ?_, rfl⟩)
  rwa [Dict.mem_items_iff]

structure Reconciled (options : ReconcileOptions) (localPositions : List Position)
    (unresolved : List String) (book : VenueBook) (before : σ)
    (after : Reconciliation σ) : Prop where
  mismatches : after.report.mismatches = bookMismatches localPositions book.positions
  unprotected : after.report.unprotected = unprotectedSymbols book.positions
  halt_of_unresolved : unresolved ≠ [] → after.report.haltRequired = true
  halt_of_mismatch : ∀ m ∈ bookMismatches localPositions book.positions,
    m.kind.halts = true → after.report.haltRequired = true

theorem reconcile_spec {localPositions : List Position}
    {unresolved : List String} {book : VenueBook} {venue : σ} {after : Reconciliation σ}
    (hbook : broker.book venue = .ok book)
    (h : reconcile broker options localPositions unresolved venue = .ok after) :
    Reconciled options localPositions unresolved book venue after := by
  rw [reconcile] at h
  rw [hbook] at h
  simp only at h
  obtain ⟨hm, hu, hh⟩ := ReconcileReport.foldl_addMismatch
    (phantoms (byInstrument localPositions) (byInstrument book.positions))
    (openingReport book localPositions unresolved)
  have hinv := foldlM_ok_induction
    (I := fun done (run : Reconciliation σ) =>
      run.report.mismatches =
          phantoms (byInstrument localPositions) (byInstrument book.positions) ++
            done.filterMap (fun item =>
              compareHolding ((byInstrument localPositions).get? item.1) item.1 item.2) ∧
        run.report.unprotected =
          (done.filter fun item => item.2.unprotected).map Prod.fst ∧
        (unresolved ≠ [] → run.report.haltRequired = true) ∧
        (∀ m ∈ phantoms (byInstrument localPositions) (byInstrument book.positions) ++
            done.filterMap (fun item =>
              compareHolding ((byInstrument localPositions).get? item.1) item.1 item.2),
          m.kind.halts = true → run.report.haltRequired = true))
    h ?_ ?_
  · obtain ⟨hmismatches, hunprotected, hunresolved, hhalts⟩ := hinv
    exact ⟨hmismatches, hunprotected, hunresolved, hhalts⟩
  · rw [hm, hu, hh]
    refine ⟨by simp [openingReport], by simp [openingReport], ?_, ?_⟩
    · intro hne
      simp [openingReport, hne]
    · intro m hmem hhalts
      rw [List.filterMap_nil, List.append_nil] at hmem
      rw [Bool.or_eq_true, List.any_eq_true]
      exact .inr ⟨m, hmem, hhalts⟩
  · rintro done ⟨symbol, position⟩ run run' ⟨hmismatches, hunprotected, hunresolved, hhalts⟩ hstep
    have hspec := reconcilePosition_spec hstep
    refine ⟨?_, ?_, fun hne => hspec.halt_kept (hunresolved hne), ?_⟩
    · rw [hspec.mismatches, hmismatches, List.filterMap_append, List.append_assoc]
      rw [List.filterMap_cons, List.filterMap_nil]
      cases compareHolding ((byInstrument localPositions).get? symbol) symbol position <;> rfl
    · rw [hspec.unprotected, hunprotected, List.filter_append, List.map_append]
      cases hnaked : position.unprotected <;> simp [hnaked]
    · intro m hmem hmhalts
      rw [List.filterMap_append, ← List.append_assoc, List.mem_append] at hmem
      rcases hmem with hold | hnew
      · exact hspec.halt_kept (hhalts m hold hmhalts)
      · obtain ⟨item, hitem, hcompare⟩ := List.mem_filterMap.1 hnew
        rw [List.mem_singleton] at hitem
        subst hitem
        exact hspec.halt_of_mismatch m hcompare hmhalts

theorem reconcile_flat {localPositions : List Position}
    {book : VenueBook} {venue : σ} {after : Reconciliation σ}
    (hbook : broker.book venue = .ok book) (hflat : book.positions = [])
    (h : reconcile broker options localPositions [] venue = .ok after) :
    after.report.haltRequired = false := by
  rw [reconcile] at h
  rw [hbook] at h
  simp only [hflat] at h
  have hafter := Except.ok.inj h
  rw [← hafter, (ReconcileReport.foldl_addMismatch _ _).2.2, Bool.or_eq_false_iff]
  refine ⟨rfl, ?_⟩
  rw [List.any_eq_false]
  intro m hm
  obtain ⟨⟨symbol, own⟩, -, hitem⟩ := List.mem_filterMap.1 hm
  rw [← Option.some.inj hitem]
  simp [MismatchKind.halts]

theorem reconcile_returns
    (hconversions : options.conversions.isEmpty = true) (localPositions : List Position)
    (unresolved : List String) (venue : σ) :
    ∃ after, reconcile broker options localPositions unresolved venue = .ok after := by
  rw [reconcile]
  split
  · exact ⟨_, rfl⟩
  · apply foldlM_returns
    rintro run ⟨symbol, position⟩
    unfold reconcilePosition conversionFor
    simp only [hconversions, if_true]
    split_ifs
    · exact ⟨_, rfl⟩
    · exact ⟨_, rfl⟩
    · exact ⟨_, rfl⟩

end Venue

end Sentinel
