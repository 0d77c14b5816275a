import Sentinel.Brokers.Oanda

/-!
# Which naked trades a reconciliation notices

A book of trades goes through two reductions before its stops are checked: the
adapter joins the trades of a side, and the reconciler keeps the last leg of an
instrument.  A naked trade is noticed when every trade of the kept leg is
naked, and then it is repaired or the agent halts.
-/

namespace Sentinel

section Loop

variable {σ : Type} {broker : ReconcileVenue σ} {options : ReconcileOptions}
  {localPositions : List Position} {unresolved : List String} {venue : σ}
  {after : Reconciliation σ}

/-- A reconciliation that returned has repaired every position it reports as
unprotected, or requires a halt.  `Safe` is what the venue guarantees for an
instrument once it has taken a stop there. -/
theorem reconcile_repaired (Safe : σ → String → Prop) {book : VenueBook}
    (hmodified : ∀ v symbol stop v', broker.modifyPosition v symbol stop = (.ok true, v') →
      Safe v' symbol)
    (hkept : ∀ v other symbol stop, Safe v other →
      Safe (broker.modifyPosition v symbol stop).2 other)
    (hauto : options.autoProtect = true) (hbook : broker.book venue = .ok book)
    (h : reconcile broker options localPositions unresolved venue = .ok after) :
    ∀ symbol ∈ unprotectedSymbols book.positions,
      after.report.haltRequired = true ∨ Safe after.venue symbol := by
  rw [reconcile] at h
  rw [hbook] at h
  simp only at h
  have hinv := foldlM_ok_induction
    (I := fun done (run : Reconciliation σ) =>
      (∀ item ∈ done, item ∈ (byInstrument book.positions).items →
        item.2.unprotected = true →
        run.report.haltRequired = true ∨ Safe run.venue item.1))
    h (by simp) ?_
  · intro symbol hsymbol
    obtain ⟨item, hitem, rfl⟩ := List.mem_map.1 hsymbol
    obtain ⟨hmem, hnaked⟩ := List.mem_filter.1 hitem
    exact hinv item hmem hmem (by simpa using hnaked)
  · rintro done ⟨symbol, position⟩ run run' hdone hstep item hitem hmem hnaked
    have hspec := reconcilePosition_spec hstep
    rcases List.mem_append.1 hitem with hold | hnew
    · rcases hdone item hold hmem hnaked with hhalt | hsafe
      · exact .inl (hspec.halt_kept hhalt)
      · right
        rcases hspec.modified with hsame | ⟨stop, hcalled⟩
        · rw [hsame]
          exact hsafe
        · rw [hcalled]
          exact hkept _ _ _ _ hsafe
    · rw [List.mem_singleton] at hnew
      subst hnew
      have hsymbol : position.instrument = symbol := (instrument_of_mem_byInstrument hmem).1
      rcases hspec.repaired hnaked hauto with hhalt | ⟨stop, hstop⟩
      · exact .inl hhalt
      · right
        rw [← hsymbol]
        exact hmodified _ _ _ _ hstop

end Loop

namespace Oanda

def NakedNoticed (v : Venue) (after : Reconciliation Venue) : Prop :=
  ∀ t ∈ v.openTrades, t.Naked →
    t.instrument ∈ after.report.unprotected ∧
      (after.report.haltRequired = true ∨ after.venue.Stopped t.instrument)

def Venue.keptSide (v : Venue) (instrument : String) : Side :=
  if ∃ t ∈ v.openTrades, t.currentUnits ≠ 0 ∧ t.instrument = instrument ∧ t.side = .sell then
    .sell
  else .buy

def Venue.KeptLegsNaked (v : Venue) : Prop :=
  ∀ t ∈ v.openTrades, t.Naked →
    ∀ other ∈ v.openTrades, other.currentUnits ≠ 0 → other.instrument = t.instrument →
      other.side = v.keptSide t.instrument → other.stopLoss = none

instance (v : Venue) : Decidable v.KeptLegsNaked := by
  rw [Venue.KeptLegsNaked]
  infer_instance

theorem Venue.Consistent.lastSide {v : Venue} (hv : v.Consistent) {p : OpenPosition}
    (hp : p ∈ v.openPositions) {t : OpenTrade} (ht : t ∈ v.openTrades)
    (hunits : t.currentUnits ≠ 0) (hinstrument : t.instrument = p.instrument) :
    p.lastSide = some (v.keptSide p.instrument) := by
  have hshort := hv.leg_iff p hp .sell
  have hlong := hv.leg_iff p hp .buy
  simp only [OpenPosition.leg] at hshort hlong
  rw [OpenPosition.lastSide, Venue.keptSide]
  by_cases hsell : p.short.units ≠ 0
  · rw [if_pos hsell, if_pos (hshort.1 hsell)]
  · rw [if_neg hsell, if_neg fun h => hsell (hshort.2 h)]
    have hbuy : t.side = .buy := by
      cases hside : t.side with
      | buy => rfl
      | sell => exact absurd (hshort.2 ⟨t, ht, hunits, hinstrument, hside⟩) hsell
    rw [if_pos (hlong.2 ⟨t, ht, hunits, hinstrument, hbuy⟩)]

theorem mem_unprotectedSymbols_iff {v : Venue} (hv : v.Consistent) {t : OpenTrade}
    (ht : t ∈ v.openTrades) (hunits : t.currentUnits ≠ 0) :
    t.instrument ∈ unprotectedSymbols (positions v) ↔
      ∀ other ∈ v.openTrades, other.currentUnits ≠ 0 → other.instrument = t.instrument →
        other.side = v.keptSide t.instrument → other.stopLoss = none := by
  obtain ⟨p, hp, hinstrument⟩ := hv.listed t ht hunits
  have hkept : (byInstrument (positions v)).get? t.instrument =
      some (legPosition v p (v.keptSide t.instrument)) := by
    rw [← hinstrument, positions, get?_flatMap_legPositions v hv.oneRow hp,
      hv.lastSide hp ht hunits hinstrument.symm]
    rfl
  have hprotected := legPosition_unprotected_iff v p (v.keptSide t.instrument)
  rw [hinstrument] at hprotected
  rw [← hprotected]
  rw [unprotectedSymbols]
  constructor
  · intro hmem
    obtain ⟨⟨symbol, position⟩, hitem, hsymbol⟩ := List.mem_map.1 hmem
    obtain ⟨hitem, hnaked⟩ := List.mem_filter.1 hitem
    simp only at hsymbol
    rw [Dict.mem_items_iff, hsymbol, hkept] at hitem
    rw [Option.some.inj hitem]
    exact hnaked
  · intro hnaked
    refine List.mem_map.2 ⟨(t.instrument, legPosition v p (v.keptSide t.instrument)), ?_, rfl⟩
    rw [List.mem_filter, Dict.mem_items_iff]
    exact ⟨hkept, hnaked⟩

/-- A reconciliation notices every naked trade exactly when the book has none,
or could be read and keeps only naked legs beside naked trades. -/
theorem nakedNoticed_iff {v : Venue} (hv : v.Consistent) {after : Reconciliation Venue}
    (localPositions : List Position) (unresolved : List String) (stopPips : Dec)
    (conversions : Dict String Dec)
    (h : reconcile broker { emergencyStopPips := stopPips, conversions := conversions }
      localPositions unresolved v = .ok after) :
    NakedNoticed v after ↔
      (v.readError = none ∨ ∀ t ∈ v.openTrades, ¬t.Naked) ∧ v.KeptLegsNaked := by
  cases hread : v.readError with
  | some error =>
      have hbook : broker.book v = .error error := by simp [broker, hread]
      have hafter : after.report.unprotected = [] := by
        rw [reconcile] at h
        rw [hbook] at h
        rw [← Except.ok.inj h]
      simp only [reduceCtorEq, false_or, NakedNoticed, hafter, List.not_mem_nil, false_and,
        imp_false]
      constructor
      · intro hnone
        exact ⟨hnone, fun t ht hnaked => absurd hnaked (hnone t ht)⟩
      · rintro ⟨hnone, -⟩
        exact hnone
  | none =>
      have hbook : broker.book v = .ok ⟨v.account, v.lastTransactionId, positions v⟩ := by
        simp [broker, hread]
      have hspec := reconcile_spec hbook h
      have hrepaired := reconcile_repaired Venue.Stopped
        (fun _ _ _ _ hstop => stopped_of_modifyPosition hstop)
        (fun _ _ symbol stop hsafe => hsafe.modifyPosition symbol stop) rfl hbook h
      simp only [true_or, true_and, NakedNoticed, hspec.unprotected]
      constructor
      · intro hnoticed t ht hnaked
        exact (mem_unprotectedSymbols_iff hv ht hnaked.1).1 (hnoticed t ht hnaked).1
      · intro hlegs t ht hnaked
        have hmem := (mem_unprotectedSymbols_iff hv ht hnaked.1).2 (hlegs t ht hnaked)
        exact ⟨hmem, hrepaired t.instrument hmem⟩

def halfNakedVenue (secondUnits : Dec) : Venue where
  account := { accountId := "101-004", currency := "USD", balance := 10000, equity := 10000 }
  openPositions :=
    [{ instrument := "EUR_USD"
       long := { units := 100000 + max secondUnits 0, averagePrice := 11 / 10 }
       short := { units := min secondUnits 0, averagePrice := 11 / 10 } }]
  openTrades :=
    [{ id := "11", instrument := "EUR_USD", currentUnits := 100000, stopLoss := some (109 / 100) },
     { id := "12", instrument := "EUR_USD", currentUnits := secondUnits }]
  instruments :=
    .ofEntries [("EUR_USD", { symbol := "EUR_USD", base := "EUR", quote := "USD" })]
  quote _ := .ok { instrument := "EUR_USD", bid := 110 / 100, ask := 1101 / 1000 }
  put _ _ := .accepted

theorem halfNakedVenue_consistent (secondUnits : Dec) (h : secondUnits ≠ 0) :
    (halfNakedVenue secondUnits).Consistent where
  oneRow := by simp [halfNakedVenue]
  listed := by simp [halfNakedVenue]
  leg_iff := by
    rcases lt_or_gt_of_ne h with hneg | hpos
    · intro p hp side
      simp only [halfNakedVenue, List.mem_singleton] at hp
      subst hp
      cases side <;>
        simp [halfNakedVenue, OpenPosition.leg, OpenTrade.side, hneg.le, not_lt.2 hneg.le, h]
    · intro p hp side
      simp only [halfNakedVenue, List.mem_singleton] at hp
      subst hp
      cases side
      · have hsum : (100000 + secondUnits : Dec) ≠ 0 := by positivity
        simp [halfNakedVenue, OpenPosition.leg, OpenTrade.side, hpos.le, hpos, hsum]
      · simp [halfNakedVenue, OpenPosition.leg, OpenTrade.side, hpos.le, hpos]

/-- A short naked trade is on the kept leg, and is noticed. -/
theorem nakedNoticed_iff_hedged :
    (halfNakedVenue (-50000)).Consistent ∧
      ∃ after, reconcile broker {} [] [] (halfNakedVenue (-50000)) = .ok after ∧
        NakedNoticed (halfNakedVenue (-50000)) after := by
  have hconsistent := halfNakedVenue_consistent (-50000) (by norm_num)
  obtain ⟨after, hafter⟩ :=
    @reconcile_returns _ broker {} rfl [] [] (halfNakedVenue (-50000))
  exact ⟨hconsistent, after, hafter,
    (nakedNoticed_iff hconsistent [] [] 50 .empty hafter).2 ⟨.inl rfl, by decide⟩⟩

/-- A long naked trade beside a long trade with a stop is not. -/
theorem not_nakedNoticed_sameSide :
    (halfNakedVenue 50000).Consistent ∧
      ∃ after, reconcile broker {} [] [] (halfNakedVenue 50000) = .ok after ∧
        ¬NakedNoticed (halfNakedVenue 50000) after := by
  obtain ⟨after, hafter⟩ := @reconcile_returns _ broker {} rfl [] [] (halfNakedVenue 50000)
  have hconsistent := halfNakedVenue_consistent 50000 (by norm_num)
  refine ⟨hconsistent, after, hafter, ?_⟩
  intro hnoticed
  have hbook : broker.book (halfNakedVenue 50000) =
      .ok ⟨_, _, positions (halfNakedVenue 50000)⟩ := rfl
  have hnaked : (⟨"12", "EUR_USD", 50000, none, none, 0⟩ : OpenTrade).Naked := by decide
  have hreported := (hnoticed _ (by decide) hnaked).1
  rw [(reconcile_spec hbook hafter).unprotected] at hreported
  have hlegs := (mem_unprotectedSymbols_iff hconsistent
    (t := ⟨"12", "EUR_USD", 50000, none, none, 0⟩) (by decide) (by decide)).1 hreported
  revert hlegs
  decide

end Oanda

end Sentinel
